import ErikslundHttp.Request.ValueSpecs

/-!
# The decode arena

`parse_head` (`request.cpp`) decodes the query into one `std::string`, the arena, and the views of
the parameters point into it.  A string that outgrows its capacity moves to another block and leaves
such views dangling, so the capacity is reserved first.  Here the block is part of the model
(`Arena.origin`), a string remembers its states, and the contracts of the source are checked:
whatever breaks one fails with `QueryFailure.contract`.

What is decoded never is longer than what it was decoded from.  So the loop stays within the
capacity.

* `Arena.Steady`: all states of the arena are prefixes of the last one, in one block.
* `query_is_decoded`: a view reads the same in every state after it was made.
* `decodes_iff_urlDecode`: the library has a second decoder, `url_decode` (`text.cpp`); the two agree
  on all that has no control bytes.
-/

namespace ErikslundHttp

namespace QueryArena

open Scan Grammar

/-! ### The arena -/

/-- A `std::string` at one moment: the block that it stores its bytes in, and these. -/
structure Snapshot where
  origin : ℕ
  bytes : Bytes

/-- A `std::string`.  `past` are the states it was in before. -/
structure Arena where
  /-- The block that the string stores its bytes in. -/
  origin : ℕ
  /-- How many bytes fit into the block. -/
  capacity : ℕ
  bytes : Bytes := []
  /-- The states it was in before. -/
  past : List Snapshot := []

namespace Arena

/-- The size of the string. -/
def size (arena : Arena) : ℕ := arena.bytes.length

/-- The string as it is. -/
def now (arena : Arena) : Snapshot := ⟨arena.origin, arena.bytes⟩

/-- The string as it was at each time up to now. -/
def states (arena : Arena) : List Snapshot := arena.past ++ [arena.now]

/-- `std::string::push_back`. -/
def pushBack (arena : Arena) (character : UInt8) : Arena :=
  if arena.size < arena.capacity then
    { arena with bytes := arena.bytes ++ [character], past := arena.states }
  -- a full string moves to another block
  else
    { origin := arena.origin + 1
      capacity := arena.size + 1
      bytes := arena.bytes ++ [character]
      past := arena.states }

/-- The bytes one by one. -/
def append (arena : Arena) (bytes : Bytes) : Arena := bytes.foldl pushBack arena

end Arena

/-- A `std::string_view` into an arena.  `since` counts the states of the arena before it. -/
structure ArenaView where
  /-- The block that it points into. -/
  origin : ℕ
  offset : ℕ
  length : ℕ
  /-- The number of states of the arena before the view was made. -/
  since : ℕ

/-- The bytes of the view, unless it dangles. -/
def ArenaView.read (view : ArenaView) (state : Snapshot) : Option Bytes :=
  if view.origin = state.origin ∧ view.offset + view.length ≤ state.bytes.length then
    some ((state.bytes.drop view.offset).take view.length)
  else none

/-- Why a query is not decoded. -/
inductive QueryFailure where
  | parse (error : ParseError)
  /-- A contract or an assertion of the source is broken. -/
  | contract
  deriving DecidableEq

/-- `arena_view`, with its contract. -/
def arenaView (arena : Arena) (offset length : ℕ) : Except QueryFailure ArenaView :=
  if arena.size < offset + length then .error .contract
  else .ok ⟨arena.origin, offset, length, arena.past.length⟩

/-! ### Decoding -/

/-- The loop of `decode_query_component_into`, with what it returns. -/
def decodeLoop : Arena → Bytes → Arena × Bool
  | arena, [] => (arena, true)
  | arena, character :: rest =>
    if character == byte '+' then decodeLoop (arena.pushBack space) rest
    else if character != byte '%' then decodeLoop (arena.pushBack character) rest
    else
      match rest with
      | high :: low :: rest =>
        match hexValue high, hexValue low with
        | some highValue, some lowValue =>
          let decoded := (highValue <<< 4) ||| lowValue
          if decoded < 0x20 || decoded == 0x7F then (arena, false)
          else decodeLoop (arena.pushBack decoded) rest
        | _, _ => (arena, false)
      | _ => (arena, false)

/-- With the error that both callers make of `false`. -/
def decodeQueryComponentInto (arena : Arena) (raw : Bytes) : Arena × Except QueryFailure Unit :=
  if arena.capacity < arena.size + raw.length then (arena, .error .contract)
  else
    match decodeLoop arena raw with
    | (arena, true) => (arena, .ok ())
    | (arena, false) => (arena, .error (.parse .badPercentEncoding))

/-- The text before the first separator, and the text after it. -/
def cut (separator : UInt8) (text : Bytes) : Bytes × Bytes :=
  match find separator text with
  | none => (text, [])
  | some index => (text.take index, text.drop (index + 1))

theorem length_cut_lt {text : Bytes} (h : text ≠ []) (separator : UInt8) :
    (cut separator text).2.length < text.length := by
  have hpos := List.length_pos_iff.2 h
  rw [cut]
  split
  · exact hpos
  · rw [List.length_drop]
    omega

theorem splitPair_eq_cut : splitPair = cut (byte '=') := rfl

/-- What `decode_query_into` returns, and what it leaves in its two references. -/
structure QueryDecoding where
  /-- Whether the query is accepted. -/
  result : Except QueryFailure Unit
  arena : Arena
  /-- The parameters, as views into the arena. -/
  out : List (HeaderView ArenaView)

/-- `decode_query_into`, pair by pair. -/
def decodeQueryInto (arena : Arena) (rest : Bytes) (out : List (HeaderView ArenaView)) :
    QueryDecoding :=
  if rest = [] then ⟨.ok (), arena, out⟩
  else
    let pair := (cut (byte '&') rest).1
    let rest' := (cut (byte '&') rest).2
    if pair.isEmpty then decodeQueryInto arena rest' out
    else
      let rawName := (cut (byte '=') pair).1
      let rawValue := (cut (byte '=') pair).2
      if rawName.isEmpty then decodeQueryInto arena rest' out
      else if out.length = kMaxParsedHeaders then ⟨.error (.parse .targetTooLong), arena, out⟩
      else
        let nameBegin := arena.size
        match decodeQueryComponentInto arena rawName with
        | (arena, .error failure) => ⟨.error failure, arena, out⟩
        | (arena, .ok ()) =>
          let valueBegin := arena.size
          match decodeQueryComponentInto arena rawValue with
          | (arena, .error failure) => ⟨.error failure, arena, out⟩
          | (arena, .ok ()) =>
            match arenaView arena nameBegin (valueBegin - nameBegin),
                arenaView arena valueBegin (arena.size - valueBegin) with
            | .ok name, .ok value => decodeQueryInto arena rest' (out ++ [⟨name, value⟩])
            | .error failure, _ | _, .error failure => ⟨.error failure, arena, out⟩
  termination_by rest.length
  decreasing_by all_goals exact length_cut_lt ‹_› _

/-- The query in `parse_head`: what it returns of it, the arena and the parameters.  The block that
`reserve` allocates has some address, and room for at least the bytes asked for. -/
structure HeadQuery where
  result : Except QueryFailure Unit
  /-- None, if there is no query. -/
  decodeArena : Option Arena
  queryParameters : List (HeaderView ArenaView)

/-- The part of `parse_head` about the query: the capacity is reserved once. -/
def parseQuery (origin capacity : ℕ) (query : Bytes) : HeadQuery :=
  if query.isEmpty then ⟨.ok (), none, []⟩
  else
    let arena : Arena := { origin := origin, capacity := capacity }
    let arenaOrigin := arena.origin
    let decoding := decodeQueryInto arena query []
    match decoding.result with
    | .error failure => ⟨.error failure, some decoding.arena, decoding.out⟩
    | .ok () =>
      ⟨if decoding.arena.origin = arenaOrigin then .ok () else .error .contract,
        some decoding.arena, decoding.out⟩

/-! ### The other decoder -/

/-- `hex_digit_value` of `text.cpp`. -/
def hexDigitValue (character : UInt8) : ℤ :=
  if byte '0' ≤ character && character ≤ byte '9' then character.toNat - (byte '0').toNat
  else if byte 'a' ≤ character && character ≤ byte 'f' then
    character.toNat - (byte 'a').toNat + 10
  else if byte 'A' ≤ character && character ≤ byte 'F' then
    character.toNat - (byte 'A').toNat + 10
  else -1

/-- The loop of `url_decode` (`text.cpp`), from the bytes that are decoded. -/
def urlDecodeLoop (decoded : Bytes) : Bytes → Option Bytes
  | [] => some decoded
  | character :: rest =>
    if character = byte '+' then urlDecodeLoop (decoded ++ [space]) rest
    else if character = byte '%' then
      match rest with
      | high :: low :: rest =>
        let highDigit := hexDigitValue high
        let lowDigit := hexDigitValue low
        if highDigit = -1 ∨ lowDigit = -1 then none
        else
          let decodedByte := highDigit * 16 + lowDigit
          if decodedByte = 0 then none
          else urlDecodeLoop (decoded ++ [UInt8.ofNat decodedByte.toNat]) rest
      | _ => none
    else if character = 0 then none
    else urlDecodeLoop (decoded ++ [character]) rest

/-- `url_decode`. -/
def urlDecode (input : Bytes) : Option Bytes := urlDecodeLoop [] input

/-- Both tables of hexadecimal digits, over all bytes. -/
theorem hexDigitValue_eq (character : UInt8) : hexDigitValue character =
    match hexValue character with
    | some value => (value.toNat : ℤ)
    | none => -1 := by
  have htable : ∀ code : Fin 256, hexDigitValue (UInt8.ofNat code) =
      match hexValue (UInt8.ofNat code) with
      | some value => (value.toNat : ℤ)
      | none => -1 := by decide +kernel
  simpa using htable character.toFin

theorem hexValue_lt {character value : UInt8} (h : hexValue character = some value) :
    value.toNat < 16 := by
  have htable : ∀ code : Fin 256, (hexValue (UInt8.ofNat code)).all fun value => value.toNat < 16 := by
    decide +kernel
  have hlt : (hexValue character).all fun value => value.toNat < 16 := by
    simpa using htable character.toFin
  rw [h] at hlt
  simpa using hlt

theorem hexDigitValue_of_some {character value : UInt8} (h : hexValue character = some value) :
    hexDigitValue character = value.toNat := by
  rw [hexDigitValue_eq, h]

theorem hexValue_of_ne {character : UInt8} (h : hexDigitValue character ≠ -1) :
    ∃ value, hexValue character = some value := by
  rw [hexDigitValue_eq] at h
  cases hvalue : hexValue character with
  | some value => exact ⟨value, rfl⟩
  | none => exact absurd (by rw [hvalue]) h

/-- An escape is one byte, in either arithmetic. -/
theorem hexByte_eq {highValue lowValue : UInt8} (hhigh : highValue.toNat < 16)
    (hlow : lowValue.toNat < 16) :
    UInt8.ofNat ((highValue.toNat : ℤ) * 16 + lowValue.toNat).toNat =
      (highValue <<< 4) ||| lowValue := by
  have htable : ∀ high low : Fin 16, UInt8.ofNat (high.val * 16 + low.val) =
      (UInt8.ofNat high <<< 4) ||| UInt8.ofNat low := by decide +kernel
  have h := htable ⟨_, hhigh⟩ ⟨_, hlow⟩
  have hnat : ((highValue.toNat : ℤ) * 16 + lowValue.toNat).toNat =
      highValue.toNat * 16 + lowValue.toNat := by omega
  rw [hnat, h]
  simp

/-- What is decoded is only appended to, and never longer than the input. -/
theorem exists_of_urlDecodeLoop {decoded input out : Bytes}
    (h : urlDecodeLoop decoded input = some out) :
    ∃ r, out = decoded ++ r ∧ r.length ≤ input.length := by
  fun_induction urlDecodeLoop decoded input with
  | case1 decoded =>
    cases h
    exact ⟨[], by simp, le_rfl⟩
  | case2 decoded rest ih =>
    obtain ⟨r, rfl, hr⟩ := ih h
    exact ⟨space :: r, by simp, by simpa using hr⟩
  | case5 decoded _ high low rest highDigit lowDigit hdigits decodedByte hzero ih =>
    obtain ⟨r, rfl, hr⟩ := ih h
    exact ⟨_ :: r, by rw [List.append_assoc]; rfl, by simp only [List.length_cons]; omega⟩
  | case8 decoded character rest hplus hescape hzero ih =>
    obtain ⟨r, rfl, hr⟩ := ih h
    exact ⟨character :: r, by simp, by simpa using hr⟩
  | _ => cases h

/-- A byte that a component may decode to. -/
abbrev NoControl (b : UInt8) : Prop := 0x20 ≤ b ∧ b ≠ 0x7F

/-- One step of `url_decode`, on what is left of both sides. -/
theorem urlDecodeLoop_push_iff {decoded input r : Bytes} {b : UInt8} :
    (urlDecodeLoop (decoded ++ [b]) input = some (decoded ++ r) ∧ ∀ c ∈ r, NoControl c) ↔
      ∃ r', r = b :: r' ∧ NoControl b ∧
        urlDecodeLoop (decoded ++ [b]) input = some (decoded ++ [b] ++ r') ∧ ∀ c ∈ r', NoControl c := by
  constructor
  · rintro ⟨h, hr⟩
    obtain ⟨r', heq, -⟩ := exists_of_urlDecodeLoop h
    rw [List.append_assoc, List.append_cancel_left_eq] at heq
    subst heq
    obtain ⟨hb, hr'⟩ := List.forall_mem_cons.1 hr
    exact ⟨r', rfl, hb, by rw [h, List.append_assoc], hr'⟩
  · rintro ⟨r', rfl, hb, h, hr'⟩
    refine ⟨by rw [h, List.append_assoc]; rfl, List.forall_mem_cons.2 ⟨hb, hr'⟩⟩

theorem noControl_of_isValidTargetByte {b : UInt8} (h : isValidTargetByte b = true) :
    NoControl b := by
  simp only [isValidTargetByte, Bool.and_eq_true, Bool.not_eq_true', Bool.or_eq_false_iff,
    decide_eq_false_iff_not, beq_eq_false_iff_ne] at h
  exact ⟨UInt8.le_of_lt (UInt8.not_le.1 h.1.1), h.1.2⟩

theorem decodes_iff_urlDecodeLoop (decoded : Bytes) {raw : Bytes} (hraw : ∀ b ∈ raw, NoControl b)
    (r : Bytes) :
    Decodes raw r ↔ urlDecodeLoop decoded raw = some (decoded ++ r) ∧ ∀ b ∈ r, NoControl b := by
  fun_induction urlDecodeLoop decoded raw generalizing r with
  | case1 decoded =>
    constructor
    · rintro ⟨⟩
      simp
    · rintro ⟨h, -⟩
      obtain rfl : r = [] := by simpa using h
      exact .nil
  | case2 decoded rest ih =>
    rw [urlDecodeLoop_push_iff]
    constructor
    · intro h
      cases h with
      | plus h => exact ⟨_, rfl, by decide, (ih (List.forall_mem_cons.1 hraw).2 _).1 h⟩
      | plain hplus => exact absurd rfl hplus
    · rintro ⟨r', rfl, -, h⟩
      exact .plus ((ih (List.forall_mem_cons.1 hraw).2 r').2 h)
  | case8 decoded character rest hplus hescape hzero ih =>
    obtain ⟨hcharacter, hrest⟩ := List.forall_mem_cons.1 hraw
    rw [urlDecodeLoop_push_iff]
    constructor
    · intro h
      cases h with
      | plus => exact absurd rfl hplus
      | plain _ _ h => exact ⟨_, rfl, hcharacter, (ih hrest _).1 h⟩
      | escape => exact absurd rfl hescape
    · rintro ⟨r', rfl, -, h⟩
      exact .plain hplus hescape ((ih hrest r').2 h)
  | case3 decoded high low rest highDigit lowDigit hdigits =>
    simp only [decodes_escape_iff, reduceCtorEq, false_and, iff_false]
    rintro ⟨_, _, highValue, lowValue, _, _, ⟨⟩, hhigh, hlow, -⟩
    simp only [highDigit, lowDigit, hexDigitValue_of_some hhigh, hexDigitValue_of_some hlow] at hdigits
    omega
  | case4 decoded high low rest highDigit lowDigit hdigits decodedByte hzero =>
    -- a NUL is a control byte for the other decoder
    simp only [decodes_escape_iff, reduceCtorEq, false_and, iff_false]
    rintro ⟨_, _, highValue, lowValue, _, _, ⟨⟩, hhigh, hlow, hcontrol, -⟩
    rw [← hexByte_eq (hexValue_lt hhigh) (hexValue_lt hlow), ← hexDigitValue_of_some hhigh,
      ← hexDigitValue_of_some hlow, show hexDigitValue high * 16 + hexDigitValue low = 0 from hzero]
      at hcontrol
    exact absurd hcontrol (by decide)
  | case5 decoded high low rest highDigit lowDigit hdigits decodedByte hzero _ ih =>
    obtain ⟨hhigh, hlow⟩ := not_or.1 hdigits
    obtain ⟨highValue, hhigh⟩ := hexValue_of_ne hhigh
    obtain ⟨lowValue, hlow⟩ := hexValue_of_ne hlow
    have hbyte : UInt8.ofNat decodedByte.toNat = (highValue <<< 4) ||| lowValue := by
      rw [← hexByte_eq (hexValue_lt hhigh) (hexValue_lt hlow), ← hexDigitValue_of_some hhigh,
        ← hexDigitValue_of_some hlow]
    have hrest : ∀ b ∈ rest, NoControl b := fun b hb =>
      hraw b (List.mem_cons_of_mem _ (List.mem_cons_of_mem _ (List.mem_cons_of_mem _ hb)))
    rw [hbyte] at ih ⊢
    rw [urlDecodeLoop_push_iff, decodes_escape_iff]
    constructor
    · rintro ⟨_, _, _, _, _, r', ⟨⟩, hhigh', hlow', hle, hne, h, rfl⟩
      cases hhigh.symm.trans hhigh'
      cases hlow.symm.trans hlow'
      exact ⟨r', rfl, ⟨hle, hne⟩, (ih hrest r').1 h⟩
    · rintro ⟨r', rfl, hb, h⟩
      exact ⟨high, low, highValue, lowValue, rest, r', rfl, hhigh, hlow, hb.1, hb.2,
        (ih hrest r').2 h, rfl⟩
  | case6 decoded rest hshort =>
    simp only [decodes_escape_iff, reduceCtorEq, false_and, iff_false]
    rintro ⟨high, low, _, _, rest', _, hrest, -⟩
    exact hshort high low rest' hrest
  | case7 decoded rest => exact absurd (hraw 0 List.mem_cons_self).1 (by decide)

/-- **The two decoders.**  A component decodes to the bytes that `url_decode` makes of it, if none of
them is a control byte. -/
theorem decodes_iff_urlDecode {raw : Bytes} (hraw : ∀ b ∈ raw, NoControl b) (r : Bytes) :
    Decodes raw r ↔ urlDecode raw = some r ∧ ∀ b ∈ r, NoControl b :=
  decodes_iff_urlDecodeLoop [] hraw r

/-! ### A string that does not move -/

/-- It has been in one block, with one capacity, and was only appended to. -/
structure Arena.Steady (origin capacity : ℕ) (arena : Arena) : Prop where
  /-- It grew by one byte at a time. -/
  past : arena.past = (List.range arena.size).map fun size => ⟨origin, arena.bytes.take size⟩
  origin : arena.origin = origin
  capacity : arena.capacity = capacity

variable {origin capacity : ℕ} {arena : Arena}

theorem Arena.Steady.states_eq (h : arena.Steady origin capacity) : arena.states =
    (List.range (arena.size + 1)).map fun size => ⟨origin, arena.bytes.take size⟩ := by
  rw [states, h.past, now, h.origin, List.range_succ, List.map_append, List.map_singleton, size,
    List.take_length]

theorem Arena.Steady.pushBack (h : arena.Steady origin capacity) (hroom : arena.size < capacity)
    (character : UInt8) :
    (arena.pushBack character).Steady origin capacity ∧
      (arena.pushBack character).bytes = arena.bytes ++ [character] := by
  have hpush : arena.pushBack character =
      { arena with bytes := arena.bytes ++ [character], past := arena.states } :=
    if_pos (h.capacity ▸ hroom)
  rw [hpush]
  refine ⟨⟨?_, h.origin, h.capacity⟩, rfl⟩
  have hsize : (arena.bytes ++ [character]).length = arena.size + 1 := by
    rw [List.length_append]
    rfl
  dsimp only [size]
  rw [h.states_eq, hsize]
  refine List.map_congr_left fun size hsize => ?_
  rw [List.take_append_of_le_length (Nat.le_of_lt_succ (List.mem_range.1 hsize))]

theorem Arena.Steady.append (h : arena.Steady origin capacity) (bytes : Bytes)
    (hroom : arena.size + bytes.length ≤ capacity) :
    (arena.append bytes).Steady origin capacity ∧
      (arena.append bytes).bytes = arena.bytes ++ bytes := by
  induction bytes generalizing arena with
  | nil => exact ⟨h, (List.append_nil _).symm⟩
  | cons character bytes ih =>
    rw [List.length_cons] at hroom
    obtain ⟨hpushed, hbytes⟩ := h.pushBack (by omega) character
    have hsize : (arena.pushBack character).size = arena.size + 1 := by
      rw [size, hbytes, List.length_append]
      rfl
    obtain ⟨hsteady, heq⟩ := ih hpushed (by omega)
    refine ⟨hsteady, heq.trans ?_⟩
    rw [hbytes, List.append_assoc]
    rfl

/-! ### Components -/

theorem bytes_append (arena : Arena) (bytes : Bytes) :
    (arena.append bytes).bytes = arena.bytes ++ bytes := by
  induction bytes generalizing arena with
  | nil => exact (List.append_nil _).symm
  | cons character bytes ih =>
    have hpush : (arena.pushBack character).bytes = arena.bytes ++ [character] := by
      rw [Arena.pushBack]
      split_ifs <;> rfl
    refine (ih (arena.pushBack character)).trans ?_
    rw [hpush, List.append_assoc]
    rfl

theorem decodeLoop_spec (arena : Arena) (raw : Bytes) :
    ∃ pushed, pushed.length ≤ raw.length ∧ (decodeLoop arena raw).1 = arena.append pushed ∧
      ((decodeLoop arena raw).2 = true ∧ Decodes raw pushed ∨
        (decodeLoop arena raw).2 = false ∧ ∀ decoded, ¬ Decodes raw decoded) := by
  fun_induction decodeLoop arena raw with
  | case1 arena => exact ⟨[], le_rfl, rfl, .inl ⟨rfl, .nil⟩⟩
  | case2 arena character rest hplus ih =>
    obtain rfl : character = byte '+' := by simpa using hplus
    obtain ⟨pushed, hlength, harena, hdecodes⟩ := ih
    refine ⟨space :: pushed, by simpa using hlength, harena, hdecodes.imp ?_ ?_⟩
    · exact fun h => ⟨h.1, h.2.plus⟩
    · rintro ⟨hno, hpushed⟩
      refine ⟨hno, fun decoded h => ?_⟩
      cases h with
      | plus h => exact hpushed _ h
      | plain hne => exact hne rfl
  | case3 arena character rest hplus hescape ih =>
    simp only [beq_iff_eq, bne_iff_ne] at hplus hescape
    obtain ⟨pushed, hlength, harena, hdecodes⟩ := ih
    refine ⟨character :: pushed, by simpa using hlength, harena, hdecodes.imp ?_ ?_⟩
    · exact fun h => ⟨h.1, h.2.plain hplus hescape⟩
    · rintro ⟨hno, hpushed⟩
      refine ⟨hno, fun decoded h => ?_⟩
      cases h with
      | plus => exact hplus rfl
      | plain _ _ h => exact hpushed _ h
      | escape => exact hescape rfl
  | case4 arena character _ hescape high low rest highValue lowValue hlow hhigh decoded hcontrol =>
    obtain rfl : character = byte '%' := by simpa using hescape
    refine ⟨[], Nat.zero_le _, rfl, .inr ⟨rfl, fun decoded' h => ?_⟩⟩
    obtain ⟨_, _, _, _, _, _, ⟨⟩, hhigh', hlow', hle, hne, -⟩ := decodes_escape_iff.1 h
    cases hhigh.symm.trans hhigh'
    cases hlow.symm.trans hlow'
    simp [decoded, hne, UInt8.not_lt.2 hle] at hcontrol
  | case5 arena character _ hescape high low rest highValue lowValue hlow hhigh decoded hcontrol ih =>
    obtain rfl : character = byte '%' := by simpa using hescape
    simp only [Bool.or_eq_true, decide_eq_true_eq, beq_iff_eq, not_or, UInt8.not_lt] at hcontrol
    obtain ⟨pushed, hlength, harena, hdecodes⟩ := ih
    refine ⟨decoded :: pushed, ?_, harena, hdecodes.imp ?_ ?_⟩
    · simp only [List.length_cons]
      omega
    · exact fun h => ⟨h.1, .escape hhigh hlow rfl hcontrol h.2⟩
    · rintro ⟨hno, hpushed⟩
      refine ⟨hno, fun decoded' h => ?_⟩
      obtain ⟨_, _, _, _, _, _, ⟨⟩, -, -, -, -, h, -⟩ := decodes_escape_iff.1 h
      exact hpushed _ h
  | case6 arena character _ hescape high low rest hhex =>
    obtain rfl : character = byte '%' := by simpa using hescape
    refine ⟨[], Nat.zero_le _, rfl, .inr ⟨rfl, fun decoded h => ?_⟩⟩
    obtain ⟨_, _, _, _, _, _, ⟨⟩, hhigh, hlow, -⟩ := decodes_escape_iff.1 h
    exact hhex _ _ hhigh hlow
  | case7 arena character rest _ hescape hshort =>
    obtain rfl : character = byte '%' := by simpa using hescape
    refine ⟨[], Nat.zero_le _, rfl, .inr ⟨rfl, fun decoded h => ?_⟩⟩
    obtain ⟨_, _, _, _, _, _, rfl, -⟩ := decodes_escape_iff.1 h
    exact hshort _ _ _ rfl

/-- Decoding a component appends at most as many bytes as it has. -/
theorem decodeQueryComponentInto_spec (h : arena.Steady origin capacity) (raw : Bytes)
    (hroom : arena.size + raw.length ≤ capacity) :
    ∃ pushed next, pushed.length ≤ raw.length ∧ next.Steady origin capacity ∧
      next.bytes = arena.bytes ++ pushed ∧
      (decodeQueryComponentInto arena raw = (next, .ok ()) ∧ Decodes raw pushed ∨
        decodeQueryComponentInto arena raw = (next, .error (.parse .badPercentEncoding)) ∧
          ∀ decoded, ¬ Decodes raw decoded) := by
  obtain ⟨pushed, hlength, harena, hdecodes⟩ := decodeLoop_spec arena raw
  obtain ⟨hsteady, hbytes⟩ := h.append pushed (by omega)
  have hcontract : ¬ arena.capacity < arena.size + raw.length := by
    rw [h.capacity]
    omega
  refine ⟨pushed, _, hlength, hsteady, hbytes, hdecodes.imp ?_ ?_⟩
  · rintro ⟨hdecoded, hpushed⟩
    refine ⟨?_, hpushed⟩
    rw [decodeQueryComponentInto, if_neg hcontract, ← harena,
      ← Prod.mk.eta (p := decodeLoop arena raw), hdecoded]
  · rintro ⟨hdecoded, hno⟩
    refine ⟨?_, hno⟩
    rw [decodeQueryComponentInto, if_neg hcontract, ← harena,
      ← Prod.mk.eta (p := decodeLoop arena raw), hdecoded]

/-! ### Views -/

/-- The view was made of the bytes that the arena had then, and these are `decoded`. -/
structure ArenaView.Denotes (origin : ℕ) (bytes decoded : Bytes) (view : ArenaView) : Prop where
  /-- The bytes were there when the view was made. -/
  made : view.offset + view.length ≤ view.since
  since : view.since ≤ bytes.length
  /-- The block is still the same. -/
  sameOrigin : view.origin = origin
  /-- What it reads. -/
  denotes : (bytes.drop view.offset).take view.length = decoded

theorem ArenaView.Denotes.append {bytes decoded : Bytes} {view : ArenaView}
    (h : view.Denotes origin bytes decoded) (later : Bytes) :
    view.Denotes origin (bytes ++ later) decoded := by
  obtain ⟨hmade, hsince, horigin, hdenotes⟩ := h
  refine ⟨hmade, ?_, horigin, ?_⟩
  · rw [List.length_append]
    omega
  · rw [List.drop_append_of_le_length (by omega),
      List.take_append_of_le_length (by rw [List.length_drop]; omega)]
    exact hdenotes

/-- In every state of the arena since it was made, the view reads the same. -/
theorem ArenaView.Denotes.read {decoded : Bytes} {view : ArenaView}
    (h : view.Denotes origin arena.bytes decoded) (harena : arena.Steady origin capacity)
    {number : ℕ} (hnumber : view.since ≤ number) {state : Snapshot}
    (hstate : arena.states[number]? = some state) : view.read state = some decoded := by
  obtain ⟨hmade, hsince, horigin, hdenotes⟩ := h
  rw [harena.states_eq, List.getElem?_map, Option.map_eq_some_iff] at hstate
  obtain ⟨size, hsize, rfl⟩ := hstate
  obtain ⟨hlt, rfl⟩ := List.getElem?_eq_some_iff.1 hsize
  rw [List.length_range, Arena.size] at hlt
  rw [List.getElem_range, ArenaView.read, if_pos ⟨horigin, by rw [List.length_take]; omega⟩,
    List.drop_take, List.take_take, Nat.min_eq_left (by omega), hdenotes]

theorem denotes_of_arenaView (h : arena.Steady origin capacity) (before decoded after : Bytes)
    (hbytes : arena.bytes = before ++ decoded ++ after) :
    ∃ view, arenaView arena before.length decoded.length = .ok view ∧
      view.Denotes origin arena.bytes decoded := by
  have hlength : before.length + decoded.length + after.length = arena.bytes.length := by
    rw [hbytes, List.length_append, List.length_append]
  refine ⟨⟨arena.origin, before.length, decoded.length, arena.past.length⟩,
    if_neg (by rw [Arena.size]; omega), ?_⟩
  have hpast : arena.past.length = arena.bytes.length := by
    rw [h.past, List.length_map, List.length_range, Arena.size]
  refine ⟨?_, hpast.le, h.origin, ?_⟩
  · dsimp only
    omega
  · dsimp only
    rw [hbytes, List.append_assoc, List.drop_left, List.take_left]

/-- The views of a parameter denote its name and its value. -/
def DenotesParameter (origin : ℕ) (bytes : Bytes) (parameter : HeaderView ArenaView)
    (decoded : Header) : Prop :=
  parameter.name.Denotes origin bytes decoded.name ∧
    parameter.value.Denotes origin bytes decoded.value

theorem forall₂_denotes_append {bytes : Bytes} {parameters : List (HeaderView ArenaView)}
    {decoded : List Header} (h : List.Forall₂ (DenotesParameter origin bytes) parameters decoded)
    (later : Bytes) : List.Forall₂ (DenotesParameter origin (bytes ++ later)) parameters decoded :=
  h.imp fun _ _ hdenotes => ⟨hdenotes.1.append later, hdenotes.2.append later⟩

/-! ### The loop -/

theorem length_cut (separator : UInt8) (text : Bytes) :
    (cut separator text).1.length + (cut separator text).2.length ≤ text.length := by
  rw [cut]
  split
  · exact le_rfl
  · simp only [List.length_take, List.length_drop]
    omega

/-- The first pair of a query, if it has a name, and the others. -/
theorem queryPairs_cut (query : Bytes) :
    queryPairs query =
      (if (cut (byte '=') (cut (byte '&') query).1).1.isEmpty then []
        else [cut (byte '=') (cut (byte '&') query).1]) ++
      queryPairs (cut (byte '&') query).2 := by
  have hpair (pair : Bytes) : namedPairs [pair] =
      if (cut (byte '=') pair).1.isEmpty then [] else [cut (byte '=') pair] := by
    rw [namedPairs, List.map_singleton, List.filter_singleton, nameAndValue_eq, splitPair_eq_cut]
    cases (cut (byte '=') pair).1.isEmpty <;> rfl
  rw [← hpair]
  cases hfind : find (byte '&') query with
  | none =>
    have hcut : cut (byte '&') query = (query, []) := by rw [cut, hfind]
    rw [hcut, queryPairs, List.splitOn_eq_singleton (find_eq_none_iff.1 hfind)]
    exact (List.append_nil _).symm
  | some index =>
    obtain ⟨first, rest, rfl, hfirst, rfl⟩ := find_eq_some_iff.1 hfind
    have hcut : cut (byte '&') (first ++ byte '&' :: rest) = (first, rest) := by
      rw [cut, hfind]
      dsimp only
      rw [List.take_left, drop_succ_append_cons]
    have hsplit : (first ++ byte '&' :: rest).splitOn (byte '&') =
        [first] ++ rest.splitOn (byte '&') := by
      rw [List.splitOn_append_cons_self, List.splitOn_eq_singleton hfirst]
    rw [hcut, queryPairs, hsplit, namedPairs, List.map_append, List.filter_append]
    rfl

/-- What is left by the loop: the arena of before with more bytes, and views of parameters. -/
structure QueryDecoding.Sound (origin capacity : ℕ) (arena : Arena) (rest : Bytes)
    (out : List (HeaderView ArenaView)) (decoding : QueryDecoding) : Prop where
  /-- The block has never been exchanged. -/
  steady : decoding.arena.Steady origin capacity
  /-- Decoding does not lengthen the text. -/
  grows : ∃ appended, appended.length ≤ rest.length ∧
    decoding.arena.bytes = arena.bytes ++ appended
  /-- The pairs that were decoded, up to the first that cannot be. -/
  outcome : ∃ parameters decoded, decoding.out = out ++ parameters ∧
    List.Forall₂ (DenotesParameter origin decoding.arena.bytes) parameters decoded ∧
    (decoding.result = .ok () ∧ List.Forall₂ DecodesPair (queryPairs rest) decoded ∧
        out.length + decoded.length ≤ kMaxParsedHeaders ∨
      (∃ error, decoding.result = .error (.parse error)) ∧
        (kMaxParsedHeaders < out.length + (queryPairs rest).length ∨
          ∃ pair ∈ queryPairs rest, ∀ decoded, ¬ DecodesPair pair decoded))

/-- A failure at the first pair. -/
theorem sound_of_failure {arena' : Arena} (h : arena'.Steady origin capacity) {appended rest : Bytes}
    (hlength : appended.length ≤ rest.length) (hbytes : arena'.bytes = arena.bytes ++ appended)
    {out : List (HeaderView ArenaView)} {error : ParseError}
    (hfails : kMaxParsedHeaders < out.length + (queryPairs rest).length ∨
      ∃ pair ∈ queryPairs rest, ∀ decoded, ¬ DecodesPair pair decoded) :
    QueryDecoding.Sound origin capacity arena rest out ⟨.error (.parse error), arena', out⟩ :=
  ⟨h, ⟨appended, hlength, hbytes⟩, [], [], (List.append_nil _).symm, .nil, .inr ⟨⟨_, rfl⟩, hfails⟩⟩

namespace QueryDecoding.Sound

variable {rest rest' : Bytes} {out : List (HeaderView ArenaView)} {decoding : QueryDecoding}

/-- A first pair without a name. -/
theorem skip (h : decoding.Sound origin capacity arena rest' out)
    (hpairs : queryPairs rest = queryPairs rest') (hlength : rest'.length ≤ rest.length) :
    decoding.Sound origin capacity arena rest out := by
  obtain ⟨hsteady, ⟨appended, happended, hbytes⟩, houtcome⟩ := h
  rw [← hpairs] at houtcome
  exact ⟨hsteady, ⟨appended, happended.trans hlength, hbytes⟩, houtcome⟩

/-- A first pair that is decoded. -/
theorem cons {arena' : Arena} {parameter : HeaderView ArenaView} {pair : Bytes × Bytes}
    {decoded : Header} {appended : Bytes}
    (h : decoding.Sound origin capacity arena' rest' (out ++ [parameter]))
    (hpairs : queryPairs rest = pair :: queryPairs rest')
    (hbytes : arena'.bytes = arena.bytes ++ appended)
    (hlength : appended.length + rest'.length ≤ rest.length) (hpair : DecodesPair pair decoded)
    (hdenotes : DenotesParameter origin arena'.bytes parameter decoded) :
    decoding.Sound origin capacity arena rest out := by
  obtain ⟨hsteady, ⟨later, hlater, hbytes'⟩, parameters, decodeds, hout, hviews, houtcome⟩ := h
  refine ⟨hsteady, ⟨appended ++ later, ?_, ?_⟩, parameter :: parameters, decoded :: decodeds, ?_, ?_,
    houtcome.imp ?_ ?_⟩
  · rw [List.length_append]
    omega
  · rw [hbytes', hbytes, List.append_assoc]
  · rw [hout, List.append_assoc]
    rfl
  · refine .cons ?_ hviews
    rw [hbytes']
    exact ⟨hdenotes.1.append later, hdenotes.2.append later⟩
  · rintro ⟨hresult, hdecodes, hcount⟩
    rw [hpairs]
    refine ⟨hresult, .cons hpair hdecodes, ?_⟩
    rw [List.length_append, List.length_singleton] at hcount
    rw [List.length_cons]
    omega
  · rintro ⟨hresult, hfails⟩
    refine ⟨hresult, hfails.imp ?_ ?_⟩
    · intro hcount
      rw [List.length_append, List.length_singleton] at hcount
      rw [hpairs, List.length_cons]
      omega
    · rintro ⟨pair', hmem, hno⟩
      exact ⟨pair', hpairs ▸ List.mem_cons_of_mem _ hmem, hno⟩

end QueryDecoding.Sound

theorem decodeQueryInto_sound (h : arena.Steady origin capacity) {rest : Bytes}
    (hroom : arena.size + rest.length ≤ capacity) {out : List (HeaderView ArenaView)}
    (hout : out.length ≤ kMaxParsedHeaders) :
    (decodeQueryInto arena rest out).Sound origin capacity arena rest out := by
  induction hlength : rest.length using Nat.strong_induction_on generalizing arena rest out with
  | _ length ih =>
    subst hlength
    rw [decodeQueryInto]
    by_cases hempty : rest = []
    · rw [if_pos hempty, hempty]
      exact ⟨h, ⟨[], le_rfl, (List.append_nil _).symm⟩, [], [], (List.append_nil _).symm, .nil,
        .inl ⟨rfl, .nil, hout⟩⟩
    rw [if_neg hempty]
    have hshorter := length_cut_lt hempty (byte '&')
    have hrest := length_cut (byte '&') rest
    have hparts := length_cut (byte '=') (cut (byte '&') rest).1
    have hpairs := queryPairs_cut rest
    dsimp only
    by_cases hpair : (cut (byte '&') rest).1.isEmpty = true
    · have hname : (cut (byte '=') (cut (byte '&') rest).1).1.isEmpty = true := by
        rw [List.isEmpty_iff.1 hpair]
        rfl
      rw [hname, if_pos rfl, List.nil_append] at hpairs
      rw [if_pos hpair]
      exact (ih _ hshorter h (by omega) hout rfl).skip hpairs hshorter.le
    rw [if_neg hpair]
    by_cases hname : (cut (byte '=') (cut (byte '&') rest).1).1.isEmpty = true
    · rw [if_pos hname, List.nil_append] at hpairs
      rw [if_pos hname]
      exact (ih _ hshorter h (by omega) hout rfl).skip hpairs hshorter.le
    rw [if_neg hname, List.singleton_append] at hpairs
    rw [if_neg hname]
    by_cases hfull : out.length = kMaxParsedHeaders
    · rw [if_pos hfull]
      refine sound_of_failure h (Nat.zero_le _) (List.append_nil _).symm (.inl ?_)
      rw [hpairs, List.length_cons, hfull]
      omega
    rw [if_neg hfull]
    have hmem : cut (byte '=') (cut (byte '&') rest).1 ∈ queryPairs rest := by
      rw [hpairs]
      exact List.mem_cons_self
    obtain ⟨name, named, hnameLength, hnamed, hnameBytes, hdecodesName⟩ :=
      decodeQueryComponentInto_spec h (cut (byte '=') (cut (byte '&') rest).1).1 (by omega)
    rcases hdecodesName with ⟨hcall, hdecodesName⟩ | ⟨hcall, hno⟩
    swap
    · rw [hcall]
      exact sound_of_failure hnamed (by omega) hnameBytes
        (.inr ⟨_, hmem, fun decoded hdecodes => hno _ hdecodes.1⟩)
    rw [hcall]
    have hnamedSize : named.size = arena.size + name.length := by
      rw [Arena.size, hnameBytes, List.length_append]
      rfl
    obtain ⟨value, valued, hvalueLength, hvalued, hvalueBytes, hdecodesValue⟩ :=
      decodeQueryComponentInto_spec hnamed (cut (byte '=') (cut (byte '&') rest).1).2 (by omega)
    have hbytes : valued.bytes = arena.bytes ++ (name ++ value) := by
      rw [hvalueBytes, hnameBytes, List.append_assoc]
    rcases hdecodesValue with ⟨hcall', hdecodesValue⟩ | ⟨hcall', hno⟩
    swap
    · dsimp only
      rw [hcall']
      exact sound_of_failure hvalued (by rw [List.length_append]; omega) hbytes
        (.inr ⟨_, hmem, fun decoded hdecodes => hno _ hdecodes.2⟩)
    dsimp only
    rw [hcall']
    have hvaluedSize : valued.size = named.size + value.length := by
      rw [Arena.size, hvalueBytes, List.length_append]
      rfl
    -- both views lie in the bytes that this pair appended
    obtain ⟨nameView, hnameView, hdenotesName⟩ :=
      denotes_of_arenaView hvalued arena.bytes name value (by rw [hvalueBytes, hnameBytes])
    obtain ⟨valueView, hvalueView, hdenotesValue⟩ :=
      denotes_of_arenaView hvalued named.bytes value [] (by rw [hvalueBytes, List.append_nil])
    have hname' : arenaView valued arena.size (named.size - arena.size) = .ok nameView := by
      rw [hnamedSize, Nat.add_sub_cancel_left]
      exact hnameView
    have hvalue' : arenaView valued named.size (valued.size - named.size) = .ok valueView := by
      rw [hvaluedSize, Nat.add_sub_cancel_left]
      exact hvalueView
    dsimp only
    rw [hname', hvalue']
    have hdecodes : DecodesPair (cut (byte '=') (cut (byte '&') rest).1) ⟨name, value⟩ :=
      ⟨hdecodesName, hdecodesValue⟩
    refine (ih _ hshorter hvalued (by omega) ?_ rfl).cons hpairs hbytes ?_ hdecodes
      ⟨hdenotesName, hdenotesValue⟩
    · rw [List.length_append, List.length_singleton]
      omega
    · rw [List.length_append]
      omega

/-! ### The query of a request -/

theorem mem_of_mem_splitOn {separator b : UInt8} {text piece : Bytes}
    (hpiece : piece ∈ text.splitOn separator) (hb : b ∈ piece) : b ∈ text := by
  have hmem : b ∈ separator :: text := by
    rw [← flatMap_splitOn]
    exact List.mem_flatMap.2 ⟨piece, hpiece, List.mem_cons_of_mem _ hb⟩
  refine (List.mem_cons.1 hmem).resolve_left ?_
  rintro rfl
  exact notMem_of_mem_splitOn hpiece hb

/-- The bytes of a pair are bytes of the query. -/
theorem mem_of_mem_queryPairs {query : Bytes} {pair : Bytes × Bytes} (hpair : pair ∈ queryPairs query)
    {b : UInt8} (hb : b ∈ pair.1 ∨ b ∈ pair.2) : b ∈ query := by
  obtain ⟨hpair, -⟩ := List.mem_filter.1 hpair
  obtain ⟨piece, hpiece, rfl⟩ := List.mem_map.1 hpair
  refine mem_of_mem_splitOn hpiece ?_
  rw [nameAndValue_eq, splitPair] at hb
  split at hb
  · exact hb.resolve_right List.not_mem_nil
  · exact hb.elim (fun h => (List.take_sublist _ _).subset h) fun h => (List.drop_sublist _ _).subset h

/-- `url_decode` makes these bytes of the component, and none of them is a control byte. -/
def DecodesTo (raw decoded : Bytes) : Prop :=
  urlDecode raw = some decoded ∧ ∀ b ∈ decoded, NoControl b

/-- What `parse_head` has of its query. -/
theorem parseQuery_sound (origin : ℕ) {query : Bytes} (hne : query ≠ []) (hcapacity : query.length ≤ capacity) :
    ∃ decoding : QueryDecoding,
      decoding.Sound origin capacity { origin := origin, capacity := capacity } query [] ∧
        parseQuery origin capacity query =
          ⟨decoding.result, some decoding.arena, decoding.out⟩ := by
  have hstart : Arena.Steady origin capacity { origin := origin, capacity := capacity } :=
    ⟨rfl, rfl, rfl⟩
  have hroom : (0 : ℕ) + query.length ≤ capacity := by omega
  have hsound : (decodeQueryInto _ query []).Sound origin capacity _ query [] :=
    decodeQueryInto_sound hstart hroom (Nat.zero_le _)
  refine ⟨_, hsound, ?_⟩
  rw [parseQuery, if_neg (by simpa using hne)]
  dsimp only
  split
  · rename_i failure hfailure
    rw [hfailure]
  · rename_i hok
    rw [if_pos hsound.steady.origin, hok]

theorem decodes_iff_decodesTo {raw : Bytes} (hraw : ∀ b ∈ raw, isValidTargetByte b = true)
    (decoded : Bytes) : Decodes raw decoded ↔ DecodesTo raw decoded :=
  decodes_iff_urlDecode (fun b hb => noControl_of_isValidTargetByte (hraw b hb)) decoded

/-- What decoding a component appends. -/
theorem decodeQueryComponentInto_iff {raw decoded : Bytes} {arena : Arena}
    (hraw : ∀ b ∈ raw, isValidTargetByte b = true)
    (hroom : arena.size + raw.length ≤ arena.capacity) :
    (∃ next, decodeQueryComponentInto arena raw = (next, .ok ()) ∧
      next.bytes = arena.bytes ++ decoded) ↔ DecodesTo raw decoded := by
  obtain ⟨pushed, -, harena, hdecodes⟩ := decodeLoop_spec arena raw
  have hcall : decodeQueryComponentInto arena raw = (arena.append pushed,
      if (decodeLoop arena raw).2 then .ok () else .error (.parse .badPercentEncoding)) := by
    rw [decodeQueryComponentInto, if_neg (by omega), ← harena]
    split
    · rename_i hloop
      rw [hloop]
      rfl
    · rename_i hloop
      rw [hloop]
      rfl
  rcases hdecodes with ⟨htrue, hpushed⟩ | ⟨hfalse, hno⟩
  · have hpushed := (decodes_iff_decodesTo hraw pushed).1 hpushed
    rw [hcall, htrue]
    constructor
    · rintro ⟨_, ⟨⟩, hbytes⟩
      rw [bytes_append, List.append_cancel_left_eq] at hbytes
      exact hbytes ▸ hpushed
    · intro hdecoded
      obtain rfl : pushed = decoded := Option.some.inj (hpushed.1.symm.trans hdecoded.1)
      exact ⟨_, rfl, bytes_append _ _⟩
  · rw [hcall, hfalse]
    constructor
    · rintro ⟨_, ⟨⟩, -⟩
    · intro hdecoded
      exact absurd ((decodes_iff_decodesTo hraw decoded).2 hdecoded) (hno decoded)

/-- A pair that does not decode has a name or a value that does not. -/
theorem not_decodesPair_iff {pair : Bytes × Bytes} (hname : ∀ b ∈ pair.1, isValidTargetByte b = true)
    (hvalue : ∀ b ∈ pair.2, isValidTargetByte b = true) :
    (∀ decoded, ¬ DecodesPair pair decoded) ↔
      (∀ decoded, ¬ DecodesTo pair.1 decoded) ∨ ∀ decoded, ¬ DecodesTo pair.2 decoded := by
  simp only [← decodes_iff_decodesTo hname, ← decodes_iff_decodesTo hvalue]
  constructor
  · intro hno
    by_contra! hboth
    obtain ⟨⟨name, hname⟩, value, hvalue⟩ := hboth
    exact hno ⟨name, value⟩ ⟨hname, hvalue⟩
  · rintro (hno | hno) decoded ⟨hname, hvalue⟩
    · exact hno _ hname
    · exact hno _ hvalue

theorem exists_of_forall₂_of_mem {α β : Type} {R : α → β → Prop} {l : List α} {l' : List β}
    (h : List.Forall₂ R l l') {a : α} (ha : a ∈ l) : ∃ b, R a b := by
  induction h with
  | nil => cases ha
  | cons hhead _ ih =>
    rcases List.mem_cons.1 ha with rfl | ha
    · exact ⟨_, hhead⟩
    · exact ih ha

theorem QueryDecoding.Sound.refused_iff {query : Bytes} {decoding : QueryDecoding}
    (h : decoding.Sound origin capacity arena query []) :
    (∃ failure, decoding.result = .error failure) ↔
      kMaxParsedHeaders < (queryPairs query).length ∨
        ∃ pair ∈ queryPairs query, ∀ decoded, ¬ DecodesPair pair decoded := by
  obtain ⟨parameters, decoded, -, -, ⟨hok, hdecodes, hcount⟩ | ⟨⟨error, herror⟩, hfails⟩⟩ := h.outcome
  · have hno : ¬ ∃ failure, decoding.result = .error failure := by
      rintro ⟨failure, hfailure⟩
      cases hok.symm.trans hfailure
    refine iff_of_false hno ?_
    rintro (hmany | ⟨pair, hpair, hnone⟩)
    · rw [List.length_nil, ← hdecodes.length_eq] at hcount
      omega
    · obtain ⟨decoded, hdecoded⟩ := exists_of_forall₂_of_mem hdecodes hpair
      exact hnone decoded hdecoded
  · refine iff_of_true ⟨_, herror⟩ ?_
    rwa [List.length_nil, Nat.zero_add] at hfails

theorem QueryDecoding.Sound.ne_contract {query : Bytes} {decoding : QueryDecoding}
    {out : List (HeaderView ArenaView)} (h : decoding.Sound origin capacity arena query out) :
    decoding.result ≠ .error .contract := by
  obtain ⟨-, -, -, -, ⟨hok, -⟩ | ⟨⟨error, herror⟩, -⟩⟩ := h.outcome
  · rw [hok]
    nofun
  · rw [herror]
    nofun

/-- In the last state, too. -/
theorem ArenaView.Denotes.read_now {decoded : Bytes} {view : ArenaView}
    (h : view.Denotes origin arena.bytes decoded) (harena : arena.Steady origin capacity) :
    view.read arena.now = some decoded := by
  have hpast : arena.past.length = arena.bytes.length := by
    rw [harena.past, List.length_map, List.length_range, Arena.size]
  refine h.read harena (hpast ▸ h.since) ?_
  rw [Arena.states, List.getElem?_append_right le_rfl, Nat.sub_self]
  rfl

/-- Two lists that correspond to a third one. -/
theorem forall₂_through {α β γ : Type} {R : α → γ → Prop} {S : β → γ → Prop} {l : List α}
    {l' : List β} {m : List γ} (h : List.Forall₂ R l m) (h' : List.Forall₂ S l' m) :
    List.Forall₂ (fun a b => ∃ c, R a c ∧ S b c) l l' := by
  induction h generalizing l' with
  | nil =>
    cases h'
    exact .nil
  | cons hhead _ ih =>
    cases h' with
    | cons hhead' htail' => exact .cons ⟨_, hhead, hhead'⟩ (ih htail')

theorem decodesPair_unique {pair : Bytes × Bytes} {decoded decoded' : Header}
    (h : DecodesPair pair decoded) (h' : DecodesPair pair decoded') : decoded = decoded' := by
  have hunique {raw r r' : Bytes} (h : Decodes raw r) (h' : Decodes raw r') : r = r' := by
    have hsome := decodeQueryComponentInto_eq_some_iff.2 ⟨r, h, (List.nil_append r).symm⟩
    have hsome' := decodeQueryComponentInto_eq_some_iff.2 ⟨r', h', (List.nil_append r').symm⟩
    exact Option.some.inj (hsome.symm.trans hsome')
  obtain ⟨name, value⟩ := decoded
  obtain ⟨name', value'⟩ := decoded'
  obtain rfl : name = name' := hunique h.1 h'.1
  obtain rfl : value = value' := hunique h.2 h'.2
  rfl

/-- The views denote what the parser of `parseHeadAt` decodes, which knows no capacity. -/
theorem parseQuery_refines (origin : ℕ) {query arena : Bytes} {parameters : List Header}
    (hcapacity : query.length ≤ capacity)
    (h : (ErikslundHttp.decodeQueryInto [] query).map
      (Prod.map id (List.map (HeaderView.map View.bytes))) = .ok (arena, parameters)) :
    let head := parseQuery origin capacity query
    head.result = .ok () ∧ List.Forall₂ (fun view parameter =>
      ∀ arena, head.decodeArena = some arena → view.name.read arena.now = some parameter.name ∧
        view.value.read arena.now = some parameter.value) head.queryParameters parameters := by
  obtain ⟨⟨hcount, hdecodes⟩, -⟩ := decodeQueryInto_map_eq_ok_iff.1 h
  intro head
  by_cases hempty : query = []
  · subst hempty
    cases hdecodes
    exact ⟨rfl, .nil⟩
  obtain ⟨decoding, hsound, hhead⟩ := parseQuery_sound origin hempty hcapacity
  rw [show head = _ from hhead]
  obtain ⟨views, decoded, hout, hdenotes, ⟨hok, hdecoded, -⟩ | ⟨herror, -⟩⟩ := hsound.outcome
  · obtain rfl : decoded = parameters := by
      refine List.forall₂_eq_eq_eq ▸ ?_
      exact (forall₂_through hdecoded.flip hdecodes.flip).imp fun _ _ ⟨_, hd, hd'⟩ =>
        decodesPair_unique hd hd'
    refine ⟨hok, ?_⟩
    rw [show decoding.out = views from hout]
    refine hdenotes.imp ?_
    rintro view parameter hview _ ⟨⟩
    exact ⟨hview.1.read_now hsound.steady, hview.2.read_now hsound.steady⟩
  · obtain ⟨failure, hfailure⟩ := herror
    rcases hsound.refused_iff.1 ⟨_, hfailure⟩ with hmany | ⟨pair, hpair, hno⟩
    · rw [hdecodes.length_eq] at hmany
      omega
    · obtain ⟨decoded, hdecoded⟩ := exists_of_forall₂_of_mem hdecodes hpair
      exact absurd hdecoded (hno decoded)

/-- **Decoding the query.**  Of a query of valid target bytes, with room for as many bytes reserved:

* no contract and no assertion is broken;
* it is refused exactly if there are more than 64 pairs with a name, or one of their names and values
  does not decode, and otherwise the parameters are these pairs decoded, in order;
* the arena stays in its block, with the capacity reserved, and is only appended to;
* a view reads the same in all states of the arena from when it was made.

A component decodes to what `url_decode` makes of it, if no byte of that is a control byte. -/
theorem query_is_decoded (origin : ℕ) {capacity : ℕ} {query : Bytes}
    (hquery : ∀ b ∈ query, isValidTargetByte b = true) (hcapacity : query.length ≤ capacity) :
    let head := parseQuery origin capacity query
    head.result ≠ .error .contract ∧
    ((∃ failure, head.result = .error failure) ↔
      kMaxParsedHeaders < (queryPairs query).length ∨ ∃ pair ∈ queryPairs query,
        (∀ decoded, ¬ DecodesTo pair.1 decoded) ∨ ∀ decoded, ¬ DecodesTo pair.2 decoded) ∧
    (head.result = .ok () → List.Forall₂ (fun pair parameter =>
        ∃ name value, DecodesTo pair.1 name ∧ DecodesTo pair.2 value ∧
          ∀ arena, head.decodeArena = some arena →
            parameter.name.read arena.now = some name ∧
              parameter.value.read arena.now = some value)
      (queryPairs query) head.queryParameters) ∧
    (∀ arena, head.decodeArena = some arena →
      arena.origin = origin ∧ arena.capacity = capacity ∧ arena.size ≤ query.length ∧
      (∀ state ∈ arena.states, state.origin = origin ∧ state.bytes <+: arena.bytes) ∧
      ∀ parameter ∈ head.queryParameters, ∀ view ∈ [parameter.name, parameter.value],
        ∃ decoded, ∀ (number : ℕ) state, view.since ≤ number →
          arena.states[number]? = some state → view.read state = some decoded) ∧
    ∀ (raw decoded : Bytes) (arena : Arena), (∀ b ∈ raw, isValidTargetByte b = true) →
      arena.size + raw.length ≤ arena.capacity →
      ((∃ next, decodeQueryComponentInto arena raw = (next, .ok ()) ∧
        next.bytes = arena.bytes ++ decoded) ↔ DecodesTo raw decoded) := by
  intro head
  have hbytes : ∀ pair ∈ queryPairs query, (∀ b ∈ pair.1, isValidTargetByte b = true) ∧
      ∀ b ∈ pair.2, isValidTargetByte b = true := fun pair hpair =>
    ⟨fun b hb => hquery b (mem_of_mem_queryPairs hpair (.inl hb)),
      fun b hb => hquery b (mem_of_mem_queryPairs hpair (.inr hb))⟩
  have hcomponent : ∀ (raw decoded : Bytes) (arena : Arena),
      (∀ b ∈ raw, isValidTargetByte b = true) → arena.size + raw.length ≤ arena.capacity →
      ((∃ next, decodeQueryComponentInto arena raw = (next, .ok ()) ∧
        next.bytes = arena.bytes ++ decoded) ↔ DecodesTo raw decoded) :=
    fun _ _ _ hraw hroom => decodeQueryComponentInto_iff hraw hroom
  by_cases hempty : query = []
  · subst hempty
    refine ⟨nofun, ⟨?_, ?_⟩, fun _ => .nil, nofun, hcomponent⟩
    · rintro ⟨_, ⟨⟩⟩
    · rintro (hmany | ⟨_, ⟨⟩, -⟩)
      cases hmany
  obtain ⟨decoding, hsound, hhead⟩ := parseQuery_sound origin hempty hcapacity
  have hsteady := hsound.steady
  obtain ⟨appended, happended, harena⟩ := hsound.grows
  rw [show head = _ from hhead]
  refine ⟨hsound.ne_contract, ?_, ?_, ?_, hcomponent⟩
  · rw [hsound.refused_iff]
    refine or_congr_right (exists_congr fun pair => and_congr_right fun hpair => ?_)
    exact not_decodesPair_iff (hbytes pair hpair).1 (hbytes pair hpair).2
  · intro hok
    obtain ⟨parameters, decoded, hout, hdenotes, ⟨-, hdecodes, -⟩ | ⟨⟨_, herror⟩, -⟩⟩ :=
      hsound.outcome
    swap
    · cases hok.symm.trans herror
    rw [show decoding.out = parameters from hout]
    have hvalid := (List.forall₂_and_left ..).2 ⟨hbytes, hdecodes⟩
    refine (forall₂_through hvalid hdenotes).imp ?_
    rintro pair parameter ⟨decoded, ⟨⟨hname, hvalue⟩, hpair⟩, hdenotes⟩
    refine ⟨decoded.name, decoded.value, (decodes_iff_decodesTo hname _).1 hpair.1,
      (decodes_iff_decodesTo hvalue _).1 hpair.2, ?_⟩
    rintro arena ⟨⟩
    exact ⟨hdenotes.1.read_now hsteady, hdenotes.2.read_now hsteady⟩
  · rintro arena ⟨⟩
    refine ⟨hsteady.origin, hsteady.capacity, ?_, ?_, ?_⟩
    · rw [Arena.size, harena]
      simpa using happended
    · intro state hstate
      rw [hsteady.states_eq] at hstate
      obtain ⟨size, -, rfl⟩ := List.mem_map.1 hstate
      exact ⟨rfl, List.take_prefix _ _⟩
    · obtain ⟨parameters, decoded, hout, hdenotes, -⟩ := hsound.outcome
      intro parameter hparameter
      rw [show decoding.out = parameters from hout] at hparameter
      obtain ⟨decoded, hname, hvalue⟩ := exists_of_forall₂_of_mem hdenotes hparameter
      refine List.forall_mem_cons.2
        ⟨⟨decoded.name, ?_⟩, List.forall_mem_singleton.2 ⟨decoded.value, ?_⟩⟩
      · exact fun number state hsince hstate => hname.read hsteady hsince hstate
      · exact fun number state hsince hstate => hvalue.read hsteady hsince hstate

/-- A query with an escape and a pair without a value, in an arena that just fits. -/
theorem query_is_decoded_at_capacity :
    let head := parseQuery 0 7 (ascii "a=%42&c")
    head.result ≠ .error .contract ∧ ∃ arena, head.decodeArena = some arena ∧
      arena.bytes = ascii "aBc" ∧ arena.origin = 0 ∧ arena.capacity = 7 ∧
      ∀ state ∈ arena.states, state.origin = 0 ∧ state.bytes <+: arena.bytes := by
  intro head
  have hquery : ∀ b ∈ ascii "a=%42&c", isValidTargetByte b = true := by decide +kernel
  have hroom : (ascii "a=%42&c").length ≤ 7 := by decide +kernel
  obtain ⟨hcontract, -, -, harena, -⟩ := query_is_decoded 0 hquery hroom
  have hbytes : head.decodeArena.map Arena.bytes = some (ascii "aBc") := by decide +kernel
  obtain ⟨arena, hsome, hbytes⟩ := Option.map_eq_some_iff.1 hbytes
  obtain ⟨horigin, hcapacity, -, hstates, -⟩ := harena arena hsome
  exact ⟨hcontract, arena, hsome, hbytes, horigin, hcapacity, hstates⟩

end QueryArena

end ErikslundHttp
