import ErikslundHttp.Sse.Delivery
import ErikslundHttp.Sse.EventSource

/-!
# The size of an event frame

`publish` checks the size of a frame before it builds it.  The check is a second copy of the loop
over the payload (`event_frame_size`, `sse.cpp`), with `size_t` sums that stay below a limit; the
loops are written out here, over positions of the payload, as the source has them.

Each addition compares with `limit - frame_size`, and an underflow there is an outcome of the model.

* `Bounded` is the meaning of the sums: a total if it is within the limit (`bounded_bind_add`).
* `sizeLoop_eq`: both loops go through the payload together.
* `event_frame_size_agrees`: the check says what the frame is.
-/

namespace ErikslundHttp

namespace EventFrame

/-- A `std::string_view`, whose size is a `size_t`. -/
structure StringView where
  bytes : Bytes
  /-- A `size_t` holds the length. -/
  fits : bytes.length < 2 ^ 64

/-- Its size as the code has it. -/
def StringView.size (text : StringView) : UInt64 := UInt64.ofNat text.bytes.length

/-- `payload.find_first_of("\r\n", start)`. -/
def findLineBreak (payload : Bytes) (start : ℕ) : Option ℕ :=
  ((payload.drop start).findIdx? fun character => character == CR || character == LF).map (· + start)

theorem findLineBreak_bounds {payload : Bytes} {start breakAt : ℕ}
    (h : findLineBreak payload start = some breakAt) : start ≤ breakAt ∧ breakAt < payload.length := by
  obtain ⟨i, hi, rfl⟩ := Option.map_eq_some_iff.1 h
  have hlt := (List.findIdx?_eq_some_iff_getElem.1 hi).1
  rw [List.length_drop] at hlt
  omega

/-! ### The frame -/

/-- `append_data_lines`, by an index. -/
def appendDataLines (frame payload : Bytes) (lineStart : ℕ) : Bytes :=
  match h : findLineBreak payload lineStart with
  | none =>
    frame ++ kDataFieldPrefix ++ (payload.drop lineStart).take (payload.length - lineStart) ++ [LF]
  | some breakAt =>
    let frame := frame ++ kDataFieldPrefix ++
      (payload.drop lineStart).take (breakAt - lineStart) ++ [LF]
    let lineStart := breakAt + 1
    if payload[breakAt]? = some CR ∧ lineStart < payload.length ∧ payload[lineStart]? = some LF then
      appendDataLines frame payload (lineStart + 1)
    else appendDataLines frame payload lineStart
  termination_by payload.length - lineStart
  decreasing_by all_goals
    have hbounds := findLineBreak_bounds h
    omega

/-- The loop of `append_event_name` over the characters of the name. -/
def appendEventName (frame event : Bytes) : Bytes :=
  (event.foldl (fun frame character =>
    frame ++ [if character = CR ∨ character = LF then space else character])
    (frame ++ kEventFieldPrefix)) ++ [LF]

/-- `build_event_frame`. -/
def buildEventFrame (event data : StringView) : Bytes :=
  let frame : Bytes := []
  let frame := if event.bytes.isEmpty then frame else appendEventName frame event.bytes
  appendDataLines frame data.bytes 0 ++ [LF]

/-! ### The size -/

/-- Why there is no size. -/
inductive SizeError where
  /-- The answer `nullopt`. -/
  | exceeded
  /-- `limit - frame_size` underflows. -/
  | underflow
  deriving DecidableEq

/-- `add_frame_bytes`, in `size_t`. -/
def addFrameBytes (frameSize bytes limit : UInt64) : Except SizeError UInt64 :=
  if limit < frameSize then .error .underflow
  else if limit - frameSize < bytes then .error .exceeded
  else .ok (frameSize + bytes)

/-- The bytes that a line of the payload adds. -/
def addLine (frameSize : UInt64) (lineBytes : ℕ) (limit : UInt64) : Except SizeError UInt64 := do
  let frameSize ← addFrameBytes frameSize (UInt64.ofNat kDataFieldPrefix.length) limit
  let frameSize ← addFrameBytes frameSize (UInt64.ofNat lineBytes) limit
  addFrameBytes frameSize 1 limit

/-- The loop of `event_frame_size` over the lines of the payload. -/
def sizeLoop (data : Bytes) (limit : UInt64) (lineStart : ℕ) (frameSize : UInt64) :
    Except SizeError UInt64 :=
  match h : findLineBreak data lineStart with
  | none => addLine frameSize (data.length - lineStart) limit
  | some breakAt => do
    let frameSize ← addLine frameSize (breakAt - lineStart) limit
    let lineStart := breakAt + 1
    if data[breakAt]? = some CR ∧ lineStart < data.length ∧ data[lineStart]? = some LF then
      sizeLoop data limit (lineStart + 1) frameSize
    else sizeLoop data limit lineStart frameSize
  termination_by data.length - lineStart
  decreasing_by all_goals
    have hbounds := findLineBreak_bounds h
    omega

/-- `event_frame_size`, in `size_t`. -/
def eventFrameSize (event data : StringView) (limit : UInt64) : Except SizeError UInt64 := do
  let frameSize : UInt64 := 0
  let frameSize ←
    if event.bytes.isEmpty then .ok frameSize
    else do
      let frameSize ← addFrameBytes frameSize (UInt64.ofNat kEventFieldPrefix.length) limit
      let frameSize ← addFrameBytes frameSize event.size limit
      addFrameBytes frameSize 1 limit
  let frameSize ← sizeLoop data.bytes limit 0 frameSize
  addFrameBytes frameSize 1 limit

/-! ### The lines of a payload -/

/-- What a break that is found ends, and what comes after it. -/
theorem findLineBreak_eq_some {payload : Bytes} {start breakAt : ℕ}
    (h : findLineBreak payload start = some breakAt) :
    ∃ line c rest, payload.drop start = line ++ c :: rest ∧ (∀ b ∈ line, b ≠ CR ∧ b ≠ LF) ∧
      (c = CR ∨ c = LF) ∧ breakAt = start + line.length ∧ payload[breakAt]? = some c ∧
      payload.drop (breakAt + 1) = rest := by
  obtain ⟨i, hi, rfl⟩ := Option.map_eq_some_iff.1 h
  obtain ⟨line, c, rest, hdrop, hline, hc, rfl⟩ := Scan.findIdx?_eq_some_iff.1 hi
  have hnext : payload.drop (line.length + start) = c :: rest := by
    rw [Nat.add_comm, ← List.drop_drop, hdrop, List.drop_left]
  refine ⟨line, c, rest, hdrop, by simpa using hline, by simpa using hc, Nat.add_comm _ _, ?_, ?_⟩
  · rw [← List.head?_drop, hnext]
    rfl
  · rw [← List.drop_drop, hnext]
    rfl

theorem dataLines_of_plain {line : Bytes} (h : ∀ b ∈ line, b ≠ CR ∧ b ≠ LF) {rest first : Bytes}
    {lines : List Bytes} (hrest : dataLines rest = first :: lines) :
    dataLines (line ++ rest) = (line ++ first) :: lines := by
  induction line with
  | nil => exact hrest
  | cons b line ih =>
    obtain ⟨hb, hline⟩ := List.forall_mem_cons.1 h
    rw [List.cons_append, dataLines, ih hline]
    dsimp only
    rw [if_neg hb.1, if_neg hb.2]
    rfl

theorem dataLines_LF (rest : Bytes) : dataLines (LF :: rest) = [] :: dataLines rest := by
  obtain ⟨first, lines, hrest, hcons⟩ := dataLines_cons LF rest
  rw [hcons, hrest]
  rfl

theorem dataLines_CR (rest : Bytes) : dataLines (CR :: rest) =
    [] :: dataLines (if rest.head? = some LF then rest.tail else rest) := by
  obtain ⟨first, lines, hrest, -⟩ := dataLines_cons CR rest
  rw [dataLines, hrest]
  dsimp only
  rw [if_pos rfl]
  split_ifs with hnext
  · obtain ⟨rest, rfl⟩ : ∃ tail, rest = LF :: tail := List.head?_eq_some_iff.1 hnext
    rw [← hrest, dataLines_LF]
    rfl
  · rw [hrest]

/-- After a line without a break nothing comes. -/
theorem dataLines_drop_of_none {payload : Bytes} {lineStart : ℕ}
    (h : findLineBreak payload lineStart = none) :
    dataLines (payload.drop lineStart) = [payload.drop lineStart] := by
  rw [findLineBreak, Option.map_eq_none_iff, List.findIdx?_eq_none_iff] at h
  have hplain : ∀ b ∈ payload.drop lineStart, b ≠ CR ∧ b ≠ LF := by simpa using h
  have hnil : dataLines [] = [[]] := rfl
  have hlines := dataLines_of_plain hplain hnil
  rwa [List.append_nil] at hlines

/-- The place where the loops go on after a break. -/
def nextLine (payload : Bytes) (breakAt : ℕ) : ℕ :=
  if payload[breakAt]? = some CR ∧ breakAt + 1 < payload.length ∧ payload[breakAt + 1]? = some LF then
    breakAt + 1 + 1
  else breakAt + 1

theorem dataLines_drop_of_break {payload : Bytes} {lineStart breakAt : ℕ}
    (h : findLineBreak payload lineStart = some breakAt) :
    dataLines (payload.drop lineStart) =
      (payload.drop lineStart).take (breakAt - lineStart) ::
        dataLines (payload.drop (nextLine payload breakAt)) := by
  obtain ⟨line, c, rest, hdrop, hplain, hc, rfl, hbreak, hrest⟩ := findLineBreak_eq_some h
  have hlf : (lineStart + line.length + 1 < payload.length ∧
      payload[lineStart + line.length + 1]? = some LF) ↔ rest.head? = some LF := by
    rw [← hrest, List.head?_drop]
    exact ⟨And.right, fun hlf => ⟨(List.getElem?_eq_some_iff.1 hlf).1, hlf⟩⟩
  have htail : payload.drop (lineStart + line.length + 1 + 1) = rest.tail := by
    rw [← List.drop_drop, hrest, List.drop_one]
  have hnext : nextLine payload (lineStart + line.length) =
      if c = CR ∧ rest.head? = some LF then lineStart + line.length + 1 + 1
      else lineStart + line.length + 1 := by
    simp only [nextLine, hbreak, hlf, Option.some.injEq]
  rw [hnext, hdrop, Nat.add_sub_cancel_left, List.take_left]
  rcases hc with rfl | rfl
  · rw [dataLines_of_plain hplain (dataLines_CR rest), List.append_nil]
    by_cases hnext : rest.head? = some LF
    · rw [if_pos hnext, if_pos ⟨rfl, hnext⟩, htail]
    · rw [if_neg hnext, if_neg (fun hboth => hnext hboth.2), hrest]
  · rw [dataLines_of_plain hplain (dataLines_LF rest), List.append_nil,
      if_neg (fun hboth => absurd hboth.1 (by decide)), hrest]

theorem lt_nextLine {payload : Bytes} {lineStart breakAt : ℕ}
    (h : findLineBreak payload lineStart = some breakAt) :
    lineStart < nextLine payload breakAt ∧ lineStart < payload.length := by
  have hbounds := findLineBreak_bounds h
  rw [nextLine]
  split_ifs <;> omega

/-! ### The loops -/

theorem appendDataLines_eq (frame payload : Bytes) (lineStart : ℕ) :
    appendDataLines frame payload lineStart =
      ErikslundHttp.appendDataLines frame (payload.drop lineStart) := by
  fun_induction appendDataLines frame payload lineStart with
  | case1 frame lineStart h =>
    rw [ErikslundHttp.appendDataLines, dataLines_drop_of_none h]
    simp
  | case2 frame lineStart breakAt h frame' lineStart' hcrlf ih =>
    have hnext : nextLine payload breakAt = breakAt + 1 + 1 := if_pos hcrlf
    rw [ih, ErikslundHttp.appendDataLines, ErikslundHttp.appendDataLines,
      dataLines_drop_of_break h, hnext, List.flatMap_cons]
    simp [frame', lineStart']
  | case3 frame lineStart breakAt h frame' lineStart' hcrlf ih =>
    have hnext : nextLine payload breakAt = breakAt + 1 := if_neg hcrlf
    rw [ih, ErikslundHttp.appendDataLines, ErikslundHttp.appendDataLines,
      dataLines_drop_of_break h, hnext, List.flatMap_cons]
    simp [frame', lineStart']

theorem appendEventName_eq (frame event : Bytes) :
    appendEventName frame event = ErikslundHttp.appendEventName frame event := by
  rw [appendEventName, ErikslundHttp.appendEventName, List.foldl_append_eq_append, ← List.flatMap_def,
    List.map_eq_flatMap]

/-- The frame of the loops. -/
theorem buildEventFrame_eq (event data : StringView) :
    buildEventFrame event data = ErikslundHttp.buildEventFrame event.bytes data.bytes := by
  simp only [buildEventFrame, ErikslundHttp.buildEventFrame, appendDataLines_eq, appendEventName_eq,
    List.drop_zero]

/-! ### The sums -/

/-- A total within the limit, or the answer that it is not. -/
def Bounded (limit : UInt64) (total : ℕ) : Except SizeError UInt64 :=
  if total ≤ limit.toNat then .ok (UInt64.ofNat total) else .error .exceeded

theorem toNat_ofNat_of_lt {n : ℕ} (h : n < 2 ^ 64) : (UInt64.ofNat n).toNat = n := by
  rw [UInt64.toNat_ofNat', Nat.mod_eq_of_lt h]

/-- Adding to a total never underflows, since the total is within the limit. -/
theorem bounded_bind_add (limit : UInt64) (total : ℕ) (bytes : UInt64) :
    (Bounded limit total >>= fun frameSize => addFrameBytes frameSize bytes limit) =
      Bounded limit (total + bytes.toNat) := by
  have hlimit := limit.toNat_lt
  rw [Bounded]
  split_ifs with hle
  · have htotal := toNat_ofNat_of_lt (lt_of_le_of_lt hle hlimit)
    have hroom : (limit - UInt64.ofNat total).toNat = limit.toNat - total := by
      rw [UInt64.toNat_sub_of_le _ _ (by rw [UInt64.le_iff_toNat_le, htotal]; exact hle), htotal]
    rw [ok_bind, addFrameBytes, if_neg (by rw [UInt64.lt_iff_toNat_lt, htotal]; omega), Bounded]
    by_cases hfits : total + bytes.toNat ≤ limit.toNat
    · rw [if_neg (by rw [UInt64.lt_iff_toNat_lt, hroom]; omega), if_pos hfits]
      congr 1
      rw [← UInt64.toNat_inj, UInt64.toNat_add, htotal, toNat_ofNat_of_lt (by omega),
        Nat.mod_eq_of_lt (by omega)]
    · rw [if_pos (by rw [UInt64.lt_iff_toNat_lt, hroom]; omega), if_neg hfits]
  · rw [Bounded, if_neg (by omega)]
    rfl

/-- The same, with what comes after it. -/
theorem bounded_bind_add_bind {α : Type} (limit : UInt64) (total : ℕ) (bytes : UInt64)
    (next : UInt64 → Except SizeError α) :
    (Bounded limit total >>= fun frameSize => addFrameBytes frameSize bytes limit >>= next) =
      Bounded limit (total + bytes.toNat) >>= next := by
  rw [← bounded_bind_add, bind_assoc]

theorem bounded_bind_addLine (limit : UInt64) (total : ℕ) {lineBytes : ℕ} (h : lineBytes < 2 ^ 64) :
    (Bounded limit total >>= fun frameSize => addLine frameSize lineBytes limit) =
      Bounded limit (total + (kDataFieldPrefix.length + lineBytes + 1)) := by
  simp only [addLine, bounded_bind_add_bind, bounded_bind_add, toNat_ofNat_of_lt h]
  congr 1
  show total + 6 + lineBytes + 1 = total + (6 + lineBytes + 1)
  omega

/-- The bytes of the lines in a frame. -/
def linesSize (lines : List Bytes) : ℕ :=
  (lines.map fun line => kDataFieldPrefix.length + line.length + 1).sum

/-- The loop adds the sizes of the lines that are left. -/
theorem sizeLoop_eq {data : Bytes} (hdata : data.length < 2 ^ 64) (limit : UInt64)
    (lineStart total : ℕ) :
    (Bounded limit total >>= sizeLoop data limit lineStart) =
      Bounded limit (total + linesSize (dataLines (data.drop lineStart))) := by
  induction hleft : data.length - lineStart using Nat.strong_induction_on
    generalizing lineStart total with
  | _ left ih =>
    subst hleft
    cases hbreak : findLineBreak data lineStart with
    | none =>
      have hturn : sizeLoop data limit lineStart = fun frameSize =>
          addLine frameSize (data.length - lineStart) limit := by
        funext frameSize
        rw [sizeLoop]
        split <;> simp_all
      rw [hturn, bounded_bind_addLine limit total (by omega), dataLines_drop_of_none hbreak]
      simp [linesSize]
    | some breakAt =>
      have hbounds := findLineBreak_bounds hbreak
      have hnext := lt_nextLine hbreak
      have hturn : sizeLoop data limit lineStart = fun frameSize =>
          addLine frameSize (breakAt - lineStart) limit >>=
            sizeLoop data limit (nextLine data breakAt) := by
        funext frameSize
        rw [sizeLoop, nextLine]
        split
        · simp_all
        · rename_i found hfound
          obtain rfl : found = breakAt := by simpa [hbreak] using hfound.symm
          dsimp only
          split_ifs <;> rfl
      rw [hturn, ← bind_assoc, bounded_bind_addLine limit total (by omega),
        ih (data.length - nextLine data breakAt) (by omega) (nextLine data breakAt) _ rfl,
        dataLines_drop_of_break hbreak, linesSize, linesSize, List.map_cons, List.sum_cons,
        List.length_take, List.length_drop, Nat.min_eq_left (by omega), Nat.add_assoc]

theorem length_buildEventFrame (event data : Bytes) :
    (ErikslundHttp.buildEventFrame event data).length =
      (if event.isEmpty then 0 else kEventFieldPrefix.length + event.length + 1) +
        linesSize (dataLines data) + 1 := by
  have hlines : ∀ lines : List Bytes, (lines.flatMap fun line =>
      kDataFieldPrefix ++ line ++ [LF]).length = linesSize lines := by
    intro lines
    rw [List.length_flatMap, linesSize]
    congr 1
    refine List.map_congr_left fun line _ => ?_
    rw [List.length_append, List.length_append]
    rfl
  rw [ErikslundHttp.buildEventFrame, ErikslundHttp.appendDataLines, List.length_append,
    List.length_append, hlines]
  split_ifs
  · rfl
  · simp [ErikslundHttp.appendEventName, Nat.add_assoc]

/-- What comes after the name: the payload and the line that ends the frame. -/
theorem bounded_bind_data (data : StringView) (limit : UInt64) (total : ℕ) :
    (Bounded limit total >>= fun frameSize => sizeLoop data.bytes limit 0 frameSize >>=
      fun frameSize => addFrameBytes frameSize 1 limit) =
        Bounded limit (total + linesSize (dataLines data.bytes) + 1) := by
  calc _ = (Bounded limit total >>= sizeLoop data.bytes limit 0) >>= fun frameSize =>
          addFrameBytes frameSize 1 limit := (bind_assoc ..).symm
    _ = _ := by
        rw [sizeLoop_eq data.fits, bounded_bind_add, List.drop_zero]
        rfl

/-- The check answers the size of the frame, if it is within the limit. -/
theorem eventFrameSize_eq (event data : StringView) (limit : UInt64) :
    eventFrameSize event data limit = Bounded limit (buildEventFrame event data).length := by
  have hzero : (.ok 0 : Except SizeError UInt64) = Bounded limit 0 := (if_pos (Nat.zero_le _)).symm
  have hevent : event.size.toNat = event.bytes.length := toNat_ofNat_of_lt event.fits
  rw [buildEventFrame_eq, length_buildEventFrame, eventFrameSize]
  by_cases hempty : event.bytes.isEmpty = true
  · rw [if_pos hempty, if_pos hempty]
    dsimp only
    rw [hzero]
    exact bounded_bind_data data limit 0
  · rw [if_neg hempty, if_neg hempty]
    dsimp only
    calc _ = Bounded limit 0 >>= fun frameSize =>
          addFrameBytes frameSize (UInt64.ofNat kEventFieldPrefix.length) limit >>= fun frameSize =>
            addFrameBytes frameSize event.size limit >>= fun frameSize =>
              addFrameBytes frameSize 1 limit >>= fun frameSize =>
                sizeLoop data.bytes limit 0 frameSize >>= fun frameSize =>
                  addFrameBytes frameSize 1 limit := by
          rw [← hzero, ok_bind]
      _ = _ := by
          rw [bounded_bind_add_bind, bounded_bind_add_bind, bounded_bind_add_bind,
            bounded_bind_data, hevent, Nat.zero_add]
          rfl

theorem bounded_eq_ok_iff {limit n : UInt64} {total : ℕ} :
    Bounded limit total = .ok n ↔ total = n.toNat ∧ n ≤ limit := by
  have hlimit := limit.toNat_lt
  rw [Bounded, UInt64.le_iff_toNat_le]
  split_ifs with hle
  · rw [Except.ok.injEq, ← UInt64.toNat_inj, toNat_ofNat_of_lt (by omega)]
    omega
  · refine ⟨nofun, fun hn => ?_⟩
    omega

theorem bounded_eq_error_iff {limit : UInt64} {total : ℕ} {error : SizeError} :
    Bounded limit total = .error error ↔ error = .exceeded ∧ limit.toNat < total := by
  rw [Bounded]
  split_ifs with hle
  · refine ⟨nofun, fun herror => ?_⟩
    omega
  · rw [Except.error.injEq, eq_comm]
    exact ⟨fun herror => ⟨herror, Nat.lt_of_not_le hle⟩, And.left⟩

/-! ### What a channel publishes -/

/-- A total within a limit, for the sums of `SseChannel`. -/
def within (limit total : ℕ) : Option ℕ := if total ≤ limit then some total else none

theorem within_bind_add (limit total bytes : ℕ) :
    (within limit total >>= fun frameSize => ErikslundHttp.addFrameBytes frameSize bytes limit) =
      within limit (total + bytes) := by
  rw [within, within]
  by_cases hle : total ≤ limit
  · rw [if_pos hle]
    show ErikslundHttp.addFrameBytes total bytes limit = _
    rw [ErikslundHttp.addFrameBytes]
    by_cases hfits : total + bytes ≤ limit
    · rw [if_neg (by omega), if_pos hfits]
    · rw [if_pos (by omega), if_neg hfits]
  · rw [if_neg hle, if_neg (by omega)]
    rfl

theorem within_bind_add_bind (limit total bytes : ℕ) (next : ℕ → Option ℕ) :
    (within limit total >>= fun frameSize =>
      ErikslundHttp.addFrameBytes frameSize bytes limit >>= next) =
        within limit (total + bytes) >>= next := by
  rw [← within_bind_add, bind_assoc]

theorem within_bind_lines (limit : ℕ) (lines : List Bytes) (total : ℕ) :
    (within limit total >>= fun frameSize => lines.foldlM (fun frameSize line => do
      let frameSize ← ErikslundHttp.addFrameBytes frameSize kDataFieldPrefix.length limit
      let frameSize ← ErikslundHttp.addFrameBytes frameSize line.length limit
      ErikslundHttp.addFrameBytes frameSize 1 limit) frameSize) =
        within limit (total + linesSize lines) := by
  induction lines generalizing total with
  | nil => exact bind_pure _
  | cons line lines ih =>
    simp only [List.foldlM_cons, bind_assoc, within_bind_add_bind]
    rw [ih, linesSize, linesSize, List.map_cons, List.sum_cons]
    congr 1
    omega

/-- The check of `SseChannel`, without a bound of its own on the limit. -/
theorem eventFrameSize_within (event data : Bytes) (limit : ℕ) :
    ErikslundHttp.eventFrameSize event data limit =
      within limit (ErikslundHttp.buildEventFrame event data).length := by
  have hzero : some 0 = within limit 0 := (if_pos (Nat.zero_le _)).symm
  have hdata (total : ℕ) : (within limit total >>= fun frameSize =>
      (dataLines data).foldlM (fun frameSize line => do
        let frameSize ← ErikslundHttp.addFrameBytes frameSize kDataFieldPrefix.length limit
        let frameSize ← ErikslundHttp.addFrameBytes frameSize line.length limit
        ErikslundHttp.addFrameBytes frameSize 1 limit) frameSize >>= fun frameSize =>
          ErikslundHttp.addFrameBytes frameSize 1 limit) =
        within limit (total + linesSize (dataLines data) + 1) := by
    rw [← within_bind_add, ← within_bind_lines, bind_assoc]
  rw [length_buildEventFrame, ErikslundHttp.eventFrameSize]
  by_cases hempty : event.isEmpty = true
  · rw [if_pos hempty, if_pos hempty, hzero]
    exact hdata 0
  · rw [if_neg hempty, if_neg hempty]
    calc _ = within limit 0 >>= fun frameSize =>
          ErikslundHttp.addFrameBytes frameSize kEventFieldPrefix.length limit >>= fun frameSize =>
            ErikslundHttp.addFrameBytes frameSize event.length limit >>= fun frameSize =>
              ErikslundHttp.addFrameBytes frameSize 1 limit >>= fun frameSize =>
                (dataLines data).foldlM _ frameSize >>= fun frameSize =>
                  ErikslundHttp.addFrameBytes frameSize 1 limit := by
          rw [← hzero]
          rfl
      _ = _ := by
          rw [within_bind_add_bind, within_bind_add_bind, within_bind_add_bind, hdata, Nat.zero_add]

end EventFrame

namespace SseChannel

variable {ν : Type} {options : SseOptions} {channel channel' : SseChannel ν}

theorem step_publish_of_le (channel : SseChannel ν) {event data : Bytes}
    (h : (buildEventFrame event data).length ≤ options.maxEventBytes) :
    channel.step options (.publish event data) =
      channel.enter (.pruning [] channel.subscribers (.publish event data)) := by
  simp only [step, EventFrame.eventFrameSize_within, EventFrame.within, if_pos h]
  rfl

theorem step_publish_of_lt (channel : SseChannel ν) {event data : Bytes}
    (h : options.maxEventBytes < (buildEventFrame event data).length) :
    channel.step options (.publish event data) = some channel := by
  simp only [step, EventFrame.eventFrameSize_within, EventFrame.within, if_neg (Nat.not_le.2 h)]
  rfl

/-- The frames that were published, and the one that is about to be, are within the limit. -/
structure Fitting (options : SseOptions) (channel : SseChannel ν) : Prop where
  published : ∀ frame ∈ channel.published, frame.text.length ≤ options.maxEventBytes
  publishing : ∀ kept rest event data,
    channel.entered = some (.pruning kept rest (.publish event data)) →
      (buildEventFrame event data).length ≤ options.maxEventBytes

/-- A step that publishes nothing, in a section of the same kind or none. -/
theorem Fitting.of_entered (h : channel.Fitting options)
    (hpublished : channel'.published = channel.published)
    (hpublishing : ∀ kept rest event data,
      channel'.entered = some (.pruning kept rest (.publish event data)) →
        ∃ kept rest, channel.entered = some (.pruning kept rest (.publish event data))) :
    channel'.Fitting options := by
  refine ⟨hpublished ▸ h.published, fun kept rest event data hentered => ?_⟩
  obtain ⟨kept, rest, hentered⟩ := hpublishing kept rest event data hentered
  exact h.publishing kept rest event data hentered

theorem Fitting.proceed (h : channel.Fitting options) {entered : Section ν}
    (hentered : channel.entered = some entered) :
    (channel.proceed options entered).Fitting options := by
  cases entered with
  | pruning kept rest purpose =>
    cases rest with
    | cons number rest =>
      refine h.of_entered rfl fun kept' rest' event data heq => ?_
      cases heq
      exact ⟨kept, _, hentered⟩
    | nil =>
      cases purpose with
      | subscribe subscriber =>
        rw [SseChannel.proceed, afterPruning]
        dsimp only
        split_ifs <;> exact h.of_entered rfl (by rintro _ _ _ _ ⟨⟩)
      | publish event data =>
        -- the only step that publishes, and the frame is the one that was measured
        refine ⟨fun frame hframe => ?_, by rintro _ _ _ _ ⟨⟩⟩
        rcases List.mem_append.1 hframe with hframe | hframe
        · exact h.published frame hframe
        · rw [List.mem_singleton.1 hframe]
          exact h.publishing kept [] event data hentered
  | delivering frame rest => cases rest <;> exact h.of_entered rfl (by rintro _ _ _ _ ⟨⟩)
  | closing rest => cases rest <;> exact h.of_entered rfl (by rintro _ _ _ _ ⟨⟩)

theorem Fitting.enter (h : channel.Fitting options) {entered : Section ν}
    (hstep : channel.enter entered = some channel')
    (hpublishing : ∀ kept rest event data, entered = .pruning kept rest (.publish event data) →
      (buildEventFrame event data).length ≤ options.maxEventBytes) : channel'.Fitting options := by
  rw [SseChannel.enter] at hstep
  split at hstep
  · cases hstep
    exact ⟨h.published, fun kept rest event data heq =>
      hpublishing kept rest event data (Option.some.inj heq)⟩
  · cases hstep

theorem step_fitting (h : channel.Fitting options) {next : ChannelStep ν}
    (hstep : channel.step options next = some channel') : channel'.Fitting options := by
  cases next with
  | subscribe method now =>
    simp only [step] at hstep
    split_ifs at hstep
    · cases hstep
      exact ⟨h.published, h.publishing⟩
    · cases hstep
      exact ⟨h.published, h.publishing⟩
    · exact h.enter hstep (by rintro _ _ _ _ ⟨⟩)
  | publish event data =>
    by_cases hfits : (buildEventFrame event data).length ≤ options.maxEventBytes
    · rw [step_publish_of_le channel hfits] at hstep
      refine h.enter hstep fun kept rest event' data' heq => ?_
      cases heq
      exact hfits
    · rw [step_publish_of_lt channel (Nat.lt_of_not_le hfits)] at hstep
      cases hstep
      exact h
  | closeAll => exact h.enter hstep (by rintro _ _ _ _ ⟨⟩)
  | shutdown =>
    have hstopped : { channel with accepting := false }.Fitting options :=
      ⟨h.published, h.publishing⟩
    exact hstopped.enter hstep (by rintro _ _ _ _ ⟨⟩)
  | proceed =>
    simp only [step, Option.map_eq_some_iff] at hstep
    obtain ⟨entered, hentered, rfl⟩ := hstep
    exact h.proceed hentered
  | pull | heartbeat | attach | detach =>
    cases hstep
    exact ⟨h.published, h.publishing⟩

theorem init_fitting (options : SseOptions) : ({} : SseChannel ν).Fitting options := by
  refine ⟨?_, ?_⟩
  · exact fun frame hframe => absurd hframe List.not_mem_nil
  · intro kept rest event data hentered
    cases hentered

theorem run_fitting {steps : List (ChannelStep ν)} (h : run options steps = some channel) :
    channel.Fitting options :=
  foldlM_invariant (fun _ _ _ _ hx hstep => step_fitting hx hstep) (init_fitting options) h

/-- No subscriber has a larger frame of an event, pulled or queued. -/
theorem length_le_of_mem {steps : List (ChannelStep ν)} (h : run options steps = some channel)
    {number : ℕ} {m : Subscription ν} (hm : channel.subscriptions[number]? = some m)
    {frame : SharedFrame} (hframe : frame ∈ m.taken ++ m.subscriber.queue)
    (hpublished : frame.isPublished = true) : frame.text.length ≤ options.maxEventBytes := by
  have hsublist := ((run_inv h).follows number m hm).sublist.trans (due_sublist number channel)
  have hevent : frame ∈ Subscription.events m.frames := List.mem_filter.2 ⟨hframe, hpublished⟩
  exact (run_fitting h).published frame (hsublist.subset hevent)

/-- The frame that is being handed to the subscribers is within the limit. -/
theorem length_le_of_delivering {steps : List (ChannelStep ν)}
    (h : run options steps = some channel) {frame : SharedFrame} {rest : List ℕ}
    (hentered : channel.entered = some (.delivering frame rest)) :
    frame.text.length ≤ options.maxEventBytes := by
  obtain ⟨-, front, hfront⟩ := (run_inv h).delivering frame rest hentered
  refine (run_fitting h).published frame ?_
  rw [hfront]
  exact List.mem_append_right _ (List.mem_singleton_self frame)

end SseChannel

/-- **The size check of an event.**  For every name, payload and limit the check answers `n` exactly
when the frame has `n` bytes and these are within the limit, it answers nothing exactly when there
are more, and its subtractions never underflow.

So on a channel, after every sequence of steps of the threads: `publish` goes on with a frame
exactly when it is within `max_event_bytes`, and no frame that is handed to the subscribers, queued
or pulled as an event is larger. -/
theorem event_frame_size_agrees :
    (∀ (event data : EventFrame.StringView) (limit : UInt64),
      (∀ n, EventFrame.eventFrameSize event data limit = .ok n ↔
        (EventFrame.buildEventFrame event data).length = n.toNat ∧ n ≤ limit) ∧
      (EventFrame.eventFrameSize event data limit = .error .exceeded ↔
        limit.toNat < (EventFrame.buildEventFrame event data).length) ∧
      EventFrame.eventFrameSize event data limit ≠ .error .underflow) ∧
    ∀ (ν : Type) (options : SseOptions) (steps : List (ChannelStep ν)) (channel : SseChannel ν),
      SseChannel.run options steps = some channel →
      (∀ event data : EventFrame.StringView,
        channel.step options (.publish event.bytes data.bytes) =
          if (EventFrame.buildEventFrame event data).length ≤ options.maxEventBytes then
            channel.enter (.pruning [] channel.subscribers (.publish event.bytes data.bytes))
          else some channel) ∧
      (∀ frame rest, channel.entered = some (.delivering frame rest) →
        frame.text.length ≤ options.maxEventBytes) ∧
      ∀ (number : ℕ) m, channel.subscriptions[number]? = some m →
        ∀ frame ∈ m.taken ++ m.subscriber.queue, frame.isPublished = true →
          frame.text.length ≤ options.maxEventBytes := by
  refine ⟨fun event data limit => ?_, fun ν options steps channel hrun => ⟨?_, ?_, ?_⟩⟩
  · rw [EventFrame.eventFrameSize_eq]
    refine ⟨fun n => EventFrame.bounded_eq_ok_iff, ?_, fun herror => ?_⟩
    · rw [EventFrame.bounded_eq_error_iff]
      exact and_iff_right rfl
    · cases (EventFrame.bounded_eq_error_iff.1 herror).1
  · intro event data
    rw [EventFrame.buildEventFrame_eq]
    split_ifs with hfits
    · exact SseChannel.step_publish_of_le channel hfits
    · exact SseChannel.step_publish_of_lt channel (Nat.lt_of_not_le hfits)
  · exact fun frame rest hentered => SseChannel.length_le_of_delivering hrun hentered
  · exact fun number m hm frame hframe hpublished =>
      SseChannel.length_le_of_mem hrun hm hframe hpublished

/-- An event that just fits, delivered to one subscriber. -/
theorem event_frame_size_agrees_at_limit :
    let options : SseOptions := { maxEventBytes := 9 }
    let steps : List (ChannelStep ℕ) := [.subscribe .get 0, .proceed, .publish [] (ascii "a"),
      .proceed, .proceed, .proceed, .proceed]
    EventFrame.eventFrameSize ⟨[], by decide⟩ ⟨ascii "a", by decide⟩ 9 = .ok 9 ∧
      ∃ channel m, SseChannel.run options steps = some channel ∧
        channel.subscriptions[0]? = some m ∧ (m.taken ++ m.subscriber.queue).length = 2 ∧
        channel.step options (.publish [] (ascii "ab")) = some channel ∧
        ∀ frame ∈ m.taken ++ m.subscriber.queue, frame.isPublished = true → frame.text.length ≤ 9 := by
  intro options steps
  obtain ⟨hsize, hchannel⟩ := event_frame_size_agrees
  refine ⟨((hsize _ _ 9).1 9).2 (by decide +kernel), ?_⟩
  have hrun : ((SseChannel.run options steps).bind fun channel => channel.subscriptions[0]?.map
      fun m => (m.taken ++ m.subscriber.queue).length) = some 2 := by decide +kernel
  obtain ⟨channel, hrun, hm⟩ := Option.bind_eq_some_iff.1 hrun
  obtain ⟨m, hm, hlength⟩ := Option.map_eq_some_iff.1 hm
  obtain ⟨hpublish, -, hframes⟩ := hchannel ℕ options steps channel hrun
  refine ⟨channel, m, hrun, hm, hlength, ?_, hframes 0 m hm⟩
  rw [hpublish ⟨[], by decide⟩ ⟨ascii "ab", by decide⟩, if_neg (by decide +kernel)]

end ErikslundHttp
