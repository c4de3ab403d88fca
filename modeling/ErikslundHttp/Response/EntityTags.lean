import ErikslundHttp.Request.ListFields
import ErikslundHttp.Response.Headers

/-!
# Entity tags

The field `If-None-Match` is `*`, or a list of entity tags; whitespace may stand around them, and
members may be empty (`Condition`).  The text of a tag may hold commas and stars.

* `ifNoneMatchMatches_eq_loop`: `if_none_match_matches` cuts the field at every comma, also at those
  inside a tag.
* `ifNoneMatchMatches_tags`: a tag with a comma is then never found, and one with `,*,` in it is
  found whatever is asked for.
* `if_none_match_is_weak_comparison_iff`: in every other case the field is read as it is meant.
* `applyConditionalRequest_etagFromBody`: so it is for the tags that `etag_from_body` makes.
-/

namespace ErikslundHttp

namespace EntityTags

open Scan ListFields

/-! ### The loop -/

/-- The loop of `if_none_match_matches`. -/
def ifNoneMatchLoop (field wanted : Bytes) (cursor : ℕ) : Bool :=
  if cursor ≤ field.length then
    let candidate := trimBytes (match findFrom (byte ',') cursor field with
      | none => field.drop cursor
      | some comma => (field.drop cursor).take (comma - cursor))
    if candidate == ascii "*" || !candidate.isEmpty && withoutWeakMarker candidate == wanted then
      true
    else
      match h : findFrom (byte ',') cursor field with
      | none => false
      | some comma => ifNoneMatchLoop field wanted (comma + 1)
  else false
  termination_by field.length + 1 - cursor
  decreasing_by
    obtain ⟨length, -, rfl⟩ := Option.map_eq_some_iff.1 h
    omega

/-- What the loop asks of a member. -/
def isMatch (wanted candidate : Bytes) : Bool :=
  candidate == ascii "*" || withoutWeakMarker candidate == wanted

/-- The loop goes through the members from the cursor on. -/
theorem ifNoneMatchLoop_eq {field : Bytes} (wanted : Bytes) {cursor : ℕ}
    (h : cursor ≤ field.length) : ifNoneMatchLoop field wanted cursor =
      (listMembers (field.drop cursor) (byte ',')).any (isMatch wanted) := by
  have hcandidate (candidate : Bytes) : (candidate == ascii "*" ||
      !candidate.isEmpty && withoutWeakMarker candidate == wanted) =
        (if candidate.isEmpty then [] else [candidate]).any (isMatch wanted) := by
    cases candidate with
    | nil => rfl
    | cons b rest => simp [isMatch]
  induction hleft : field.length - cursor using Nat.strong_induction_on generalizing cursor with
  | _ left ih =>
    rw [ifNoneMatchLoop, if_pos h]
    dsimp only
    rw [hcandidate]
    cases hcomma : findFrom (byte ',') cursor field with
    | none =>
      dsimp only
      rw [listMembers_of_notMem (findFrom_eq_none_iff.1 hcomma), Bool.if_true_left,
        Bool.decide_eq_true, Bool.or_false]
    | some comma =>
      obtain ⟨index, hindex, rfl⟩ := Option.map_eq_some_iff.1 hcomma
      obtain ⟨first, rest, hdrop, hnotMem, rfl⟩ := find_eq_some_iff.1 hindex
      have hlength := congrArg List.length hdrop
      rw [List.length_drop, List.length_append, List.length_cons] at hlength
      have hrest : field.drop (first.length + cursor + 1) = rest := by
        rw [show first.length + cursor + 1 = cursor + (first.length + 1) by omega,
          ← List.drop_drop, hdrop, drop_succ_append_cons]
      simp only [hdrop, Nat.add_sub_cancel, List.take_left]
      rw [listMembers_append_cons, List.any_append, listMembers_of_notMem hnotMem,
        ih _ (by omega) (by omega) rfl, hrest, Bool.if_true_left, Bool.decide_eq_true]

/-- Empty members are passed over. -/
theorem ifNoneMatchMatches_eq (field : Bytes) {etag : Bytes} (h : etag ≠ []) :
    ifNoneMatchMatches field etag =
      (listMembers field (byte ',')).any (isMatch (withoutWeakMarker etag)) := by
  have hstar : (([] : Bytes) == ascii "*") = false := by decide
  rw [ifNoneMatchMatches, if_neg (by simpa using h), listMembers, List.any_filter, List.any_map]
  congr 1
  funext entry
  rw [Function.comp_apply, isMatch]
  cases trimBytes entry with
  | nil => simp [hstar]
  | cons b rest => simp

/-- The scan by an index. -/
theorem ifNoneMatchMatches_eq_loop (field : Bytes) {etag : Bytes} (h : etag ≠ []) :
    ifNoneMatchMatches field etag = ifNoneMatchLoop field (withoutWeakMarker etag) 0 := by
  rw [ifNoneMatchMatches_eq field h, ifNoneMatchLoop_eq _ (Nat.zero_le _), List.drop_zero]

/-! ### Tags and conditions -/

/-- The bytes that can stand in a tag. -/
def isTagCharacter (b : UInt8) : Bool := b == 0x21 || 0x23 ≤ b && b ≤ 0x7E || 0x80 ≤ b

/-- A tag of RFC 9110, which may hold commas and stars. -/
structure EntityTag where
  /-- It is written with `W/`. -/
  weak : Bool
  /-- What stands between the quotes. -/
  characters : Bytes
  valid : ∀ b ∈ characters, isTagCharacter b = true

/-- The tag without the mark of a weak one. -/
def EntityTag.quoted (tag : EntityTag) : Bytes := byte '"' :: (tag.characters ++ [byte '"'])

/-- The mark of a weak tag. -/
def EntityTag.marker (tag : EntityTag) : Bytes := if tag.weak then ascii "W/" else []

/-- The tag as it stands in a field. -/
def EntityTag.text (tag : EntityTag) : Bytes := tag.marker ++ tag.quoted

/-- A member of a list, which may be empty. -/
structure Member where
  before : Bytes
  /-- The tag, unless the member is empty. -/
  tag : Option EntityTag
  after : Bytes
  blankBefore : IsBlank before
  blankAfter : IsBlank after

/-- The member with the blanks around it. -/
def Member.text (member : Member) : Bytes :=
  member.before ++ (member.tag.map EntityTag.text).getD [] ++ member.after

/-- A value of `If-None-Match`. -/
inductive Condition where
  | any
  | tags (members : List Member)

/-- The value of the field. -/
def Condition.text : Condition → Bytes
  | any => ascii "*"
  | tags members => List.intercalate (ascii ",") (members.map Member.text)

/-- The tags of the list. -/
def Condition.listed : Condition → List EntityTag
  | any => []
  | tags members => members.filterMap Member.tag

/-- Weak comparison with what is listed. -/
def Condition.Lists (condition : Condition) (tag : EntityTag) : Prop :=
  ∃ listed ∈ condition.listed, listed.characters = tag.characters

/-- The condition is met by the tag. -/
def Condition.Names (condition : Condition) (tag : EntityTag) : Prop :=
  condition = .any ∨ condition.Lists tag

/-! ### The members that the loop sees -/

/-- A star as a member of a text. -/
def innerStar : Bytes := ascii ",*,"

theorem count_withoutWeakMarker (candidate : Bytes) :
    (withoutWeakMarker candidate).count (byte '"') = candidate.count (byte '"') := by
  rw [withoutWeakMarker]
  split_ifs with hweak
  · obtain ⟨rest, rfl⟩ := hweak
    simp [ascii, byte]
  · rfl

theorem count_quote {part : Bytes} (h : ∀ b ∈ part, isTagCharacter b = true) :
    part.count (byte '"') = 0 :=
  List.count_eq_zero.2 fun hmem => by cases h _ hmem

theorem count_quoted (tag : EntityTag) : tag.quoted.count (byte '"') = 2 := by
  rw [EntityTag.quoted, List.count_cons_self, List.count_append, count_quote tag.valid]
  rfl

/-- What has one quote at most is no tag. -/
theorem isMatch_eq_false {tag : EntityTag} {candidate : Bytes} (hstar : candidate ≠ ascii "*")
    (hcount : candidate.count (byte '"') ≤ 1) : isMatch tag.quoted candidate = false := by
  rw [isMatch, Bool.or_eq_false_iff, beq_eq_false_iff_ne, beq_eq_false_iff_ne]
  refine ⟨hstar, fun hquoted => ?_⟩
  have hcount₂ := count_withoutWeakMarker candidate
  rw [hquoted, count_quoted] at hcount₂
  omega

theorem withoutWeakMarker_text (tag : EntityTag) : withoutWeakMarker tag.text = tag.quoted := by
  rw [EntityTag.text, EntityTag.marker]
  cases tag.weak with
  | true => rfl
  | false => rfl

theorem trimBytes_of_plain {text : Bytes} (h : ∀ b ∈ text, isOptionalWhitespace b = false) :
    trimBytes text = text := by
  have hdrop : text.dropWhile isOptionalWhitespace = text :=
    List.dropWhile_eq_self_iff.2 fun hl => by simp [h]
  have hrdrop : text.rdropWhile isOptionalWhitespace = text :=
    List.rdropWhile_eq_self_iff.2 fun hl => by simp [h]
  rw [trimBytes, trim, hdrop, hrdrop]

theorem isOptionalWhitespace_of_isTagCharacter {b : UInt8} (h : isTagCharacter b = true) :
    isOptionalWhitespace b = false := by
  rw [Bool.eq_false_iff]
  intro hspace
  simp only [isOptionalWhitespace, Bool.or_eq_true, beq_iff_eq] at hspace
  rcases hspace with rfl | rfl <;> cases h

/-- A part of a tag without a comma is one member. -/
theorem listMembers_part {part : Bytes} (hne : part ≠ [])
    (hpart : ∀ b ∈ part, b = byte '"' ∨ isTagCharacter b = true) (hcomma : byte ',' ∉ part) :
    listMembers part (byte ',') = [part] := by
  have htrim : trimBytes part = part := trimBytes_of_plain fun b hb => by
    rcases hpart b hb with rfl | hb
    · rfl
    · exact isOptionalWhitespace_of_isTagCharacter hb
  rw [listMembers_of_notMem hcomma, htrim, if_neg (by simpa using hne)]

theorem star_iff {first rest : Bytes} (hcomma : byte ',' ∉ first) :
    ascii "*," <+: first ++ byte ',' :: rest ↔ first = ascii "*" := by
  constructor
  · rintro ⟨after, hafter⟩
    have hstar : byte ',' ∉ ascii "*" := by decide
    exact (append_cons_inj hstar hcomma hafter).1.symm
  · rintro rfl
    exact ⟨rest, rfl⟩

theorem marker_mem (tag : EntityTag) :
    ∀ b ∈ tag.marker, isTagCharacter b = true ∧ b ≠ byte ',' := by
  have hmarker : (tag.marker.all fun b => isTagCharacter b ∧ b ≠ byte ',') = true := by
    rw [EntityTag.marker]
    cases tag.weak <;> decide
  simpa using hmarker

theorem mem_text (tag : EntityTag) : ∀ b ∈ tag.text, b = byte '"' ∨ isTagCharacter b = true := by
  intro b hb
  simp only [EntityTag.text, EntityTag.quoted, List.mem_append, List.mem_cons,
    List.not_mem_nil, or_false] at hb
  rcases hb with hb | rfl | hb | rfl
  · exact .inr (marker_mem tag b hb).1
  · exact .inl rfl
  · exact .inr (tag.valid b hb)
  · exact .inl rfl

theorem comma_mem_text {tag : EntityTag} : byte ',' ∈ tag.text ↔ byte ',' ∈ tag.characters := by
  have hmarker : byte ',' ∉ tag.marker := fun h => (marker_mem tag _ h).2 rfl
  simp [EntityTag.text, EntityTag.quoted, hmarker, show byte ',' ≠ byte '"' by decide]

theorem count_text (tag : EntityTag) : tag.text.count (byte '"') = 2 := by
  rw [EntityTag.text, List.count_append, count_quoted,
    count_quote fun b hb => (marker_mem tag b hb).1]

/-- Between two commas of a tag, only a star is matched. -/
theorem any_isMatch_inner (tag : EntityTag) {part : Bytes}
    (hpart : ∀ b ∈ part, isTagCharacter b = true) (hcomma : byte ',' ∉ part) :
    (listMembers part (byte ',')).any (isMatch tag.quoted) = true ↔ part = ascii "*" := by
  by_cases hne : part = []
  · rw [hne, listMembers_nil]
    exact iff_of_false Bool.false_ne_true (by decide)
  rw [listMembers_part hne (fun b hb => .inr (hpart b hb)) hcomma, List.any_cons, List.any_nil,
    Bool.or_false]
  constructor
  · intro hmatch
    by_contra hstar
    rw [isMatch_eq_false hstar (by rw [count_quote hpart]; decide)] at hmatch
    cases hmatch
  · rintro rfl
    rfl

/-- After the first comma of a tag, only a star is matched. -/
theorem any_isMatch_rest (tag : EntityTag) {rest : Bytes}
    (hrest : ∀ b ∈ rest, isTagCharacter b = true) :
    (listMembers (rest ++ [byte '"']) (byte ',')).any (isMatch tag.quoted) = true ↔
      innerStar <:+: byte ',' :: rest := by
  induction hlength : rest.length using Nat.strong_induction_on generalizing rest with
  | _ length ih =>
    cases hfind : find (byte ',') rest with
    | none =>
      have hcomma := find_eq_none_iff.1 hfind
      have hpart : ∀ b ∈ rest ++ [byte '"'], b = byte '"' ∨ isTagCharacter b = true := by
        intro b hb
        rcases List.mem_append.1 hb with hb | hb
        · exact .inr (hrest b hb)
        · exact .inl (List.mem_singleton.1 hb)
      have hstar : rest ++ [byte '"'] ≠ ascii "*" := fun h => by
        have hlast := congrArg List.getLast? h
        rw [List.getLast?_concat] at hlast
        cases hlast
      have hmatch : isMatch tag.quoted (rest ++ [byte '"']) = false := isMatch_eq_false hstar (by
        rw [List.count_append, count_quote hrest]
        decide)
      rw [listMembers_part (by simp) hpart (by simpa using ⟨hcomma, by decide⟩),
        List.any_cons, hmatch, List.any_nil]
      refine iff_of_false Bool.false_ne_true fun hinner => ?_
      have hcount := hinner.sublist.count_le (byte ',')
      rw [List.count_cons_self, List.count_eq_zero_of_not_mem hcomma] at hcount
      exact absurd hcount (by decide)
    | some index =>
      obtain ⟨first, rest', rfl, hcomma, -⟩ := find_eq_some_iff.1 hfind
      obtain ⟨hfirst, hrest⟩ := List.forall_mem_append.1 hrest
      obtain ⟨-, hrest⟩ := List.forall_mem_cons.1 hrest
      have hih : (listMembers (rest' ++ [byte '"']) (byte ',')).any (isMatch tag.quoted) = true ↔
          innerStar <:+: byte ',' :: rest' :=
        ih rest'.length (by rw [← hlength, List.length_append, List.length_cons]; omega) hrest rfl
      have hprefix : innerStar <+: byte ',' :: (first ++ byte ',' :: rest') ↔
          first = ascii "*" :=
        (List.cons_prefix_cons.trans (and_iff_right rfl)).trans (star_iff hcomma)
      rw [List.append_assoc, List.cons_append, listMembers_append_cons, List.any_append,
        Bool.or_eq_true, hih, any_isMatch_inner tag hfirst hcomma]
      exact (or_congr hprefix (infix_append_of_notMem hcomma)).symm.trans List.infix_cons_iff.symm

/-- A member matches if its tag is the one that is asked for, or has a star as a member. -/
theorem any_isMatch_text (tag wanted : EntityTag) :
    (listMembers tag.text (byte ',')).any (isMatch wanted.quoted) = true ↔
      innerStar <:+: tag.characters ∨
        byte ',' ∉ tag.characters ∧ tag.characters = wanted.characters := by
  cases hfind : find (byte ',') tag.characters with
  | none =>
    have hcomma := find_eq_none_iff.1 hfind
    have hinner : ¬ innerStar <:+: tag.characters := fun h => hcomma (h.subset (by decide))
    have hstar : tag.text ≠ ascii "*" := fun h => by
      have hquote := congrArg (List.count (byte '"')) h
      rw [count_text] at hquote
      cases hquote
    have hcharacters : tag.quoted = wanted.quoted ↔ tag.characters = wanted.characters := by
      simp [EntityTag.quoted]
    rw [listMembers_part (by simp [EntityTag.text, EntityTag.quoted]) (mem_text tag)
      (mt comma_mem_text.1 hcomma), List.any_cons, List.any_nil, Bool.or_false, isMatch,
      withoutWeakMarker_text, beq_eq_false_iff_ne.2 hstar, Bool.false_or, beq_iff_eq, hcharacters]
    exact ⟨fun h => .inr ⟨hcomma, h⟩, fun h => (h.resolve_left hinner).2⟩
  | some index =>
    obtain ⟨first, rest, hcharacters, hcomma, -⟩ := find_eq_some_iff.1 hfind
    have hvalid := tag.valid
    rw [hcharacters, List.forall_mem_append, List.forall_mem_cons] at hvalid
    -- the part of the tag before its first comma has one quote, as the part after the last has
    have hbefore : ∀ b ∈ tag.marker ++ byte '"' :: first,
        (b = byte '"' ∨ isTagCharacter b = true) ∧ b ≠ byte ',' := by
      refine List.forall_mem_append.2 ⟨fun b hb => ?_, List.forall_mem_cons.2 ⟨?_, fun b hb => ?_⟩⟩
      · exact ⟨.inr (marker_mem tag b hb).1, (marker_mem tag b hb).2⟩
      · decide
      · exact ⟨.inr (hvalid.1 b hb), fun h => hcomma (h ▸ hb)⟩
    have hcount : (tag.marker ++ byte '"' :: first).count (byte '"') = 1 := by
      rw [List.count_append, List.count_cons_self, count_quote hvalid.1,
        count_quote fun b hb => (marker_mem tag b hb).1]
    have hstar : tag.marker ++ byte '"' :: first ≠ ascii "*" := fun h => by
      rw [h] at hcount
      cases hcount
    have htext : tag.text =
        (tag.marker ++ byte '"' :: first) ++ byte ',' :: (rest ++ [byte '"']) := by
      simp [EntityTag.text, EntityTag.quoted, hcharacters]
    rw [htext, listMembers_append_cons, List.any_append,
      listMembers_part (by simp) (fun b hb => (hbefore b hb).1) (fun h => (hbefore _ h).2 rfl),
      List.any_cons, isMatch_eq_false hstar hcount.le, List.any_nil, Bool.false_or, Bool.false_or,
      any_isMatch_rest wanted hvalid.2.2, hcharacters]
    refine (infix_append_of_notMem hcomma).symm.trans (or_iff_left fun h => h.1 ?_).symm
    exact List.mem_append_right _ List.mem_cons_self

/-! ### The whole field -/

/-- A star as a member of a tag that is listed. -/
def Condition.HoldsStar (condition : Condition) : Prop :=
  ∃ listed ∈ condition.listed, innerStar <:+: listed.characters

theorem listMembers_member (member : Member) :
    listMembers member.text (byte ',') =
      (member.tag.map fun tag => listMembers tag.text (byte ',')).getD [] := by
  rw [Member.text, listMembers_append_blank (by decide) member.blankAfter,
    listMembers_blank_append (by decide) member.blankBefore]
  cases member.tag with
  | none => exact listMembers_nil _
  | some tag => rfl

/-- What the code answers for a list. -/
theorem ifNoneMatchMatches_tags (members : List Member) (wanted : EntityTag) :
    ifNoneMatchMatches (Condition.tags members).text wanted.text = true ↔
      (Condition.tags members).HoldsStar ∨
        byte ',' ∉ wanted.characters ∧ (Condition.tags members).Lists wanted := by
  have hne : wanted.text ≠ [] := by simp [EntityTag.text, EntityTag.quoted]
  have hmember (member : Member) :
      (listMembers member.text (byte ',')).any (isMatch wanted.quoted) = true ↔
        ∃ tag, member.tag = some tag ∧ (innerStar <:+: tag.characters ∨
          byte ',' ∉ tag.characters ∧ tag.characters = wanted.characters) := by
    rw [listMembers_member]
    cases member.tag with
    | none => simp
    | some tag => simpa using any_isMatch_text tag wanted
  rw [ifNoneMatchMatches_eq _ hne, withoutWeakMarker_text, Condition.text,
    show ascii "," = [byte ','] from rfl, listMembers_intercalate, List.any_flatMap, List.any_map,
    List.any_eq_true]
  constructor
  · rintro ⟨member, hmem, hmatch⟩
    obtain ⟨tag, htag, hinner | ⟨hcomma, hcharacters⟩⟩ := (hmember member).1 hmatch
    · exact .inl ⟨tag, List.mem_filterMap.2 ⟨member, hmem, htag⟩, hinner⟩
    · exact .inr ⟨hcharacters ▸ hcomma, tag, List.mem_filterMap.2 ⟨member, hmem, htag⟩,
        hcharacters⟩
  · rintro (⟨tag, hlisted, hinner⟩ | ⟨hcomma, tag, hlisted, hcharacters⟩)
    · obtain ⟨member, hmem, htag⟩ := List.mem_filterMap.1 hlisted
      exact ⟨member, hmem, (hmember member).2 ⟨tag, htag, .inl hinner⟩⟩
    · obtain ⟨member, hmem, htag⟩ := List.mem_filterMap.1 hlisted
      exact ⟨member, hmem, (hmember member).2 ⟨tag, htag, .inr ⟨hcharacters ▸ hcomma,
        hcharacters⟩⟩⟩

theorem ifNoneMatchMatches_any (wanted : EntityTag) :
    ifNoneMatchMatches Condition.any.text wanted.text = true := by
  have hne : wanted.text ≠ [] := by simp [EntityTag.text, EntityTag.quoted]
  rw [ifNoneMatchMatches_eq _ hne, Condition.text]
  rfl

/-! ### The tag of a body -/

/-- The sixteen digits of a hash. -/
def hashDigits (hash : UInt64) : Bytes :=
  (List.range 16).map fun index =>
    hexDigits.getD ((hash >>> UInt64.ofNat ((15 - index) * 4)) &&& 0xF).toNat 0

theorem mem_hashDigits {hash : UInt64} {b : UInt8} (h : b ∈ hashDigits hash) :
    isTagCharacter b = true ∧ b ≠ byte ',' := by
  have hdigit : ∀ digit < 16, isTagCharacter (hexDigits.getD digit 0) = true ∧
      hexDigits.getD digit 0 ≠ byte ',' := by decide
  obtain ⟨index, -, rfl⟩ := List.mem_map.1 h
  refine hdigit _ ?_
  rw [UInt64.toNat_and]
  exact Nat.lt_of_le_of_lt Nat.and_le_right (by decide)

/-- What `etag_from_body` says about a body. -/
def bodyTag (body : Bytes) : EntityTag where
  weak := true
  characters := hashDigits (fnv1a64 body)
  valid _ hb := (mem_hashDigits hb).1

theorem weakEtag_eq (body : Bytes) : weakEtag body = (bodyTag body).text := rfl

theorem isValidFieldValue_weakEtag (body : Bytes) : isValidFieldValue (weakEtag body) = true := by
  have hvalid : ∀ b, b = byte '"' ∨ isTagCharacter b = true → isValidFieldValueByte b = true := by
    rintro b (rfl | hb)
    · decide
    · simp only [isTagCharacter, Bool.or_eq_true, Bool.and_eq_true, beq_iff_eq, decide_eq_true_eq,
        UInt8.le_iff_toNat_le, ← UInt8.toNat_inj] at hb
      simp only [isValidFieldValueByte, Bool.or_eq_true, Bool.and_eq_true, beq_iff_eq, bne_iff_ne,
        decide_eq_true_eq, UInt8.le_iff_toNat_le, ne_eq, ← UInt8.toNat_inj]
      simp only [UInt8.toNat_ofNat] at hb ⊢
      omega
  exact List.all_eq_true.2 fun b hb => hvalid b (mem_text (bodyTag body) b hb)

/-- The tag of a body is found where it is listed, and not elsewhere. -/
theorem ifNoneMatchMatches_weakEtag {condition : Condition} (hstar : ¬ condition.HoldsStar)
    (body : Bytes) :
    ifNoneMatchMatches condition.text (weakEtag body) = true ↔ condition.Names (bodyTag body) := by
  have hcomma : byte ',' ∉ (bodyTag body).characters := fun h => (mem_hashDigits h).2 rfl
  rw [weakEtag_eq]
  cases condition with
  | any => exact iff_of_true (ifNoneMatchMatches_any _) (.inl rfl)
  | tags members =>
    have hnames : (Condition.tags members).Names (bodyTag body) ↔
        (Condition.tags members).Lists (bodyTag body) := or_iff_right nofun
    rw [ifNoneMatchMatches_tags, hnames]
    exact (or_iff_right hstar).trans (and_iff_right hcomma)

/-- A retrieval of a response that is tagged from its body is answered with a `304` exactly if it
names the tag. -/
theorem applyConditionalRequest_etagFromBody {request : Request Bytes} {response : Response}
    {condition : Condition} (hretrieval : request.method = .get ∨ request.method = .head)
    (hstatus : response.status = .ok) (hstream : response.isStream = false)
    (hcondition : request.header (ascii "If-None-Match") = some condition.text)
    (hstar : ¬ condition.HoldsStar) [Decidable (condition.Names (bodyTag response.body))] :
    applyConditionalRequest request response.etagFromBody =
      if condition.Names (bodyTag response.body) then notModifiedFrom response.etagFromBody
      else response.etagFromBody := by
  have htagged : response.etagFromBody =
      response.header (ascii "ETag") (weakEtag response.body) := by
    rw [Response.etagFromBody, hstream]
    rfl
  have hfound : response.etagFromBody.findHeader (ascii "ETag") =
      some (weakEtag response.body) := by
    rw [htagged, Response.findHeader_header (by decide) (isValidFieldValue_weakEtag _),
      if_pos (equalsIgnoreCase_refl _)]
  have hmethod : (request.method == .get || request.method == .head) = true := by
    rcases hretrieval with h | h <;> rw [h] <;> rfl
  have hsame : response.etagFromBody.status = .ok ∧ response.etagFromBody.isStream = false := by
    rw [htagged]
    exact ⟨hstatus, hstream⟩
  have hne : (weakEtag response.body).isEmpty = false := rfl
  unfold applyConditionalRequest
  simp only [hmethod, hsame.1, hsame.2, hfound, hcondition, hne,
    ← ifNoneMatchMatches_weakEtag hstar]
  rfl

/-- **Commas in tags.**  The condition is read by weak comparison if and only if a listed tag with
`,*,` in it comes with the tag that is asked for, and that tag, if it is listed and has a comma,
with one that has `,*,` in it. -/
theorem if_none_match_is_weak_comparison_iff (condition : Condition) (tag : EntityTag) :
    (ifNoneMatchMatches condition.text tag.text = true ↔ condition.Names tag) ↔
      (condition.HoldsStar → condition.Lists tag) ∧
        (condition.Lists tag → byte ',' ∈ tag.characters → condition.HoldsStar) := by
  cases condition with
  | any =>
    have hlisted : ∀ listed, listed ∉ Condition.any.listed := fun _ => List.not_mem_nil
    refine iff_of_true (iff_of_true (ifNoneMatchMatches_any tag) (.inl rfl)) ⟨?_, ?_⟩
    · exact fun ⟨listed, hmem, _⟩ => absurd hmem (hlisted listed)
    · exact fun ⟨listed, hmem, _⟩ => absurd hmem (hlisted listed)
  | tags members =>
    have hnames : (Condition.tags members).Names tag ↔ (Condition.tags members).Lists tag :=
      or_iff_right nofun
    rw [ifNoneMatchMatches_tags, hnames]
    tauto

/-- A tag with a comma is not found in a list of itself, and one with `,*,` matches any other. -/
theorem tags_are_cut_at_commas :
    let comma : EntityTag := ⟨false, ascii "a,b", List.all_eq_true.1 rfl⟩
    let star : EntityTag := ⟨false, ascii "x,*,y", List.all_eq_true.1 rfl⟩
    let list (tag : EntityTag) := Condition.tags [⟨[], some tag, [], isBlank_nil, isBlank_nil⟩]
    ((list comma).text = ascii "\"a,b\"" ∧ (list comma).Names comma ∧
      ifNoneMatchMatches (list comma).text comma.text = false) ∧
    (list star).text = ascii "\"x,*,y\"" ∧ ¬ (list star).Names comma ∧
      ifNoneMatchMatches (list star).text comma.text = true := by
  refine ⟨⟨rfl, .inr ⟨_, List.mem_singleton_self _, rfl⟩, by decide⟩, rfl, ?_, by decide⟩
  rintro (h | ⟨listed, hlisted, hcharacters⟩)
  · cases h
  · obtain rfl := List.mem_singleton.1 hlisted
    exact absurd hcharacters (by decide)

end EntityTags

end ErikslundHttp
