import ErikslundHttp.Request.HeadSpec
import ErikslundHttp.Router.Pattern

/-!
# Patterns and the paths that are parsed

`Router::route` refuses a pattern for paths that the request parser rejects.  The two checks are
written apart: `is_valid_route_pattern` looks at the segments of a pattern, `split_target` and
`path_is_canonical` at the bytes of a path.

A literal segment is checked for dots, braces and stars, but not for the bytes that a path cannot
have.

* `path_of_parseRequest` says which bytes a path can have.
* `exists_request`: every path of such bytes and good segments is parsed.
* `route_pattern_is_reachable_iff`: a pattern is reached exactly if its literal segments have only
  such bytes.
-/

namespace ErikslundHttp

open Scan Grammar

/-! ### Reachable patterns -/

/-- A pattern that `Router::route` registers. -/
structure RoutePattern where
  bytes : Bytes
  valid : isValidRoutePattern bytes = true
  /-- `std::string::max_size`. -/
  fits : bytes.length < 2 ^ 63

/-- How the router looks for a route: by its text, or segment by segment. -/
def Matches (pattern path : Bytes) : Prop :=
  let compiled := compilePieces (patternPieces pattern)
  if compiled.isDynamic then
    (matchPath compiled.segments compiled.hasWildcard path).isSome = true
  else path = pattern

/-- Some request for the pattern is accepted. -/
def IsReachable (pton : InetPton) (now : TimePoint) (pattern : Bytes) : Prop :=
  ∃ limits v r, parseRequest pton now v limits = .ok r ∧ Matches pattern r.request.path.bytes

/-- A byte that a path can have. -/
def isPathByte (b : UInt8) : Bool :=
  isValidTargetByte b && b != byte '?' && b != byte '\\' && b != byte '%'

/-- The segments of a pattern that are compared as they are. -/
def literals (pattern : Bytes) : List Bytes :=
  (patternPieces pattern).filter fun piece => piece != ascii "*" && (captureName? piece).isNone

/-! ### The paths that are parsed -/

theorem byte_of_path {path : Bytes} (hpath : CanonicalPath path) {b : UInt8} (hb : b ∈ path) :
    b = byte '/' ∨ ∃ s ∈ (path.drop 1).splitOn (byte '/'), b ∈ s := by
  obtain ⟨rest, rfl⟩ := List.head?_eq_some_iff.1 hpath.head
  rw [← flatMap_splitOn (byte '/') rest, List.mem_flatMap] at hb
  obtain ⟨s, hs, hb⟩ := hb
  rcases List.mem_cons.1 hb with rfl | hb
  · exact .inl rfl
  · exact .inr ⟨s, hs, hb⟩

/-- The bytes of a path are target bytes, and none of them begins a query. -/
theorem targetForm_bytes {target path query authority : Bytes}
    (h : TargetForm target path query authority)
    (hvalid : ∀ b ∈ target, isValidTargetByte b = true) :
    ∀ b ∈ path, isValidTargetByte b = true ∧ b ≠ byte '?' := by
  have hsplit {s path query : Bytes} (h : PathAndQuery s path query) :
      ∀ b ∈ path, b ∈ s ∧ b ≠ byte '?' := by
    obtain ⟨hquery, ⟨rfl, -⟩ | rfl⟩ := h
    · exact fun b hb => ⟨hb, fun h => hquery (h ▸ hb)⟩
    · exact fun b hb => ⟨List.mem_append_left _ hb, fun h => hquery (h ▸ hb)⟩
  cases h with
  | origin hpq => exact fun b hb => ⟨hvalid b (hsplit hpq b hb).1, (hsplit hpq b hb).2⟩
  | @absolute scheme authority rest path query _ _ _ hpq =>
    by_cases hempty : path = []
    · rw [if_pos hempty]
      decide +kernel
    · rw [if_neg hempty]
      intro b hb
      obtain ⟨hmem, hquery⟩ := hsplit hpq b hb
      exact ⟨hvalid b (by simp [hmem]), hquery⟩

/-- The path of an accepted request. -/
theorem path_of_parseRequest {pton : InetPton} {now : TimePoint} {v : View}
    {limits : RequestLimits} {r : ParsedRequest View}
    (h : parseRequest pton now v limits = .ok r) :
    CanonicalPath r.request.path.bytes ∧ ∀ b ∈ r.request.path.bytes, isPathByte b = true := by
  obtain ⟨head, body, rest, hwf, -, -, hr⟩ := exists_head_of_parseRequest h
  have hpath : r.request.path.bytes = head.path := congrArg (fun r => r.request.path) hr
  rw [hpath]
  refine ⟨hwf.path, fun b hb => ?_⟩
  obtain ⟨hvalid, hquery⟩ := targetForm_bytes hwf.target_form hwf.target_valid b hb
  have hbackslash : b ≠ byte '\\' := fun h => hwf.path.no_backslash (h ▸ hb)
  have hescape : b ≠ byte '%' := by
    rintro rfl
    rcases byte_of_path hwf.path hb with h | ⟨s, hs, hb⟩
    · cases h
    · exact (hwf.path.segment s hs).2.2 hb
  simp [isPathByte, hvalid, hquery, hbackslash, hescape]

/-- The limits that bound nothing. -/
def widestLimits : RequestLimits :=
  ⟨UInt64.ofNat (2 ^ 64 - 1), UInt64.ofNat (2 ^ 64 - 1), UInt64.ofNat (2 ^ 64 - 1),
    UInt64.ofNat (2 ^ 64 - 1), UInt64.ofNat (2 ^ 64 - 1)⟩

/-- A request for a path, without fields. -/
def requestFor (path : Bytes) : Head where
  prologue := false
  method := .get
  target := path
  isVersion11 := false
  fields := []
  path := path
  query := []
  targetAuthority := []
  authority := []
  parameters := []
  contentLength := 0

theorem wellFormed_requestFor (pton : InetPton) {path : Bytes} (hpath : CanonicalPath path)
    (hbytes : ∀ b ∈ path, isPathByte b = true) (hlength : path.length < 2 ^ 63) :
    (requestFor path).WellFormed pton widestLimits := by
  have hpathBytes : ∀ b ∈ path, isValidTargetByte b = true ∧ b ≠ byte '?' := fun b hb => by
    have hb := hbytes b hb
    simp only [isPathByte, Bool.and_eq_true, bne_iff_ne] at hb
    exact hb.1.1
  have hline : (requestFor path).requestLine.length = path.length + 13 := by
    rw [Head.requestLine, List.length_append, List.length_cons, List.length_append,
      List.length_cons]
    show 3 + (path.length + (8 + 1) + 1) = _
    omega
  have hblock : (requestFor path).block.length = path.length + 17 := by
    rw [Head.block, List.length_append, List.length_append, List.length_append, hline]
    rfl
  exact
    { method_known := show Method.get ∈ Method.all by decide
      fields_wf := List.forall_mem_nil _
      fields_count := Nat.zero_le _
      line_le := hline.le.trans (by simp [widestLimits]; omega)
      target_le := (le_of_lt hlength).trans (by decide)
      block_le := hblock.le.trans (by simp [widestLimits]; omega)
      length := ⟨List.forall_mem_nil _, List.forall_mem_nil _, fun _ => rfl⟩
      length_le := Nat.zero_le _
      target_valid := fun b hb => (hpathBytes b hb).1
      target_form := .origin ⟨fun hquery => (hpathBytes _ hquery).2 rfl, .inl ⟨rfl, rfl⟩⟩ hpath.head
      authority := ⟨Nat.zero_le _, by rintro ⟨⟩, List.forall_mem_nil _, fun _ => rfl,
        fun h => absurd rfl h⟩
      path := hpath
      query := ⟨Nat.zero_le _, .nil⟩ }

/-- Every path of such bytes is parsed. -/
theorem exists_request (pton : InetPton) (now : TimePoint) {path : Bytes}
    (hpath : CanonicalPath path) (hbytes : ∀ b ∈ path, isPathByte b = true)
    (hlength : path.length < 2 ^ 63) :
    ∃ limits v r, parseRequest pton now v limits = .ok r ∧ r.request.path.bytes = path := by
  have hwf := wellFormed_requestFor pton hpath hbytes hlength
  have hbody : ([] : Bytes).length = (requestFor path).contentLength := rfl
  have hbuffer : (⟨.buffer 0, (requestFor path).render⟩ : View).bytes =
      (requestFor path).render ++ [] ++ [] := by simp
  obtain ⟨r, hr, heq⟩ := map_eq_ok.1 (parseRequest_of_head now hwf hbody hbuffer)
  exact ⟨widestLimits, _, r, hr, congrArg (fun r => r.request.path) heq⟩

/-! ### The path of a pattern -/

/-- A segment that a segment of a pattern takes. -/
def instantiate (piece : Bytes) : Bytes :=
  if piece = ascii "*" ∨ (captureName? piece).isSome then ascii "x" else piece

theorem instantiate_star : instantiate (ascii "*") = ascii "x" := if_pos (.inl rfl)

theorem instantiate_capture {piece name : Bytes} (h : captureName? piece = some name) :
    instantiate piece = ascii "x" := if_pos (.inr (by rw [h]; rfl))

theorem instantiate_literal {piece : Bytes} (hstar : piece ≠ ascii "*")
    (hname : captureName? piece = none) : instantiate piece = piece :=
  if_neg (not_or.2 ⟨hstar, by simp [hname]⟩)

/-- The pieces of a valid pattern, one by one. -/
theorem piecesAreValid_cons {count : ℕ} {piece : Bytes} {rest : List Bytes}
    (h : piecesAreValid count (piece :: rest) = true) :
    classifySegment piece rest.isEmpty ≠ .invalid ∧ ∃ count', piecesAreValid count' rest = true := by
  unfold piecesAreValid at h
  cases hkind : classifySegment piece rest.isEmpty with
  | invalid =>
    rw [hkind] at h
    cases h
  | parameter =>
    rw [hkind] at h
    dsimp only at h
    split_ifs at h
    exact ⟨by rintro ⟨⟩, _, h⟩
  | wildcard =>
    rw [hkind] at h
    exact ⟨by rintro ⟨⟩, _, h⟩
  | literal =>
    rw [hkind] at h
    exact ⟨by rintro ⟨⟩, _, h⟩

theorem isReachableSegment_of_classifySegment {piece : Bytes} {isFinal : Bool}
    (h : classifySegment piece isFinal ≠ .invalid) : isReachableSegment piece isFinal = true := by
  by_contra hreach
  exact h (if_pos (by simpa using hreach))

/-- The three kinds of pieces that a pattern can have. -/
theorem instantiate_cases {piece : Bytes} {isFinal : Bool}
    (h : classifySegment piece isFinal ≠ .invalid) :
    (piece = ascii "*" ∧ isFinal = true ∧ instantiate piece = ascii "x") ∨
    (piece ≠ ascii "*" ∧ (captureName? piece).isSome ∧ instantiate piece = ascii "x") ∨
    piece ≠ ascii "*" ∧ captureName? piece = none ∧ instantiate piece = piece := by
  cases hkind : classifySegment piece isFinal with
  | invalid => exact absurd hkind h
  | wildcard =>
    obtain ⟨rfl, hfinal⟩ := classifySegment_eq_wildcard hkind
    exact .inl ⟨rfl, hfinal, instantiate_star⟩
  | parameter =>
    obtain ⟨hstar, hname⟩ := classifySegment_eq_parameter hkind
    exact .inr (.inl ⟨hstar, by simp [hname], instantiate_capture hname⟩)
  | literal =>
    obtain ⟨hstar, hname⟩ := classifySegment_eq_literal hkind
    exact .inr (.inr ⟨hstar, hname, instantiate_literal hstar hname⟩)

theorem matchPieces_instantiate {count : ℕ} {pieces : List Bytes}
    (h : piecesAreValid count pieces = true) :
    (matchPieces pieces (pieces.map instantiate)).isSome = true := by
  induction pieces generalizing count with
  | nil => rfl
  | cons piece pieces ih =>
    obtain ⟨hkind, count', hrest⟩ := piecesAreValid_cons h
    rw [List.map_cons, matchPieces]
    rcases instantiate_cases hkind with ⟨hstar, hfinal, -⟩ | ⟨hstar, hname, hx⟩ |
      ⟨hstar, hname, hpiece⟩
    · rw [if_pos ⟨List.isEmpty_iff.1 hfinal, hstar⟩]
      rfl
    · obtain ⟨name, hname⟩ := Option.isSome_iff_exists.1 hname
      rw [if_neg fun h => hstar h.2, hname, hx]
      dsimp only
      rw [if_neg (by decide), Option.isSome_map]
      exact ih hrest
    · rw [if_neg fun h => hstar h.2, hname, hpiece]
      dsimp only
      rw [if_pos rfl]
      exact ih hrest

theorem instantiate_reachable {piece : Bytes} {isFinal : Bool}
    (h : classifySegment piece isFinal ≠ .invalid) : (isFinal = false → instantiate piece ≠ []) ∧
      instantiate piece ≠ ascii "." ∧ instantiate piece ≠ ascii ".." := by
  have hx (h : instantiate piece = ascii "x") : (isFinal = false → instantiate piece ≠ []) ∧
      instantiate piece ≠ ascii "." ∧ instantiate piece ≠ ascii ".." := by
    rw [h]
    exact ⟨fun _ => by decide, by decide, by decide⟩
  rcases instantiate_cases h with ⟨-, -, hpiece⟩ | ⟨-, -, hpiece⟩ | ⟨-, -, hpiece⟩
  · exact hx hpiece
  · exact hx hpiece
  · have hreach := isReachableSegment_of_classifySegment h
    rw [hpiece]
    unfold isReachableSegment at hreach
    split_ifs at hreach with hempty
    · rw [List.isEmpty_iff.1 hempty]
      exact ⟨fun hfinal => absurd (hfinal.symm.trans hreach) (by decide), by decide, by decide⟩
    · simp only [Bool.and_eq_true, bne_iff_ne] at hreach
      exact ⟨fun _ => by simpa using hempty, hreach⟩

/-- The segments are such as a canonical path has, but for escapes. -/
theorem instantiate_segments {count : ℕ} {pieces : List Bytes}
    (h : piecesAreValid count pieces = true) :
    (∀ s ∈ (pieces.map instantiate).dropLast, s ≠ []) ∧
      ∀ s ∈ pieces.map instantiate, s ≠ ascii "." ∧ s ≠ ascii ".." := by
  induction pieces generalizing count with
  | nil => exact ⟨nofun, nofun⟩
  | cons piece pieces ih =>
    obtain ⟨hkind, count', hrest⟩ := piecesAreValid_cons h
    obtain ⟨hinner, hdots⟩ := ih hrest
    have hpiece := instantiate_reachable hkind
    rw [List.map_cons]
    refine ⟨?_, List.forall_mem_cons.2 ⟨hpiece.2, hdots⟩⟩
    by_cases hlast : pieces = []
    · rw [hlast]
      exact nofun
    · rw [List.dropLast_cons_of_ne_nil (by simpa using hlast)]
      exact List.forall_mem_cons.2 ⟨hpiece.1 (by simpa using hlast), hinner⟩

theorem length_instantiate_le (piece : Bytes) : (instantiate piece).length ≤ piece.length := by
  unfold instantiate
  split_ifs with h
  · rcases h with rfl | hname
    · exact le_refl _
    · -- a capture begins with a brace
      have hne : piece ≠ [] := by
        rintro rfl
        cases hname
      exact List.length_pos_iff.2 hne
  · exact le_refl _

theorem length_joined_instantiate_le (pieces : List Bytes) :
    (joined (pieces.map instantiate)).length ≤ (joined pieces).length := by
  induction pieces with
  | nil => exact le_refl _
  | cons piece pieces ih =>
    have hpiece := length_instantiate_le piece
    rw [List.map_cons, joined_cons, joined_cons, List.length_cons, List.length_cons,
      List.length_append, List.length_append]
    omega

/-- Cutting the path of some segments. -/
theorem splitOn_joined {segments : List Bytes} (hne : segments ≠ [])
    (hslash : ∀ s ∈ segments, byte '/' ∉ s) :
    ∃ rest, joined segments = byte '/' :: rest ∧ rest.splitOn (byte '/') = segments := by
  have hsplit : (List.intercalate [byte '/'] segments).splitOn (byte '/') = segments :=
    List.splitOn_intercalate (byte '/') hslash hne
  refine ⟨_, ?_, hsplit⟩
  rw [← flatMap_splitOn (byte '/'), hsplit]
  rfl

namespace RoutePattern

variable (pattern : RoutePattern)

/-- A path for the pattern. -/
def path : Bytes := joined ((patternPieces pattern.bytes).map instantiate)

theorem bytes_eq_joined : pattern.bytes = joined (patternPieces pattern.bytes) := by
  obtain ⟨hslash, -⟩ := eq_cons_of_isValidRoutePattern pattern.valid
  conv_lhs => rw [hslash]
  exact (flatMap_splitOn _ _).symm

theorem slash_notMem : ∀ s ∈ (patternPieces pattern.bytes).map instantiate, byte '/' ∉ s := by
  refine List.forall_mem_map.2 fun piece hpiece => ?_
  unfold instantiate
  split_ifs
  · decide
  · exact notMem_of_mem_splitOn hpiece

theorem exists_path_eq : ∃ rest, pattern.path = byte '/' :: rest ∧
    rest.splitOn (byte '/') = (patternPieces pattern.bytes).map instantiate :=
  splitOn_joined (List.map_eq_nil_iff.not.2 (List.splitOn_ne_nil (byte '/') _))
    pattern.slash_notMem

/-- A pattern is found by its text, or piece by piece. -/
theorem matches_iff {rest : Bytes} : Matches pattern.bytes (byte '/' :: rest) ↔
    if (patternPieces pattern.bytes).any fun piece =>
        piece == ascii "*" || (captureName? piece).isSome then
      (matchPieces (patternPieces pattern.bytes) (rest.splitOn (byte '/'))).isSome = true
    else byte '/' :: rest = pattern.bytes := by
  obtain ⟨hslash, hvalid⟩ := eq_cons_of_isValidRoutePattern pattern.valid
  have hsplit : pattern.bytes.splitOn (byte '/') = [] :: patternPieces pattern.bytes := by
    conv_lhs => rw [hslash]
    exact splitOn_slash_cons _
  unfold Matches
  dsimp only
  rw [isDynamic_compilePieces hvalid, matchPath_eq pattern.valid rfl, matchPattern, hsplit,
    splitOn_slash_cons, matchPieces_nil_cons]

theorem matches_path : Matches pattern.bytes pattern.path := by
  obtain ⟨rest, hpath, hsplit⟩ := pattern.exists_path_eq
  obtain ⟨-, hvalid⟩ := eq_cons_of_isValidRoutePattern pattern.valid
  rw [hpath, pattern.matches_iff, hsplit]
  split_ifs with hdynamic
  · exact matchPieces_instantiate hvalid
  · -- without captures and wildcards every piece stands for itself
    have hmap : (patternPieces pattern.bytes).map instantiate = patternPieces pattern.bytes := by
      refine (List.map_congr_left fun piece hpiece => if_neg fun h => hdynamic ?_).trans
        (List.map_id' _)
      rw [List.any_eq_true]
      exact ⟨piece, hpiece, by simpa using h⟩
    rw [← hpath, path, hmap, ← pattern.bytes_eq_joined]

/-- A literal segment is a segment of the path. -/
theorem mem_of_matchPieces {pieces segments : List Bytes} {captures : List Header}
    (h : matchPieces pieces segments = some captures) {piece : Bytes} (hpiece : piece ∈ pieces)
    (hstar : piece ≠ ascii "*") (hname : captureName? piece = none) : piece ∈ segments := by
  induction pieces generalizing segments captures with
  | nil => cases hpiece
  | cons first pieces ih =>
    cases segments with
    | nil => cases h
    | cons segment segments =>
      rw [matchPieces] at h
      by_cases hwild : pieces = [] ∧ first = ascii "*"
      · rw [hwild.1, List.mem_singleton] at hpiece
        exact absurd (hpiece.trans hwild.2) hstar
      rw [if_neg hwild] at h
      cases hfirst : captureName? first with
      | none =>
        rw [hfirst] at h
        dsimp only at h
        split_ifs at h with hsegment
        rcases List.mem_cons.1 hpiece with rfl | hpiece
        · exact hsegment ▸ List.mem_cons_self
        · exact List.mem_cons_of_mem segment (ih h hpiece)
      | some name =>
        rw [hfirst] at h
        dsimp only at h
        split_ifs at h
        obtain ⟨rest, hrest, -⟩ := Option.map_eq_some_iff.1 h
        rcases List.mem_cons.1 hpiece with rfl | hpiece
        · cases hname.symm.trans hfirst
        · exact List.mem_cons_of_mem segment (ih hrest hpiece)

/-- Every byte of a literal segment is one of the path. -/
theorem mem_path_of_matches {path piece : Bytes} (hpath : CanonicalPath path)
    (h : Matches pattern.bytes path) (hpiece : piece ∈ literals pattern.bytes) :
    ∀ b ∈ piece, b ∈ path := by
  obtain ⟨rest, rfl⟩ := List.head?_eq_some_iff.1 hpath.head
  have hmem {segments : List Bytes} (hpiece : piece ∈ segments) :
      ∀ b ∈ piece, b ∈ segments.flatMap (byte '/' :: ·) :=
    fun b hb => List.mem_flatMap.2 ⟨piece, hpiece, List.mem_cons_of_mem _ hb⟩
  obtain ⟨hpiece, hliteral⟩ := List.mem_filter.1 hpiece
  simp only [Bool.and_eq_true, bne_iff_ne, Option.isNone_iff_eq_none] at hliteral
  rw [pattern.matches_iff] at h
  split_ifs at h
  · obtain ⟨captures, hmatch⟩ := Option.isSome_iff_exists.1 h
    rw [← flatMap_splitOn (byte '/') rest]
    exact hmem (mem_of_matchPieces hmatch hpiece hliteral.1 hliteral.2)
  · rw [h, pattern.bytes_eq_joined]
    exact hmem hpiece

/-- The bytes of the path are those of the literal segments. -/
theorem mem_path {b : UInt8} (hb : b ∈ pattern.path) :
    b = byte '/' ∨ b = byte 'x' ∨ ∃ piece ∈ literals pattern.bytes, b ∈ piece := by
  obtain ⟨segment, hsegment, hb⟩ := List.mem_flatMap.1 hb
  obtain ⟨piece, hpiece, rfl⟩ := List.mem_map.1 hsegment
  rcases List.mem_cons.1 hb with rfl | hb
  · exact .inl rfl
  unfold instantiate at hb
  split_ifs at hb with h
  · exact .inr (.inl (List.mem_singleton.1 hb))
  · refine .inr (.inr ⟨piece, List.mem_filter.2 ⟨hpiece, ?_⟩, hb⟩)
    rw [not_or] at h
    simpa using h

theorem canonicalPath (hbytes : ∀ b ∈ pattern.path, isPathByte b = true) :
    CanonicalPath pattern.path := by
  obtain ⟨-, hvalid⟩ := eq_cons_of_isValidRoutePattern pattern.valid
  obtain ⟨rest, hpath, hsplit⟩ := pattern.exists_path_eq
  obtain ⟨hinner, hdots⟩ := instantiate_segments hvalid
  have hsegments : (pattern.path.drop 1).splitOn (byte '/') =
      (patternPieces pattern.bytes).map instantiate := by
    rw [hpath, ← hsplit, List.drop_one, List.tail_cons]
  have hnotMem {b : UInt8} (hb : isPathByte b = false) : b ∉ pattern.path := fun hmem => by
    cases hb.symm.trans (hbytes b hmem)
  refine ⟨by rw [hpath]; rfl, hnotMem (by decide), hsegments ▸ hinner, fun s hs => ?_⟩
  rw [hsegments] at hs
  refine ⟨(hdots s hs).1, (hdots s hs).2, fun hescape => hnotMem (b := byte '%') (by decide) ?_⟩
  exact List.mem_flatMap.2 ⟨s, hs, List.mem_cons_of_mem _ hescape⟩

end RoutePattern

/-- **Dead routes.**  A pattern that is registered is reached by some request if and only if every
byte of its literal segments is one that a path can have. -/
theorem route_pattern_is_reachable_iff (pton : InetPton) (now : TimePoint)
    (pattern : RoutePattern) : IsReachable pton now pattern.bytes ↔
      ∀ piece ∈ literals pattern.bytes, ∀ b ∈ piece, isPathByte b = true := by
  constructor
  · rintro ⟨limits, v, r, hr, hmatches⟩ piece hpiece b hb
    obtain ⟨hpath, hbytes⟩ := path_of_parseRequest hr
    exact hbytes b (pattern.mem_path_of_matches hpath hmatches hpiece b hb)
  · intro hliterals
    have hbytes : ∀ b ∈ pattern.path, isPathByte b = true := by
      intro b hb
      rcases pattern.mem_path hb with rfl | rfl | ⟨piece, hpiece, hb⟩
      · decide
      · decide
      · exact hliterals piece hpiece b hb
    have hlength : pattern.path.length < 2 ^ 63 := by
      refine lt_of_le_of_lt ?_ pattern.fits
      conv_rhs => rw [pattern.bytes_eq_joined]
      exact length_joined_instantiate_le _
    obtain ⟨limits, v, r, hr, hrequest⟩ := exists_request pton now
      (pattern.canonicalPath hbytes) hbytes hlength
    exact ⟨limits, v, r, hr, hrequest ▸ pattern.matches_path⟩

/-- The pattern `/100%` is registered, and no request that is parsed has it as its path. -/
theorem escape_in_pattern_is_dead : isValidRoutePattern (ascii "/100%") = true ∧
    ¬ IsReachable .rejecting 0 (ascii "/100%") := by
  refine ⟨by decide, ?_⟩
  rintro ⟨limits, v, r, hr, hmatches⟩
  have hmem : byte '%' ∈ r.request.path.bytes := by
    rw [show r.request.path.bytes = ascii "/100%" from hmatches]
    decide
  cases (path_of_parseRequest hr).2 _ hmem

end ErikslundHttp
