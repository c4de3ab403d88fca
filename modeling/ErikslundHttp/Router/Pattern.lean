import ErikslundHttp.Lib.Scan
import ErikslundHttp.Request.Basic

/-!
# Route patterns

A route pattern is validated, compiled and matched by three separate loops over text separated by
`/` (`router.hpp`, `router.cpp`).  The loops that cut a pattern go through the pieces of
`patternPieces`; the loop that matches a path walks the bytes of the path.

* `matchPieces` is what a pattern means: cut both texts at `/` and compare piece by piece.
* `matchPath_eq`: a compiled pattern matches exactly so.
-/

namespace ErikslundHttp

open Scan

/-! ### Validation -/

/-- What a segment of a pattern is. -/
inductive RouteSegmentKind where
  | literal
  | parameter
  | wildcard
  | invalid
  deriving DecidableEq, Repr

/-- The request parser rejects paths with other segments. -/
def isReachableSegment (segment : Bytes) (isFinalSegment : Bool) : Bool :=
  if segment.isEmpty then isFinalSegment else segment != ascii "." && segment != ascii ".."

/-- The text between the braces of a capture. -/
def captureName (segment : Bytes) : Bytes := (segment.drop 1).take (segment.length - 2)

/-- `classify_segment`. -/
def classifySegment (segment : Bytes) (isFinalSegment : Bool) : RouteSegmentKind :=
  if !isReachableSegment segment isFinalSegment then .invalid
  else if segment == ascii "*" then if isFinalSegment then .wildcard else .invalid
  else if segment.contains (byte '*') then .invalid
  else if !(segment.contains (byte '\x7b') || segment.contains (byte '\x7d')) then .literal
  else if segment.length < 3 || segment.head? != some (byte '\x7b') ||
      segment.getLast? != some (byte '\x7d') then .invalid
  else if (captureName segment).isEmpty || (captureName segment).contains (byte '\x7b') ||
      (captureName segment).contains (byte '\x7d') then .invalid
  else .parameter

/-- The segments of a pattern that starts with `/`. -/
def patternPieces (pattern : Bytes) : List Bytes := (pattern.drop 1).splitOn (byte '/')

/-- The loop of `is_valid_route_pattern`. -/
def piecesAreValid (parameterCount : ℕ) : List Bytes → Bool
  | [] => true
  | piece :: rest =>
    match classifySegment piece rest.isEmpty with
    | .parameter =>
      if kMaxPathParameters < parameterCount + 1 then false
      else piecesAreValid (parameterCount + 1) rest
    | .wildcard => piecesAreValid parameterCount rest
    | .literal => piecesAreValid parameterCount rest
    | .invalid => false

/-- Supports exact paths, whole-segment `{parameters}`, and a trailing wildcard. -/
def isValidRoutePattern (pattern : Bytes) : Bool :=
  if pattern.head? != some (byte '/') then false else piecesAreValid 0 (patternPieces pattern)

/-! ### Compilation -/

/-- A compiled segment. -/
structure Segment where
  /-- What the segment of the path has to be. -/
  literal : Bytes := []
  /-- Where a captured segment goes. -/
  parameterName : Bytes := []
  /-- It captures a segment, or else it is literal. -/
  isParameter : Bool := false
  deriving DecidableEq

/-- What `compile_pattern` returns. -/
structure CompiledPattern where
  segments : List Segment := []
  /-- The pattern takes any further segments. -/
  hasWildcard : Bool := false
  /-- How many segments are captured. -/
  parameterCount : ℕ := 0

/-- The loop of `Router::route` over the segments of a pattern. -/
def compilePieces : List Bytes → CompiledPattern
  | [] => {}
  | piece :: rest =>
    let compiled := compilePieces rest
    match classifySegment piece rest.isEmpty with
    | .wildcard => { compiled with hasWildcard := true }
    | .parameter =>
      { compiled with
        segments := { parameterName := captureName piece, isParameter := true } :: compiled.segments
        parameterCount := compiled.parameterCount + 1 }
    | .literal => { compiled with segments := { literal := piece } :: compiled.segments }
    | .invalid => compiled

/-- A path may differ from the text of the pattern. -/
def CompiledPattern.isDynamic (compiled : CompiledPattern) : Bool :=
  compiled.hasWildcard || 0 < compiled.parameterCount

/-! ### Matching -/

/-- The loop of `match` over the segments of a route: the path that is left and the captures. -/
def matchSegments : List Segment → Bytes → List Header → Option (Bytes × List Header)
  | [], remaining, captures => some (remaining, captures)
  | _ :: _, [], _ => none
  | segment :: segments, first :: remaining, captures =>
    if first != byte '/' then none
    else
      let slash := find (byte '/') remaining
      let piece := slash.elim remaining remaining.take
      let remaining := slash.elim [] remaining.drop
      if segment.isParameter then
        if piece.isEmpty then none
        else matchSegments segments remaining (captures ++ [⟨segment.parameterName, piece⟩])
      else if piece != segment.literal then none
      else matchSegments segments remaining captures

/-- The match of a path; its rest must be empty, or there must be a wildcard for it. -/
def matchPath (segments : List Segment) (hasWildcard : Bool) (path : Bytes) :
    Option (List Header) :=
  match matchSegments segments path [] with
  | none => none
  | some (remaining, captures) =>
    if hasWildcard then
      if remaining.head? == some (byte '/') then some captures else none
    else if remaining.isEmpty then some captures else none

/-! ### What a pattern means -/

/-- The name of a segment `{name}`: what is left without its braces. -/
def captureName? (piece : Bytes) : Option Bytes :=
  if piece.head? = some (byte '\x7b') ∧ piece.getLast? = some (byte '\x7d') then
    some piece.tail.dropLast
  else none

/-- Literal segments are equal, a `{name}` takes one segment that is not empty, and a `*` at the
end takes one or more segments. -/
def matchPieces : List Bytes → List Bytes → Option (List Header)
  | [], [] => some []
  | [], _ :: _ => none
  | _ :: _, [] => none
  | piece :: pieces, segment :: segments =>
    if pieces = [] ∧ piece = ascii "*" then some []
    else
      match captureName? piece with
      | some name =>
        if segment = [] then none else (matchPieces pieces segments).map (⟨name, segment⟩ :: ·)
      | none => if piece = segment then matchPieces pieces segments else none

/-- The captures of a path under a pattern. -/
def matchPattern (pattern path : Bytes) : Option (List Header) :=
  matchPieces (pattern.splitOn (byte '/')) (path.splitOn (byte '/'))

/-- A pattern with a capture or a wildcard. -/
def isDynamicPattern (pattern : Bytes) : Bool :=
  (pattern.splitOn (byte '/')).any fun piece => piece == ascii "*" || (captureName? piece).isSome

/-- The names a pattern captures, in order. -/
def patternNames (pattern : Bytes) : List Bytes :=
  (pattern.splitOn (byte '/')).filterMap captureName?

theorem names_of_matchPieces {pieces segments : List Bytes} {captures : List Header}
    (h : matchPieces pieces segments = some captures) :
    captures.map HeaderView.name = pieces.filterMap captureName? := by
  induction pieces generalizing segments captures with
  | nil =>
    cases segments with
    | nil => cases h; rfl
    | cons segment segments => cases h
  | cons piece pieces ih =>
    cases segments with
    | nil => cases h
    | cons segment segments =>
      rw [matchPieces] at h
      by_cases hwild : pieces = [] ∧ piece = ascii "*"
      · rw [if_pos hwild] at h
        cases h
        obtain ⟨rfl, rfl⟩ := hwild
        rfl
      · rw [if_neg hwild] at h
        cases hname : captureName? piece with
        | none =>
          rw [hname] at h
          dsimp only at h
          split_ifs at h
          rw [List.filterMap_cons, hname]
          exact ih h
        | some name =>
          rw [hname] at h
          dsimp only at h
          split_ifs at h
          obtain ⟨rest, hrest, rfl⟩ := Option.map_eq_some_iff.1 h
          rw [List.filterMap_cons, hname, List.map_cons, ih hrest]

/-! ### Segments that pass the validation -/

theorem classifySegment_eq_wildcard {piece : Bytes} {isFinal : Bool}
    (h : classifySegment piece isFinal = .wildcard) : piece = ascii "*" ∧ isFinal = true := by
  unfold classifySegment at h
  split_ifs at h with hreach hstar hfinal
  exact ⟨by simpa using hstar, hfinal⟩

theorem captureName_eq (segment : Bytes) : captureName segment = segment.tail.dropLast := by
  rw [captureName, List.dropLast_eq_take, List.drop_one, List.length_tail, Nat.sub_sub]

theorem classifySegment_eq_parameter {piece : Bytes} {isFinal : Bool}
    (h : classifySegment piece isFinal = .parameter) :
    piece ≠ ascii "*" ∧ captureName? piece = some (captureName piece) := by
  unfold classifySegment at h
  split_ifs at h with hreach hstar hfinal hcontains hbrace hshape
  simp only [Bool.or_eq_true, bne_iff_ne, not_or, Decidable.not_not] at hshape
  rw [captureName_eq]
  exact ⟨by simpa using hstar, if_pos ⟨hshape.1.2, hshape.2⟩⟩

theorem classifySegment_eq_literal {piece : Bytes} {isFinal : Bool}
    (h : classifySegment piece isFinal = .literal) :
    piece ≠ ascii "*" ∧ captureName? piece = none := by
  unfold classifySegment at h
  split_ifs at h with hreach hstar hfinal hcontains hbrace hshape
  refine ⟨by simpa using hstar, if_neg fun hcapture => ?_⟩
  have hopen : byte '\x7b' ∈ piece := List.mem_of_mem_head? hcapture.1
  simp [hopen] at hbrace

/-! ### A compiled pattern matches what it means -/

/-- The path of some segments. -/
def joined (segments : List Bytes) : Bytes := segments.flatMap (byte '/' :: ·)

theorem joined_cons (segment : Bytes) (segments : List Bytes) :
    joined (segment :: segments) = byte '/' :: (segment ++ joined segments) := rfl

/-- Cutting a path before its next `/`. -/
theorem cut_joined {segment : Bytes} (h : byte '/' ∉ segment) (segments : List Bytes) :
    (find (byte '/') (segment ++ joined segments)).elim (segment ++ joined segments)
        (segment ++ joined segments).take = segment ∧
      (find (byte '/') (segment ++ joined segments)).elim [] (segment ++ joined segments).drop =
        joined segments := by
  cases segments with
  | nil =>
    have hnone : find (byte '/') (segment ++ joined []) = none := by simpa [joined] using h
    rw [hnone]
    exact ⟨by simp [joined], rfl⟩
  | cons next segments =>
    rw [joined_cons, find_append_cons h]
    exact ⟨List.take_left, List.drop_left⟩

/-- The end of `match`, after the loop. -/
def finish (hasWildcard : Bool) (result : Bytes × List Header) : Option (List Header) :=
  if hasWildcard then if result.1.head? == some (byte '/') then some result.2 else none
  else if result.1.isEmpty then some result.2 else none

theorem matchPath_eq_bind (segments : List Segment) (hasWildcard : Bool) (path : Bytes) :
    matchPath segments hasWildcard path =
      (matchSegments segments path []).bind (finish hasWildcard) := by
  unfold matchPath
  cases matchSegments segments path [] <;> rfl

theorem matchSegments_eq {count : ℕ} {pieces : List Bytes}
    (hvalid : piecesAreValid count pieces = true) {segments : List Bytes}
    (hsegments : ∀ s ∈ segments, byte '/' ∉ s) (captures : List Header) :
    (matchSegments (compilePieces pieces).segments (joined segments) captures).bind
        (finish (compilePieces pieces).hasWildcard) =
      (matchPieces pieces segments).map (captures ++ ·) := by
  induction pieces generalizing count segments captures with
  | nil =>
    cases segments with
    | nil => simp [compilePieces, matchSegments, joined, finish, matchPieces]
    | cons s ss => simp [compilePieces, matchSegments, joined, finish, matchPieces]
  | cons piece pieces ih =>
    unfold piecesAreValid at hvalid
    unfold compilePieces
    cases hkind : classifySegment piece pieces.isEmpty with
    | invalid => rw [hkind] at hvalid; cases hvalid
    | wildcard =>
      obtain ⟨rfl, hfinal⟩ := classifySegment_eq_wildcard hkind
      obtain rfl := List.isEmpty_iff.1 hfinal
      cases segments with
      | nil => simp [compilePieces, matchSegments, joined, finish, matchPieces]
      | cons s ss => simp [compilePieces, matchSegments, joined, finish, matchPieces]
    | parameter =>
      obtain ⟨hstar, hname⟩ := classifySegment_eq_parameter hkind
      rw [hkind] at hvalid
      dsimp only at hvalid
      split_ifs at hvalid
      cases segments with
      | nil => rfl
      | cons s ss =>
        obtain ⟨hs, hss⟩ := List.forall_mem_cons.1 hsegments
        obtain ⟨hpiece, hrest⟩ := cut_joined hs ss
        simp only [joined_cons, matchSegments, bne_self_eq_false, Bool.false_eq_true, if_false,
          if_true, hpiece, hrest, matchPieces, hstar, and_false, hname, List.isEmpty_iff]
        split_ifs
        · rfl
        · rw [ih hvalid hss, Option.map_map]
          congr 1
          funext l
          simp
    | literal =>
      obtain ⟨hstar, hname⟩ := classifySegment_eq_literal hkind
      rw [hkind] at hvalid
      dsimp only at hvalid
      cases segments with
      | nil => rfl
      | cons s ss =>
        obtain ⟨hs, hss⟩ := List.forall_mem_cons.1 hsegments
        obtain ⟨hpiece, hrest⟩ := cut_joined hs ss
        simp only [joined_cons, matchSegments, bne_self_eq_false, Bool.false_eq_true, if_false,
          hpiece, hrest, matchPieces, hstar, and_false, hname, bne_iff_ne, ne_eq, ite_not]
        by_cases heq : s = piece
        · rw [if_pos heq, if_pos heq.symm]
          exact ih hvalid hss captures
        · rw [if_neg heq, if_neg (Ne.symm heq)]
          rfl

theorem eq_cons_of_isValidRoutePattern {pattern : Bytes} (h : isValidRoutePattern pattern = true) :
    pattern = byte '/' :: pattern.drop 1 ∧ piecesAreValid 0 (patternPieces pattern) = true := by
  unfold isValidRoutePattern at h
  split_ifs at h with hhead
  simp only [bne_iff_ne, ne_eq, Decidable.not_not] at hhead
  obtain ⟨rest, rfl⟩ := List.head?_eq_some_iff.1 hhead
  exact ⟨rfl, h⟩

/-- Cutting a text that starts with `/`. -/
theorem splitOn_slash_cons (text : Bytes) :
    (byte '/' :: text).splitOn (byte '/') = [] :: text.splitOn (byte '/') :=
  List.splitOn_append_cons_self_of_not_mem List.not_mem_nil text

/-- The empty text before the first `/` is a literal segment on both sides. -/
theorem matchPieces_nil_cons (pieces segments : List Bytes) :
    matchPieces ([] :: pieces) ([] :: segments) = matchPieces pieces segments := by
  rw [matchPieces, if_neg fun h => absurd h.2 (by decide)]
  rfl

/-- A compiled pattern matches the paths that its text says. -/
theorem matchPath_eq {pattern path : Bytes} (hpattern : isValidRoutePattern pattern = true)
    (hpath : path.head? = some (byte '/')) :
    matchPath (compilePieces (patternPieces pattern)).segments
        (compilePieces (patternPieces pattern)).hasWildcard path = matchPattern pattern path := by
  obtain ⟨hslash, hvalid⟩ := eq_cons_of_isValidRoutePattern hpattern
  obtain ⟨rest, rfl⟩ := List.head?_eq_some_iff.1 hpath
  have hjoined : byte '/' :: rest = joined (rest.splitOn (byte '/')) := (flatMap_splitOn _ _).symm
  have hmatch := matchSegments_eq hvalid
    (fun s (hs : s ∈ rest.splitOn (byte '/')) => notMem_of_mem_splitOn hs) []
  rw [matchPath_eq_bind, hjoined, hmatch, ← hjoined, matchPattern, splitOn_slash_cons]
  conv_rhs => rw [hslash, splitOn_slash_cons]
  rw [matchPieces_nil_cons]
  simp [patternPieces]

theorem isDynamic_compilePieces {count : ℕ} {pieces : List Bytes}
    (hvalid : piecesAreValid count pieces = true) : (compilePieces pieces).isDynamic =
      pieces.any fun piece => piece == ascii "*" || (captureName? piece).isSome := by
  induction pieces generalizing count with
  | nil => rfl
  | cons piece pieces ih =>
    unfold piecesAreValid at hvalid
    unfold compilePieces
    rw [List.any_cons]
    cases hkind : classifySegment piece pieces.isEmpty with
    | invalid => rw [hkind] at hvalid; cases hvalid
    | wildcard =>
      obtain ⟨rfl, -⟩ := classifySegment_eq_wildcard hkind
      simp [CompiledPattern.isDynamic]
    | parameter =>
      obtain ⟨-, hname⟩ := classifySegment_eq_parameter hkind
      simp [CompiledPattern.isDynamic, hname]
    | literal =>
      obtain ⟨hstar, hname⟩ := classifySegment_eq_literal hkind
      rw [hkind] at hvalid
      have hrest := ih hvalid
      have hne : (piece == ascii "*") = false := by simpa using hstar
      rw [hname, hne, ← hrest]
      rfl

theorem isDynamic_eq {pattern : Bytes} (h : isValidRoutePattern pattern = true) :
    (compilePieces (patternPieces pattern)).isDynamic = isDynamicPattern pattern := by
  obtain ⟨hslash, hvalid⟩ := eq_cons_of_isValidRoutePattern h
  rw [isDynamic_compilePieces hvalid, isDynamicPattern]
  conv_rhs => rw [hslash, splitOn_slash_cons]
  rfl

/-- The validation bounds the number of captures. -/
theorem length_filterMap_captureName {count : ℕ} {pieces : List Bytes}
    (hvalid : piecesAreValid count pieces = true) (hcount : count ≤ kMaxPathParameters) :
    count + (pieces.filterMap captureName?).length ≤ kMaxPathParameters := by
  induction pieces generalizing count with
  | nil => simpa using hcount
  | cons piece pieces ih =>
    unfold piecesAreValid at hvalid
    cases hkind : classifySegment piece pieces.isEmpty with
    | invalid => rw [hkind] at hvalid; cases hvalid
    | wildcard =>
      rw [hkind] at hvalid
      obtain ⟨rfl, -⟩ := classifySegment_eq_wildcard hkind
      exact ih hvalid hcount
    | parameter =>
      obtain ⟨-, hname⟩ := classifySegment_eq_parameter hkind
      rw [hkind] at hvalid
      dsimp only at hvalid
      split_ifs at hvalid with hlimit
      have hrest := ih hvalid (not_lt.1 hlimit)
      rw [List.filterMap_cons, hname, List.length_cons]
      omega
    | literal =>
      obtain ⟨-, hname⟩ := classifySegment_eq_literal hkind
      rw [hkind] at hvalid
      rw [List.filterMap_cons, hname]
      exact ih hvalid hcount

theorem length_patternNames_le {pattern : Bytes} (h : isValidRoutePattern pattern = true) :
    (patternNames pattern).length ≤ kMaxPathParameters := by
  obtain ⟨hslash, hvalid⟩ := eq_cons_of_isValidRoutePattern h
  have hlength := length_filterMap_captureName hvalid (Nat.zero_le _)
  rw [Nat.zero_add] at hlength
  rw [patternNames, hslash, splitOn_slash_cons]
  exact hlength

theorem parameterCount_compilePieces {count : ℕ} {pieces : List Bytes}
    (hvalid : piecesAreValid count pieces = true) :
    (compilePieces pieces).parameterCount = (pieces.filterMap captureName?).length := by
  induction pieces generalizing count with
  | nil => rfl
  | cons piece pieces ih =>
    unfold piecesAreValid at hvalid
    unfold compilePieces
    cases hkind : classifySegment piece pieces.isEmpty with
    | invalid => rw [hkind] at hvalid; cases hvalid
    | wildcard =>
      rw [hkind] at hvalid
      obtain ⟨rfl, -⟩ := classifySegment_eq_wildcard hkind
      exact ih hvalid
    | parameter =>
      obtain ⟨-, hname⟩ := classifySegment_eq_parameter hkind
      rw [hkind] at hvalid
      dsimp only at hvalid ⊢
      split_ifs at hvalid
      rw [List.filterMap_cons, hname, List.length_cons, ih hvalid]
    | literal =>
      obtain ⟨-, hname⟩ := classifySegment_eq_literal hkind
      rw [hkind] at hvalid
      dsimp only
      rw [List.filterMap_cons, hname]
      exact ih hvalid

/-- The check of the parameter table never fails: the validation has counted the captures. -/
theorem parameterCount_le {pattern : Bytes} (h : isValidRoutePattern pattern = true) :
    (compilePieces (patternPieces pattern)).parameterCount ≤ kMaxPathParameters := by
  obtain ⟨-, hvalid⟩ := eq_cons_of_isValidRoutePattern h
  rw [parameterCount_compilePieces hvalid]
  have hlength := length_filterMap_captureName hvalid (Nat.zero_le _)
  omega

/-- One capture per name of the pattern, in order. -/
theorem names_of_matchPattern {pattern path : Bytes} {captures : List Header}
    (h : matchPattern pattern path = some captures) :
    captures.map HeaderView.name = patternNames pattern := names_of_matchPieces h

end ErikslundHttp
