import ErikslundHttp.Lib.Scan

/-!
# Texts made of lines

A text is a sequence of lines, each ended by the two elements `c n` (carriage return, line feed).
Readers of such texts differ in where they end a line: a strict one at `c n` (`cutStrict`), a
lenient one at every `n`, dropping one `c` before it (`cutLenient`).

* `readLines_eq`: on a text whose lines have neither `c` nor `n` inside, every reader that cuts such
  lines right finds the same lines and the same end.
* `breaksPaired_lines`: every `c` and `n` of such a text belongs to a line end.
-/

namespace ErikslundHttp

namespace Lines

open Scan

variable {α : Type*}

/-! ### Line ends -/

/-- Every `c` is followed by an `n`, and every `n` comes after a `c`. -/
structure BreaksPaired (c n : α) (s : List α) : Prop where
  /-- After `c` comes `n`. -/
  next : ∀ i, s[i]? = some c → s[i + 1]? = some n
  /-- Before `n` stands `c`. -/
  prev : ∀ i, s[i + 1]? = some n → s[i]? = some c
  head : s.head? ≠ some n

variable {c n : α}

theorem BreaksPaired.append {s t : List α} (hs : BreaksPaired c n s) (ht : BreaksPaired c n t) :
    BreaksPaired c n (s ++ t) := by
  refine ⟨fun i hi => ?_, fun i hi => ?_, ?_⟩
  · by_cases hlt : i < s.length
    · rw [List.getElem?_append_left hlt] at hi
      have hnext := hs.next i hi
      have hlt' : i + 1 < s.length := (List.getElem?_eq_some_iff.1 hnext).1
      rw [List.getElem?_append_left hlt', hnext]
    · rw [List.getElem?_append_right (by omega)] at hi ⊢
      rw [Nat.sub_add_comm (by omega)]
      exact ht.next _ hi
  · rcases Nat.lt_trichotomy (i + 1) s.length with hlt | heq | hgt
    · rw [List.getElem?_append_left hlt] at hi
      rw [List.getElem?_append_left (by omega)]
      exact hs.prev i hi
    · -- an `n` cannot be the first element of the second text
      rw [heq, List.getElem?_append_right (le_refl _), Nat.sub_self, ← List.head?_eq_getElem?] at hi
      exact absurd hi ht.head
    · rw [List.getElem?_append_right (by omega), Nat.sub_add_comm (by omega)] at hi
      rw [List.getElem?_append_right (by omega)]
      exact ht.prev _ hi
  · cases s with
    | nil => exact ht.head
    | cons x s => simpa using hs.head

theorem breaksPaired_line (hcn : n ≠ c) {line : List α} (hc : c ∉ line) (hn : n ∉ line) :
    BreaksPaired c n (line ++ [c, n]) := by
  induction line with
  | nil =>
    refine ⟨fun i hi => ?_, fun i hi => ?_, ?_⟩
    · match i with
      | 0 => rfl
      | 1 => exact absurd (by simpa using hi) hcn
      | i + 2 => simp at hi
    · match i with
      | 0 => rfl
      | i + 1 => simp at hi
    · simpa using hcn.symm
  | cons x line ih =>
    simp only [List.mem_cons, not_or] at hc hn
    have ih := ih hc.2 hn.2
    refine ⟨fun i hi => ?_, fun i hi => ?_, ?_⟩
    · cases i with
      | zero => exact absurd (by simpa using hi) (Ne.symm hc.1)
      | succ i => exact ih.next i hi
    · cases i with
      | zero => exact absurd ((List.head?_eq_getElem?).trans hi) ih.head
      | succ i => exact ih.prev i hi
    · simpa using Ne.symm hn.1

theorem breaksPaired_lines (hcn : n ≠ c) {lines : List (List α)}
    (h : ∀ l ∈ lines, c ∉ l ∧ n ∉ l) : BreaksPaired c n (lines.flatMap (· ++ [c, n])) := by
  induction lines with
  | nil => exact ⟨by simp, by simp, by simp⟩
  | cons l lines ih =>
    obtain ⟨⟨hc, hn⟩, hrest⟩ := List.forall_mem_cons.1 h
    rw [List.flatMap_cons]
    exact (breaksPaired_line hcn hc hn).append (ih hrest)

/-! ### Readers -/

/-- Lines up to the first empty one, and what follows it; `cut` takes off the first line. -/
def readLines (cut : List α → Option (List α × List α)) :
    ℕ → List α → Option (List (List α) × List α)
  | 0, _ => none
  | fuel + 1, s =>
    match cut s with
    | none => none
    | some ([], rest) => some ([], rest)
    | some (line, rest) => (readLines cut fuel rest).map (Prod.map (line :: ·) id)

/-- A reader that cuts a plain line right. -/
def CutsPlainLines (c n : α) (cut : List α → Option (List α × List α)) : Prop :=
  ∀ line rest, c ∉ line → n ∉ line → cut (line ++ [c, n] ++ rest) = some (line, rest)

/-- Every such reader reads a text of plain lines as those lines. -/
theorem readLines_eq {cut : List α → Option (List α × List α)} (hcut : CutsPlainLines c n cut)
    {lines : List (List α)} (hlines : ∀ l ∈ lines, l ≠ [] ∧ c ∉ l ∧ n ∉ l) {fuel : ℕ}
    (hfuel : lines.length < fuel) (rest : List α) :
    readLines cut fuel (lines.flatMap (· ++ [c, n]) ++ [c, n] ++ rest) = some (lines, rest) := by
  induction lines generalizing fuel with
  | nil =>
    obtain ⟨fuel, rfl⟩ := Nat.exists_eq_succ_of_ne_zero (Nat.ne_of_gt hfuel)
    have := hcut [] rest (by simp) (by simp)
    simp only [List.nil_append] at this
    simp only [List.flatMap_nil, List.nil_append, readLines, this]
  | cons l lines ih =>
    obtain ⟨fuel, rfl⟩ := Nat.exists_eq_succ_of_ne_zero (Nat.ne_of_gt (Nat.zero_lt_of_lt hfuel))
    obtain ⟨⟨hne, hc, hn⟩, hrest⟩ := List.forall_mem_cons.1 hlines
    have hl := hcut l (lines.flatMap (· ++ [c, n]) ++ [c, n] ++ rest) hc hn
    obtain ⟨x, l, rfl⟩ := List.exists_cons_of_ne_nil hne
    simp only [List.flatMap_cons, List.append_assoc] at hl ih ⊢
    rw [readLines, hl]
    simp only [ih hrest (Nat.lt_of_succ_lt_succ hfuel), Option.map_some, Prod.map, id_eq]

/-- `readLines` after at most one empty line. -/
def readHead (cut : List α → Option (List α × List α)) (s : List α) :
    Option (List (List α) × List α) :=
  match cut s with
  | some ([], rest) => readLines cut (rest.length + 1) rest
  | _ => readLines cut (s.length + 1) s

theorem length_le_length_flatMap (lines : List (List α)) :
    lines.length ≤ (lines.flatMap (· ++ [c, n])).length := by
  induction lines with
  | nil => simp
  | cons l lines ih =>
    rw [List.flatMap_cons, List.length_append, List.length_append, List.length_cons]
    simp only [List.length_cons]
    omega

/-- A head of plain lines, with or without an empty line before it. -/
theorem readHead_eq {cut : List α → Option (List α × List α)} (hcut : CutsPlainLines c n cut)
    {lines : List (List α)} (hne : lines ≠ []) (hlines : ∀ l ∈ lines, l ≠ [] ∧ c ∉ l ∧ n ∉ l)
    (first : Bool) (rest : List α) :
    readHead cut ((if first then [c, n] else []) ++
      (lines.flatMap (· ++ [c, n]) ++ [c, n] ++ rest)) = some (lines, rest) := by
  have hfuel : lines.length <
      (lines.flatMap (· ++ [c, n]) ++ [c, n] ++ rest).length + 1 := by
    have := length_le_length_flatMap (c := c) (n := n) lines
    simp only [List.length_append] at this ⊢
    omega
  cases first with
  | true =>
    have h := hcut [] (lines.flatMap (· ++ [c, n]) ++ [c, n] ++ rest) (by simp) (by simp)
    rw [List.nil_append] at h
    rw [if_pos rfl, readHead, h]
    exact readLines_eq hcut hlines hfuel rest
  | false =>
    obtain ⟨l, lines, rfl⟩ := List.exists_cons_of_ne_nil hne
    obtain ⟨⟨hl, hc, hn⟩, -⟩ := List.forall_mem_cons.1 hlines
    have h := hcut l (lines.flatMap (· ++ [c, n]) ++ [c, n] ++ rest) hc hn
    obtain ⟨x, l, rfl⟩ := List.exists_cons_of_ne_nil hl
    have hread := readLines_eq hcut hlines hfuel rest
    simp only [List.flatMap_cons, List.append_assoc, Bool.false_eq_true, if_false,
      List.nil_append] at h hread ⊢
    rw [readHead, h]
    exact hread

variable [DecidableEq α]

/-- Ends a line at `c n`. -/
def cutStrict (c n : α) (s : List α) : Option (List α × List α) :=
  (findSub [c, n] s).map fun i => (s.take i, s.drop (i + 2))

/-- Ends a line at every `n`, and drops one `c` at its end. -/
def cutLenient (c n : α) (s : List α) : Option (List α × List α) :=
  (find n s).map fun i =>
    (if (s.take i).getLast? = some c then (s.take i).dropLast else s.take i, s.drop (i + 1))

theorem cutsPlainLines_strict (c n : α) : CutsPlainLines c n (cutStrict c n) := by
  intro line rest hc _
  rw [cutStrict, findSub_append_of_notMem hc]
  have : line.length + 2 = (line ++ [c, n]).length := by simp
  rw [Option.map_some, this, List.drop_left, List.append_assoc, List.take_left]

theorem cutsPlainLines_lenient (hcn : n ≠ c) : CutsPlainLines c n (cutLenient c n) := by
  intro line rest _ hn
  have heq : line ++ [c, n] ++ rest = (line ++ [c]) ++ n :: rest := by simp
  have hn' : n ∉ line ++ [c] := by simp [hn, hcn]
  rw [cutLenient, heq, find_append_cons hn', Option.map_some, List.take_left, drop_succ_append_cons]
  simp

end Lines

end ErikslundHttp
