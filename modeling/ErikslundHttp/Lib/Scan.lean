import Mathlib.Data.List.Basic
import Mathlib.Data.List.DropRight
import Mathlib.Data.List.Infix

/-!
# Scanning lists

Searching a list for an element or for a pattern, as string libraries do, and cutting it there.

* `find x l` is the position of the first `x` in `l`; `findFrom` starts at a given position;
* `findSub pat l` is the position of the first occurrence of the non-empty pattern `pat`.

A successful search is the same thing as a decomposition of the list
(`find_eq_some_iff`, `findSub_eq_some_iff`), and it does not change when the list grows at the
end (`findSub_append`).  `findSub_blank_line` locates the first empty line of a text made of
non-empty lines.
-/

namespace ErikslundHttp

namespace Scan

variable {α : Type*} [DecidableEq α]

/-! ### Searching for an element -/

omit [DecidableEq α] in
theorem findIdx?_append_cons {p : α → Bool} {pre : List α} (h : ∀ y ∈ pre, p y = false) {x : α}
    (hx : p x = true) (post : List α) : (pre ++ x :: post).findIdx? p = some pre.length := by
  have hpre : pre.findIdx? p = none := List.findIdx?_eq_none_iff.2 h
  simp [List.findIdx?_append, hpre, List.findIdx?_cons, hx]

omit [DecidableEq α] in
theorem findIdx?_eq_some_iff {p : α → Bool} {l : List α} {i : ℕ} :
    l.findIdx? p = some i ↔ ∃ pre x post, l = pre ++ x :: post ∧ (∀ y ∈ pre, p y = false) ∧
      p x = true ∧ pre.length = i := by
  constructor
  · intro h
    obtain ⟨hi, hx, hpre⟩ := List.findIdx?_eq_some_iff_getElem.1 h
    refine ⟨l.take i, l[i], l.drop (i + 1), by simp, fun y hy => ?_, hx, by simp; omega⟩
    obtain ⟨j, hj, rfl⟩ := List.getElem_of_mem hy
    rw [List.getElem_take]
    simpa using hpre j (by simp at hj; omega)
  · rintro ⟨pre, x, post, rfl, hpre, hx, rfl⟩
    exact findIdx?_append_cons hpre hx post

/-- The position of the first `x` in `l`. -/
def find (x : α) (l : List α) : Option ℕ := l.findIdx? (· == x)

/-- The position of the first `x` in `l` at or after `start`. -/
def findFrom (x : α) (start : ℕ) (l : List α) : Option ℕ := (find x (l.drop start)).map (· + start)

@[simp] theorem find_eq_none_iff {x : α} {l : List α} : find x l = none ↔ x ∉ l := by
  simp only [find, List.findIdx?_eq_none_iff, beq_eq_false_iff_ne, ne_eq]
  exact ⟨fun h hx => h x hx rfl, fun h y hy he => h (he ▸ hy)⟩

theorem find_append_cons {x : α} {pre : List α} (h : x ∉ pre) (post : List α) :
    find x (pre ++ x :: post) = some pre.length :=
  findIdx?_append_cons (List.findIdx?_eq_none_iff.1 (find_eq_none_iff.2 h)) (beq_self_eq_true x) post

/-- A list is cut in one way at its first `x`. -/
theorem append_cons_inj {x : α} {pre pre' post post' : List α} (hpre : x ∉ pre) (hpre' : x ∉ pre')
    (h : pre ++ x :: post = pre' ++ x :: post') : pre = pre' ∧ post = post' := by
  have hlength : pre.length = pre'.length := by
    have hfind := find_append_cons hpre post
    rw [h, find_append_cons hpre' post'] at hfind
    exact (Option.some.inj hfind).symm
  obtain ⟨heq, hrest⟩ := List.append_inj h hlength
  exact ⟨heq, (List.cons.inj hrest).2⟩

theorem find_eq_some_iff {x : α} {l : List α} {i : ℕ} :
    find x l = some i ↔ ∃ pre post, l = pre ++ x :: post ∧ x ∉ pre ∧ pre.length = i := by
  constructor
  · intro h
    have hx : x ∈ l := by
      by_contra hx
      rw [find_eq_none_iff.2 hx] at h
      cases h
    obtain ⟨pre, post, rfl, hpre⟩ := List.eq_append_cons_of_mem hx
    rw [find_append_cons hpre] at h
    exact ⟨pre, post, rfl, hpre, Option.some.inj h⟩
  · rintro ⟨pre, post, rfl, hpre, rfl⟩
    exact find_append_cons hpre post

theorem findFrom_eq_none_iff {x : α} {start : ℕ} {l : List α} :
    findFrom x start l = none ↔ x ∉ l.drop start := by
  simp [findFrom]

omit [DecidableEq α] in
theorem drop_succ_append_cons (pre : List α) (y : α) (l : List α) :
    (pre ++ y :: l).drop (pre.length + 1) = l := by
  rw [← List.drop_drop, List.drop_left]
  rfl

omit [DecidableEq α] in
theorem take_succ_append_cons (pre : List α) (y : α) (l : List α) :
    (pre ++ y :: l).take (pre.length + 1) = pre ++ [y] := by
  rw [List.append_cons]
  exact List.take_left' (by simp)

/-- The search after a cut at `y`. -/
theorem findFrom_append_cons {x : α} (pre : List α) (y : α) (l : List α) :
    findFrom x (pre.length + 1) (pre ++ y :: l) = (find x l).map (· + (pre.length + 1)) := by
  rw [findFrom, drop_succ_append_cons]

omit [DecidableEq α] in
/-- Cutting a list before the first element that satisfies `p`. -/
theorem cut_findIdx?_iff {p : α → Bool} {l a b : List α} :
    (l.take ((l.findIdx? p).getD l.length) = a ∧ ((l.findIdx? p).elim [] l.drop) = b) ↔
      l = a ++ b ∧ (∀ x ∈ a, p x = false) ∧ ∀ x, b.head? = some x → p x = true := by
  cases h : l.findIdx? p with
  | none =>
    rw [List.findIdx?_eq_none_iff] at h
    simp only [Option.getD_none, List.take_length, Option.elim_none]
    constructor
    · rintro ⟨rfl, rfl⟩
      exact ⟨by simp, h, by simp⟩
    · rintro ⟨rfl, -, hb⟩
      cases b with
      | nil => simp
      | cons x b => simpa [hb x rfl] using h x (by simp)
  | some i =>
    obtain ⟨pre, x, post, rfl, hpre, hx, rfl⟩ := findIdx?_eq_some_iff.1 h
    simp only [Option.getD_some, List.take_left, Option.elim_some, List.drop_left]
    constructor
    · rintro ⟨rfl, rfl⟩
      exact ⟨rfl, hpre, by simpa using hx⟩
    · rintro ⟨hl, ha, hb⟩
      cases b with
      | nil =>
        rw [List.append_nil] at hl
        simp [ha x (hl ▸ by simp)] at hx
      | cons y b =>
        rw [hl, findIdx?_append_cons ha (hb y rfl), Option.some.injEq] at h
        exact List.append_inj hl h.symm

/-! ### Cutting at every separator -/

theorem notMem_of_mem_splitOn {x : α} {l piece : List α} (h : piece ∈ l.splitOn x) : x ∉ piece := by
  induction l generalizing piece with
  | nil =>
    rw [List.splitOn_nil, List.mem_singleton] at h
    simp [h]
  | cons y l ih =>
    obtain ⟨first, rest, hsplit⟩ := List.exists_cons_of_ne_nil (List.splitOn_ne_nil x l)
    rw [hsplit] at ih
    rw [List.splitOn_cons_eq_if_modifyHead, hsplit] at h
    split_ifs at h with hy
    · rcases List.mem_cons.1 h with rfl | h
      · simp
      · exact ih h
    · rcases List.mem_cons.1 h with rfl | h
      · have hfirst := ih List.mem_cons_self
        have hne : x ≠ y := fun heq => hy (by simp [heq])
        simp [hne, hfirst]
      · exact ih (List.mem_cons_of_mem _ h)

/-- The pieces, each after a separator, make up the list after a separator. -/
theorem flatMap_splitOn (x : α) (l : List α) : (l.splitOn x).flatMap (x :: ·) = x :: l := by
  induction l with
  | nil => simp
  | cons y l ih =>
    obtain ⟨first, rest, hsplit⟩ := List.exists_cons_of_ne_nil (List.splitOn_ne_nil x l)
    rw [hsplit, List.flatMap_cons] at ih
    rw [List.splitOn_cons_eq_if_modifyHead, hsplit]
    split_ifs with hy
    · rw [List.flatMap_cons, List.flatMap_cons, ih, beq_iff_eq.1 hy]
      rfl
    · rw [List.modifyHead_cons, List.flatMap_cons]
      have htail := List.tail_eq_of_cons_eq ih
      rw [← htail]
      rfl

/-! ### Trimming -/

/-- `l` without the elements satisfying `p` at its two ends. -/
def trim (p : α → Bool) (l : List α) : List α := (l.dropWhile p).rdropWhile p

omit [DecidableEq α] in
theorem dropWhile_append_of_all {p : α → Bool} {a l : List α} (ha : ∀ x ∈ a, p x = true)
    (hl : ∀ x, l.head? = some x → p x = false) : (a ++ l).dropWhile p = l := by
  induction a with
  | nil =>
    cases l with
    | nil => rfl
    | cons x l => simp [hl x rfl]
  | cons x a ih =>
    rw [List.cons_append, List.dropWhile_cons_of_pos (ha x List.mem_cons_self)]
    exact ih fun y hy => ha y (List.mem_cons_of_mem _ hy)

omit [DecidableEq α] in
theorem rdropWhile_append_of_all {p : α → Bool} {l a : List α} (ha : ∀ x ∈ a, p x = true)
    (hl : ∀ x, l.getLast? = some x → p x = false) : (l ++ a).rdropWhile p = l := by
  rw [List.rdropWhile, List.reverse_append, dropWhile_append_of_all (by simpa using ha),
    List.reverse_reverse]
  simpa using hl

omit [DecidableEq α] in
/-- Trimming takes off what surrounds a value whose ends are kept. -/
theorem trim_append {p : α → Bool} {before value after : List α}
    (hb : ∀ x ∈ before, p x = true) (ha : ∀ x ∈ after, p x = true)
    (hh : ∀ x, value.head? = some x → p x = false)
    (hl : ∀ x, value.getLast? = some x → p x = false) :
    trim p (before ++ value ++ after) = value := by
  rw [trim]
  cases value with
  | nil =>
    have hall : ∀ x ∈ before ++ [] ++ after, p x = true := by
      simpa [or_imp, forall_and] using ⟨hb, ha⟩
    rw [List.dropWhile_eq_nil_iff.2 hall, List.rdropWhile_nil]
  | cons x xs =>
    rw [List.append_assoc, dropWhile_append_of_all hb (by simpa using hh),
      rdropWhile_append_of_all ha hl]

omit [DecidableEq α] in
theorem exists_eq_append_trim (p : α → Bool) (l : List α) :
    ∃ before after, l = before ++ trim p l ++ after ∧ (∀ x ∈ before, p x = true) ∧
      (∀ x ∈ after, p x = true) ∧ (∀ x, (trim p l).head? = some x → p x = false) ∧
      ∀ x, (trim p l).getLast? = some x → p x = false := by
  refine ⟨l.takeWhile p, (l.dropWhile p).rtakeWhile p, ?_, fun x hx => List.mem_takeWhile_imp hx,
    fun x hx => List.mem_rtakeWhile_imp hx, fun x hx => ?_, fun x hx => ?_⟩
  · rw [trim, List.append_assoc, List.rdropWhile_append_rtakeWhile,
      List.takeWhile_append_dropWhile]
  · obtain ⟨t, ht⟩ := List.rdropWhile_prefix p (l := l.dropWhile p)
    have hhead : (l.dropWhile p).head? = some x := by
      rw [← ht, List.head?_append]
      simp only [trim] at hx
      rw [hx]; rfl
    have := List.head?_dropWhile_not p l
    rw [hhead] at this
    simpa using this
  · have hne : trim p l ≠ [] := by rintro h; rw [h] at hx; cases hx
    have hlast := List.rdropWhile_last_not p (l.dropWhile p) hne
    rw [List.getLast?_eq_some_getLast hne, Option.some.injEq] at hx
    rw [← hx]
    exact eq_false_of_ne_true hlast

/-! ### Searching for a pattern -/

/-- The position of the first occurrence of `pat` in `l`. -/
def findSub (pat : List α) : List α → Option ℕ
  | [] => if pat = [] then some 0 else none
  | x :: xs => if pat <+: x :: xs then some 0 else (findSub pat xs).map (· + 1)

theorem findSub_eq_none_iff {pat l : List α} : findSub pat l = none ↔ ¬ pat <:+: l := by
  induction l with
  | nil => simp [findSub]
  | cons x xs ih =>
    simp only [findSub, List.infix_cons_iff, not_or]
    split_ifs with h
    · simp [h]
    · simp [h, ih]

omit [DecidableEq α] in
theorem append_dropLast_isPrefix (pre pat post : List α) :
    pre ++ pat.dropLast <+: pre ++ pat ++ post := by
  rw [List.append_assoc, List.prefix_append_right_inj]
  exact (List.dropLast_prefix pat).trans (List.prefix_append pat post)

theorem findSub_eq_some_iff {pat l : List α} {i : ℕ} (hp : pat ≠ []) :
    findSub pat l = some i ↔ ∃ pre post, l = pre ++ pat ++ post ∧ pre.length = i ∧
      ¬ pat <:+: pre ++ pat.dropLast := by
  induction l generalizing i with
  | nil =>
    simp only [findSub, hp, if_false, reduceCtorEq, false_iff]
    rintro ⟨pre, post, h, -, -⟩
    simp [hp] at h
  | cons x xs ih =>
    simp only [findSub]
    split_ifs with h
    · constructor
      · rintro ⟨⟩
        obtain ⟨post, hpost⟩ := h
        refine ⟨[], post, by simpa using hpost.symm, rfl, fun hin => ?_⟩
        have hlen := hin.length_le
        have hpos := List.length_pos_iff.2 hp
        simp only [List.nil_append, List.length_dropLast] at hlen
        omega
      · rintro ⟨pre, post, hl, rfl, hfirst⟩
        -- an occurrence at the front leaves no room for an earlier one
        cases pre with
        | nil => rfl
        | cons y ys =>
          exfalso
          refine hfirst (List.IsPrefix.isInfix ?_)
          rw [hl] at h
          exact List.prefix_of_prefix_length_le h (append_dropLast_isPrefix _ _ _) (by simp; omega)
    · rw [Option.map_eq_some_iff]
      constructor
      · rintro ⟨j, hj, rfl⟩
        obtain ⟨pre, post, rfl, rfl, hfirst⟩ := ih.1 hj
        refine ⟨x :: pre, post, rfl, rfl, ?_⟩
        rw [List.cons_append, List.infix_cons_iff, not_or]
        exact ⟨fun hpre => h (hpre.trans (append_dropLast_isPrefix (x :: pre) pat post)), hfirst⟩
      · rintro ⟨pre, post, hl, rfl, hfirst⟩
        cases pre with
        | nil => exact absurd ⟨post, by simpa using hl.symm⟩ h
        | cons y ys =>
          simp only [List.cons_append, List.cons.injEq] at hl
          refine ⟨ys.length, ih.2 ⟨ys, post, hl.2, rfl, fun hin => hfirst ?_⟩, rfl⟩
          exact List.infix_cons hin

/-- The first occurrence is not after any other. -/
theorem findSub_le {pat l pre post : List α} {i : ℕ} (hp : pat ≠ []) (h : findSub pat l = some i)
    (hl : l = pre ++ pat ++ post) : i ≤ pre.length := by
  obtain ⟨pre', post', hl', rfl, hfirst⟩ := (findSub_eq_some_iff hp).1 h
  by_contra hlt
  have hpos := List.length_pos_iff.2 hp
  have hpre' : pre' ++ pat.dropLast <+: l := hl' ▸ append_dropLast_isPrefix pre' pat post'
  have hpre : pre ++ pat <+: pre' ++ pat.dropLast := by
    refine List.prefix_of_prefix_length_le ⟨post, hl.symm⟩ hpre' ?_
    simp only [List.length_append, List.length_dropLast]
    omega
  exact hfirst ((List.suffix_append pre pat).isInfix.trans hpre.isInfix)

/-- Bytes after the first occurrence do not change the search. -/
theorem findSub_append {pat a : List α} {i : ℕ} (hp : pat ≠ []) (h : findSub pat a = some i)
    (b : List α) : findSub pat (a ++ b) = some i := by
  obtain ⟨pre, post, rfl, rfl, hfirst⟩ := (findSub_eq_some_iff hp).1 h
  exact (findSub_eq_some_iff hp).2 ⟨pre, post ++ b, by simp, rfl, hfirst⟩

/-- A prefix that holds the first occurrence has it as its first one. -/
theorem findSub_of_isPrefix {pat a l : List α} {i : ℕ} (hp : pat ≠ []) (h : findSub pat l = some i)
    (ha : a <+: l) (hlen : i + pat.length ≤ a.length) : findSub pat a = some i := by
  obtain ⟨pre, post, rfl, rfl, hfirst⟩ := (findSub_eq_some_iff hp).1 h
  obtain ⟨rest, rfl⟩ : pre ++ pat <+: a :=
    List.prefix_of_prefix_length_le (List.prefix_append _ post) ha (by simpa using hlen)
  exact (findSub_eq_some_iff hp).2 ⟨pre, rest, rfl, rfl, hfirst⟩

theorem findSub_eq_none_of_length_lt {pat a : List α} (h : a.length < pat.length) :
    findSub pat a = none :=
  findSub_eq_none_iff.2 fun hin => absurd hin.length_le (by omega)

/-- A prefix that ends before the end of the first occurrence has none. -/
theorem findSub_eq_none_of_isPrefix {pat a l : List α} {i : ℕ} (hp : pat ≠ [])
    (h : findSub pat l = some i) (ha : a <+: l) (hlen : a.length < i + pat.length) :
    findSub pat a = none := by
  obtain ⟨pre, post, rfl, rfl, hfirst⟩ := (findSub_eq_some_iff hp).1 h
  rw [findSub_eq_none_iff]
  intro hin
  refine hfirst (hin.trans (List.IsPrefix.isInfix ?_))
  refine List.prefix_of_prefix_length_le ha (append_dropLast_isPrefix pre pat post) ?_
  simp only [List.length_append, List.length_dropLast]
  omega

/-! ### Lines -/

omit [DecidableEq α] in
theorem not_prefix_of_head_ne {c x : α} {p l : List α} (h : x ≠ c) : ¬ c :: p <+: x :: l :=
  fun hp => h (List.cons_prefix_cons.1 hp).1.symm

omit [DecidableEq α] in
/-- A pattern cannot start inside a stretch without its first element. -/
theorem infix_append_of_notMem {c : α} {p a l : List α} (ha : c ∉ a) :
    c :: p <:+: a ++ l ↔ c :: p <:+: l := by
  induction a with
  | nil => simp
  | cons x a ih =>
    simp only [List.mem_cons, not_or] at ha
    rw [List.cons_append, List.infix_cons_iff, ih ha.2]
    simp [not_prefix_of_head_ne (Ne.symm ha.1)]

omit [DecidableEq α] in
/-- A text whose lines (after the first) are not empty has no empty line before its end. -/
theorem not_blank_line {c n : α} (hcn : n ≠ c) {line : List α} (hline : c ∉ line)
    {lines : List (List α)} (hlines : ∀ l ∈ lines, l ≠ [] ∧ c ∉ l) :
    ¬ [c, n, c, n] <:+: line ++ lines.flatMap ([c, n] ++ ·) ++ [c, n, c] := by
  induction lines generalizing line with
  | nil =>
    rw [List.flatMap_nil, List.append_nil, infix_append_of_notMem hline]
    exact fun h => absurd h.length_le (by simp)
  | cons l lines ih =>
    obtain ⟨hne, hl⟩ := hlines l List.mem_cons_self
    obtain ⟨x, xs, rfl⟩ := List.exists_cons_of_ne_nil hne
    have hx : x ≠ c := fun h => hl (h ▸ List.mem_cons_self)
    have hrest := ih hl fun m hm => hlines m (List.mem_cons_of_mem _ hm)
    rw [List.flatMap_cons, List.append_assoc, infix_append_of_notMem hline]
    simp only [List.cons_append, List.nil_append, List.append_assoc] at hrest ⊢
    rw [List.infix_cons_iff, List.infix_cons_iff, not_or, not_or]
    refine ⟨fun h => ?_, not_prefix_of_head_ne hcn, hrest⟩
    simp only [List.cons_prefix_cons, true_and] at h
    exact hx h.1.symm

/-- The first empty line of a text made of non-empty lines is the one that ends it. -/
theorem findSub_blank_line {c n : α} (hcn : n ≠ c) {line : List α} (hline : c ∉ line)
    {lines : List (List α)} (hlines : ∀ l ∈ lines, l ≠ [] ∧ c ∉ l) (rest : List α) :
    findSub [c, n, c, n] (line ++ lines.flatMap ([c, n] ++ ·) ++ [c, n, c, n] ++ rest) =
      some (line ++ lines.flatMap ([c, n] ++ ·)).length :=
  (findSub_eq_some_iff (by simp)).2
    ⟨_, rest, rfl, rfl, by simpa using not_blank_line hcn hline hlines⟩

/-- The first occurrence of a pattern after a stretch without its first element. -/
theorem findSub_append_of_notMem {c : α} {p pre : List α} (hpre : c ∉ pre) (post : List α) :
    findSub (c :: p) (pre ++ c :: p ++ post) = some pre.length := by
  refine (findSub_eq_some_iff (by simp)).2 ⟨pre, post, rfl, rfl, ?_⟩
  rw [infix_append_of_notMem hpre]
  exact fun h => absurd h.length_le (by simp)

end Scan

end ErikslundHttp
