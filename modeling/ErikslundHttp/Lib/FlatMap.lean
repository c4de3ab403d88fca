import Mathlib.Data.List.Sort
import Mathlib.Order.Basic

/-!
# Maps kept as sorted lists of entries

`std::flat_map` keeps its entries sorted by key and at most one entry per key.
`insertOrAssign` is its insertion and `lookup` the search for a key by `std::lower_bound`.

* `keys_insertOrAssign_of_mem`: an insertion leaves the keys alone when the key is there already.
* `keys_insertOrAssign_perm`: otherwise it adds exactly that key.
* `lookup_insertOrAssign`: it changes what is found under its key and nothing else.
-/

namespace ErikslundHttp

namespace FlatMap

variable {κ ν : Type*} [LinearOrder κ]

/-- The value of `key`, written over an old one if there is one. -/
def insertOrAssign (key : κ) (value : ν) : List (κ × ν) → List (κ × ν)
  | [] => [(key, value)]
  | entry :: rest =>
    if entry.1 < key then entry :: insertOrAssign key value rest
    else if key < entry.1 then (key, value) :: entry :: rest
    else (entry.1, value) :: rest

/-- Strictly increasing keys. -/
def Sorted (entries : List (κ × ν)) : Prop := entries.Pairwise (·.1 < ·.1)

theorem mem_insertOrAssign {key : κ} {value : ν} {entries : List (κ × ν)} {e : κ × ν}
    (h : e ∈ insertOrAssign key value entries) : e = (key, value) ∨ e ∈ entries := by
  induction entries with
  | nil => exact .inl (List.mem_singleton.1 h)
  | cons entry rest ih =>
    unfold insertOrAssign at h
    split_ifs at h with hlt hgt
    · rcases List.mem_cons.1 h with rfl | h
      · exact .inr List.mem_cons_self
      · exact (ih h).imp_right (List.mem_cons_of_mem _)
    · exact List.mem_cons.1 h
    · have hkey : entry.1 = key := le_antisymm (not_lt.1 hgt) (not_lt.1 hlt)
      rcases List.mem_cons.1 h with rfl | h
      · exact .inl (by rw [hkey])
      · exact .inr (List.mem_cons_of_mem _ h)

theorem Sorted.insertOrAssign {entries : List (κ × ν)} (h : Sorted entries) (key : κ) (value : ν) :
    Sorted (insertOrAssign key value entries) := by
  induction entries with
  | nil => exact List.pairwise_singleton _ _
  | cons entry rest ih =>
    obtain ⟨hentry, hrest⟩ := List.pairwise_cons.1 h
    unfold FlatMap.insertOrAssign
    split_ifs with hlt hgt
    · refine List.pairwise_cons.2 ⟨fun e he => ?_, ih hrest⟩
      rcases mem_insertOrAssign he with rfl | he
      · exact hlt
      · exact hentry e he
    · refine List.pairwise_cons.2 ⟨fun e he => ?_, h⟩
      rcases List.mem_cons.1 he with rfl | he
      · exact hgt
      · exact hgt.trans (hentry e he)
    · exact List.pairwise_cons.2 ⟨hentry, hrest⟩

theorem keys_insertOrAssign_of_mem {key : κ} {entries : List (κ × ν)} (h : Sorted entries)
    (hkey : key ∈ entries.map Prod.fst) (value : ν) :
    (insertOrAssign key value entries).map Prod.fst = entries.map Prod.fst := by
  induction entries with
  | nil => simp at hkey
  | cons entry rest ih =>
    obtain ⟨hentry, hrest⟩ := List.pairwise_cons.1 h
    rw [List.map_cons, List.mem_cons] at hkey
    unfold insertOrAssign
    split_ifs with hlt hgt
    · rw [List.map_cons, List.map_cons, ih hrest (hkey.resolve_left hlt.ne')]
    · -- the keys after the first are larger still
      obtain ⟨e, he, rfl⟩ := List.mem_map.1 (hkey.resolve_left hgt.ne)
      exact absurd (hentry e he) (not_lt.2 hgt.le)
    · rfl

theorem keys_insertOrAssign_perm {key : κ} {entries : List (κ × ν)}
    (hkey : key ∉ entries.map Prod.fst) (value : ν) :
    ((insertOrAssign key value entries).map Prod.fst).Perm (key :: entries.map Prod.fst) := by
  induction entries with
  | nil => exact List.Perm.refl _
  | cons entry rest ih =>
    rw [List.map_cons, List.mem_cons, not_or] at hkey
    unfold insertOrAssign
    split_ifs with hlt hgt
    · rw [List.map_cons, List.map_cons]
      exact ((ih hkey.2).cons _).trans (List.Perm.swap _ _ _)
    · exact List.Perm.refl _
    · exact absurd (le_antisymm (not_lt.1 hlt) (not_lt.1 hgt)) hkey.1

/-- The value at the first key that is not less than `key`, if it is the key. -/
def lookup (key : κ) (entries : List (κ × ν)) : Option ν :=
  match entries.dropWhile fun entry => decide (entry.1 < key) with
  | [] => none
  | entry :: _ => if entry.1 = key then some entry.2 else none

@[simp] theorem lookup_nil (key : κ) : lookup key ([] : List (κ × ν)) = none := rfl

theorem lookup_cons (key : κ) (entry : κ × ν) (rest : List (κ × ν)) :
    lookup key (entry :: rest) =
      if entry.1 < key then lookup key rest
      else if entry.1 = key then some entry.2 else none := by
  unfold lookup
  rw [List.dropWhile_cons]
  by_cases h : entry.1 < key <;> simp [h]

theorem lookup_insertOrAssign (key key' : κ) (value : ν) (entries : List (κ × ν)) :
    lookup key' (insertOrAssign key value entries) =
      if key' = key then some value else lookup key' entries := by
  induction entries with
  | nil =>
    rw [insertOrAssign, lookup_cons, lookup_nil]
    rcases lt_trichotomy key key' with h | rfl | h
    · simp [h, h.ne']
    · simp
    · simp [h.not_gt, h.ne, h.ne']
  | cons entry rest ih =>
    unfold insertOrAssign
    by_cases hlt : entry.1 < key
    · rw [if_pos hlt, lookup_cons, lookup_cons, ih]
      by_cases hkey : key' = key
      · rw [if_pos hkey, if_pos hkey, if_pos (hkey ▸ hlt)]
      · rw [if_neg hkey, if_neg hkey]
    · rw [if_neg hlt]
      by_cases hgt : key < entry.1
      · rw [if_pos hgt, lookup_cons]
        rcases lt_trichotomy key key' with h | rfl | h
        · rw [if_pos h, if_neg h.ne']
        · rw [if_neg (lt_irrefl key), if_pos rfl, if_pos rfl]
        · -- the key that is looked for is smaller than every key of the map
          have hsmall : key' < entry.1 := h.trans hgt
          rw [if_neg h.not_gt, if_neg h.ne', if_neg h.ne, lookup_cons, if_neg hsmall.not_gt,
            if_neg hsmall.ne']
      · have heq : entry.1 = key := le_antisymm (not_lt.1 hgt) (not_lt.1 hlt)
        rw [if_neg hgt, lookup_cons, lookup_cons, heq]
        by_cases hkey : key' = key
        · rw [hkey, if_neg (lt_irrefl key), if_pos rfl, if_pos rfl]
        · rw [if_neg hkey, if_neg (Ne.symm hkey), if_neg (Ne.symm hkey)]

@[simp] theorem lookup_insertOrAssign_self (key : κ) (value : ν) (entries : List (κ × ν)) :
    lookup key (insertOrAssign key value entries) = some value := by
  rw [lookup_insertOrAssign, if_pos rfl]

theorem lookup_insertOrAssign_of_ne {key key' : κ} (h : key' ≠ key) (value : ν)
    (entries : List (κ × ν)) :
    lookup key' (insertOrAssign key value entries) = lookup key' entries := by
  rw [lookup_insertOrAssign, if_neg h]

/-- What is found after a value was put into a map. -/
theorem lookup_insertOrAssign_cases {key key' : κ} {value value' : ν} {entries : List (κ × ν)}
    (h : lookup key' (insertOrAssign key value entries) = some value') :
    key' = key ∧ value' = value ∨ key' ≠ key ∧ lookup key' entries = some value' := by
  rw [lookup_insertOrAssign] at h
  split_ifs at h with heq
  · exact .inl ⟨heq, (Option.some.inj h).symm⟩
  · exact .inr ⟨heq, h⟩

/-- A map to lists holds one more value when it is appended to the list of a key. -/
theorem flatMap_insertOrAssign_perm {α : Type*} (key : κ) (value : α)
    (entries : List (κ × List α)) :
    ((insertOrAssign key ((lookup key entries).getD [] ++ [value]) entries).flatMap Prod.snd).Perm
      (value :: entries.flatMap Prod.snd) := by
  induction entries with
  | nil => exact List.Perm.refl _
  | cons entry rest ih =>
    rw [lookup_cons]
    unfold insertOrAssign
    rcases lt_trichotomy entry.1 key with hlt | heq | hgt
    · rw [if_pos hlt, if_pos hlt, List.flatMap_cons, List.flatMap_cons]
      exact (ih.append_left entry.2).trans List.perm_middle
    · rw [if_neg heq.not_lt, if_neg heq.not_lt, if_neg heq.not_gt, if_pos heq]
      simp only [Option.getD_some, List.flatMap_cons, List.append_assoc, List.cons_append,
        List.nil_append]
      exact List.perm_middle
    · rw [if_neg hgt.not_gt, if_neg hgt.not_gt, if_pos hgt, if_neg hgt.ne']
      exact List.Perm.refl _

theorem Sorted.filter {entries : List (κ × ν)} (h : Sorted entries) (p : κ × ν → Bool) :
    Sorted (entries.filter p) := List.Pairwise.filter p h

/-- A search finds the entries of a sorted map. -/
theorem lookup_eq_some_iff {key : κ} {value : ν} {entries : List (κ × ν)} (h : Sorted entries) :
    lookup key entries = some value ↔ (key, value) ∈ entries := by
  induction entries with
  | nil => simp
  | cons entry rest ih =>
    obtain ⟨hentry, hrest⟩ := List.pairwise_cons.1 h
    rw [lookup_cons, List.mem_cons]
    rcases lt_trichotomy entry.1 key with hlt | heq | hgt
    · rw [if_pos hlt, ih hrest]
      refine ⟨.inr, fun hmem => hmem.resolve_left ?_⟩
      rintro rfl
      exact lt_irrefl _ hlt
    · rw [if_neg heq.not_lt, if_pos heq, Option.some.injEq]
      constructor
      · intro hvalue
        exact .inl (Prod.ext heq.symm hvalue.symm)
      · rintro (hmem | hmem)
        · rw [← hmem]
        · exact absurd (hentry _ hmem) heq.not_lt
    · rw [if_neg hgt.not_gt, if_neg hgt.ne']
      refine ⟨nofun, ?_⟩
      rintro (hmem | hmem)
      · rw [← hmem] at hgt
        exact absurd hgt (lt_irrefl _)
      · exact absurd (hentry _ hmem) hgt.not_gt

/-- An insertion adds its entry and removes the one that had its key. -/
theorem mem_insertOrAssign_iff {key : κ} {value : ν} {entries : List (κ × ν)} (h : Sorted entries)
    {e : κ × ν} : e ∈ insertOrAssign key value entries ↔
      e = (key, value) ∨ e ∈ entries ∧ e.1 ≠ key := by
  obtain ⟨key', value'⟩ := e
  rw [← lookup_eq_some_iff (h.insertOrAssign key value), lookup_insertOrAssign]
  by_cases hkey : key' = key
  · subst hkey
    simp [eq_comm]
  · simp [hkey, lookup_eq_some_iff h]

theorem lookup_eq_none_iff {key : κ} {entries : List (κ × ν)} (h : Sorted entries) :
    lookup key entries = none ↔ key ∉ entries.map Prod.fst := by
  rw [Option.eq_none_iff_forall_ne_some]
  simp only [ne_eq, lookup_eq_some_iff h, List.mem_map, Prod.exists, exists_and_right,
    exists_eq_right, not_exists]

/-- Of a sorted map, the entries that are kept are found as before. -/
theorem lookup_filter_eq_some_iff {entries : List (κ × ν)} (h : Sorted entries)
    (keep : κ × ν → Bool) {key : κ} {value : ν} :
    lookup key (entries.filter keep) = some value ↔
      lookup key entries = some value ∧ keep (key, value) = true := by
  rw [lookup_eq_some_iff (h.filter keep), lookup_eq_some_iff h, List.mem_filter]

/-- A key that is erased is not found, and the others are as before. -/
theorem lookup_filter_ne [BEq κ] [LawfulBEq κ] {entries : List (κ × ν)} (h : Sorted entries)
    (key key' : κ) :
    lookup key' (entries.filter fun e => e.1 != key) =
      if key' = key then none else lookup key' entries := by
  refine Option.ext fun value => ?_
  rw [lookup_filter_eq_some_iff h, bne_iff_ne]
  by_cases hkey : key' = key <;> simp [hkey]

theorem length_insertOrAssign_of_mem {key : κ} {entries : List (κ × ν)} (h : Sorted entries)
    (hkey : key ∈ entries.map Prod.fst) (value : ν) :
    (insertOrAssign key value entries).length = entries.length := by
  rw [← List.length_map (f := Prod.fst), keys_insertOrAssign_of_mem h hkey, List.length_map]

theorem length_insertOrAssign_of_notMem {key : κ} {entries : List (κ × ν)}
    (hkey : key ∉ entries.map Prod.fst) (value : ν) :
    (insertOrAssign key value entries).length = entries.length + 1 := by
  rw [← List.length_map (f := Prod.fst), (keys_insertOrAssign_perm hkey value).length_eq,
    List.length_cons, List.length_map]

/-- The other entries, when a key is erased. -/
theorem length_filter_ne {key : κ} {entries : List (κ × ν)} (h : Sorted entries)
    (hkey : key ∈ entries.map Prod.fst) :
    (entries.filter fun e => e.1 != key).length + 1 = entries.length := by
  induction entries with
  | nil => simp at hkey
  | cons entry rest ih =>
    obtain ⟨hentry, hrest⟩ := List.pairwise_cons.1 h
    rw [List.filter_cons]
    by_cases heq : entry.1 = key
    · have hall : rest.filter (fun e => e.1 != key) = rest := by
        refine List.filter_eq_self.2 fun e he => bne_iff_ne.2 fun hkey => ?_
        exact absurd (hentry e he) (by rw [heq, hkey]; exact lt_irrefl _)
      rw [if_neg (by simp [heq]), hall, List.length_cons]
    · rw [List.map_cons, List.mem_cons] at hkey
      rw [if_pos (by simpa using heq), List.length_cons, List.length_cons,
        ih hrest (hkey.resolve_left (Ne.symm heq))]

/-- An insertion of a new key adds its entry. -/
theorem insertOrAssign_perm {key : κ} {entries : List (κ × ν)} (hkey : lookup key entries = none)
    (value : ν) : (insertOrAssign key value entries).Perm ((key, value) :: entries) := by
  induction entries with
  | nil => exact List.Perm.refl _
  | cons entry rest ih =>
    rw [lookup_cons] at hkey
    unfold insertOrAssign
    rcases lt_trichotomy entry.1 key with hlt | heq | hgt
    · rw [if_pos hlt] at hkey ⊢
      exact ((ih hkey).cons _).trans (List.Perm.swap _ _ _)
    · rw [if_neg heq.not_lt, if_pos heq] at hkey
      cases hkey
    · rw [if_neg hgt.not_gt, if_pos hgt]

/-- The entries, when a key is erased. -/
theorem perm_filter_ne {key : κ} {value : ν} {entries : List (κ × ν)} (h : Sorted entries)
    (hlookup : lookup key entries = some value) :
    entries.Perm ((key, value) :: entries.filter fun e => e.1 != key) := by
  induction entries with
  | nil => cases hlookup
  | cons entry rest ih =>
    obtain ⟨hentry, hrest⟩ := List.pairwise_cons.1 h
    rw [lookup_cons] at hlookup
    split_ifs at hlookup with hlt heq
    · rw [List.filter_cons, if_pos (bne_iff_ne.2 hlt.ne)]
      exact ((ih hrest hlookup).cons _).trans (List.Perm.swap _ _ _)
    · have hall : rest.filter (fun e => e.1 != key) = rest := by
        refine List.filter_eq_self.2 fun e he => bne_iff_ne.2 fun hkey => ?_
        exact absurd (hentry e he) (by rw [heq, hkey]; exact lt_irrefl _)
      cases hlookup
      rw [List.filter_cons, if_neg (by simp [heq]), hall, ← heq]

end FlatMap

end ErikslundHttp
