import ErikslundHttp.Response.Encoder

/-!
# What a header map finds

A header map has at most one field of a name, in any letter case.

* `field_eq_some_iff`: a search finds exactly the fields it holds.
* `field_set`: setting a field changes what is found under its name and nothing else; a field that
  cannot stand in a head changes nothing.
-/

namespace ErikslundHttp

namespace HeaderMap

variable {headers : HeaderMap}

/-- The field of a name, under the name it is kept by. -/
def field (headers : HeaderMap) (name : Bytes) : Option (Bytes × Bytes) :=
  headers.entries.find? fun e => equalsIgnoreCase e.1 name

theorem find_eq_map_field (name : Bytes) :
    headers.find name = (headers.field name).map Prod.snd := rfl

theorem existingName_eq_map_field (name : Bytes) :
    headers.existingName name = (headers.field name).map Prod.fst := by
  unfold existingName field
  rw [List.find?_map]
  rfl

/-- Two fields of one name are the same field. -/
theorem eq_of_equalsIgnoreCase {e e' : Bytes × Bytes} (he : e ∈ headers.entries)
    (he' : e' ∈ headers.entries) (h : equalsIgnoreCase e.1 e'.1 = true) : e = e' := by
  have hsymm : Std.Symm fun a b : Bytes × Bytes => equalsIgnoreCase a.1 b.1 = false := by
    refine ⟨fun a b hab => Bool.eq_false_of_not_eq_true fun hba => ?_⟩
    rw [equalsIgnoreCase_symm hba] at hab
    cases hab
  by_contra hne
  have hfalse := (List.pairwise_map.1 headers.distinct).forall he he' hne
  rw [h] at hfalse
  cases hfalse

theorem field_eq_some_iff {name : Bytes} {e : Bytes × Bytes} : headers.field name = some e ↔
    e ∈ headers.entries ∧ equalsIgnoreCase e.1 name = true := by
  unfold field
  constructor
  · intro he
    exact ⟨List.mem_of_find?_eq_some he, by simpa using List.find?_some he⟩
  · rintro ⟨hmem, hname⟩
    obtain ⟨e', he'⟩ := Option.isSome_iff_exists.1
      (List.find?_isSome.2 ⟨e, hmem, hname⟩ :
        (headers.entries.find? fun e => equalsIgnoreCase e.1 name).isSome = true)
    have hname' : equalsIgnoreCase e'.1 name = true := by simpa using List.find?_some he'
    rw [he', eq_of_equalsIgnoreCase (List.mem_of_find?_eq_some he') hmem
      (equalsIgnoreCase_trans hname' (equalsIgnoreCase_symm hname))]

/-- The field of a name is found under every name that differs in letter case only. -/
theorem field_congr {name name' : Bytes} (h : equalsIgnoreCase name name' = true) :
    headers.field name = headers.field name' := by
  refine Option.ext fun e => ?_
  rw [field_eq_some_iff, field_eq_some_iff]
  refine and_congr_right fun _ => ?_
  rw [equalsIgnoreCase_iff, equalsIgnoreCase_iff, equalsIgnoreCase_iff.1 h]

/-- A map has one field of a name, or none. -/
theorem filter_equalsIgnoreCase (name : Bytes) :
    headers.entries.filter (fun e => equalsIgnoreCase e.1 name) = (headers.field name).toList := by
  have hdistinct := List.pairwise_map.1 headers.distinct
  unfold field
  generalize headers.entries = entries at hdistinct ⊢
  induction entries with
  | nil => rfl
  | cons e rest ih =>
    obtain ⟨he, hrest⟩ := List.pairwise_cons.1 hdistinct
    rw [List.filter_cons, List.find?_cons]
    cases hname : equalsIgnoreCase e.1 name with
    | false => simpa using ih hrest
    | true =>
      have hnone : rest.filter (fun e => equalsIgnoreCase e.1 name) = [] := by
        refine List.filter_eq_nil_iff.2 fun e' he' hname' => ?_
        have hsame := equalsIgnoreCase_trans hname (equalsIgnoreCase_symm hname')
        rw [he e' he'] at hsame
        cases hsame
      simp [hnone]

/-- The name under which a field is kept once it is set. -/
def keptName (headers : HeaderMap) (name : Bytes) : Bytes := (headers.existingName name).getD name

theorem equalsIgnoreCase_keptName (headers : HeaderMap) (name : Bytes) :
    equalsIgnoreCase (headers.keptName name) name = true := by
  unfold keptName
  cases h : headers.existingName name with
  | none => exact equalsIgnoreCase_refl name
  | some existing => simpa using List.find?_some h

/-- The fields after a field is set: it, under the name it is kept by, and those of other names. -/
theorem mem_set_iff {name value : Bytes} (hname : isValidFieldName name = true)
    (hvalue : isValidFieldValue value = true) {e : Bytes × Bytes} :
    e ∈ (headers.set name value).entries ↔
      e = (headers.keptName name, value) ∨
        e ∈ headers.entries ∧ equalsIgnoreCase e.1 name = false := by
  have hset : (headers.set name value).entries =
      FlatMap.insertOrAssign (headers.keptName name) value headers.entries := by
    unfold HeaderMap.set
    rw [dif_pos hname, dif_pos hvalue]
    split
    · rename_i existing hexisting
      have hkept : headers.keptName name = existing := by rw [keptName, hexisting, Option.getD_some]
      rw [hkept]
      rfl
    · rename_i hnone
      have hkept : headers.keptName name = name := by rw [keptName, hnone, Option.getD_none]
      rw [hkept]
      rfl
  rw [hset, FlatMap.mem_insertOrAssign_iff headers.sorted]
  refine or_congr_right (and_congr_right fun he => ?_)
  rw [← Bool.not_eq_true]
  refine not_congr ⟨fun heq => heq ▸ headers.equalsIgnoreCase_keptName name, fun hsame => ?_⟩
  -- a field of the name is the one that is there already
  rw [keptName, existingName_eq_map_field, field_eq_some_iff.2 ⟨he, hsame⟩]
  rfl

theorem field_set {name value : Bytes} (hname : isValidFieldName name = true)
    (hvalue : isValidFieldValue value = true) (name' : Bytes) :
    (headers.set name value).field name' =
      if equalsIgnoreCase name name' then some (headers.keptName name, value)
      else headers.field name' := by
  have hkept := headers.equalsIgnoreCase_keptName name
  refine Option.ext fun found => ?_
  rw [field_eq_some_iff, mem_set_iff hname hvalue]
  by_cases heq : equalsIgnoreCase name name' = true
  · rw [if_pos heq, Option.some.injEq]
    constructor
    · rintro ⟨hfound | ⟨-, hother⟩, hfound'⟩
      · exact hfound.symm
      · rw [equalsIgnoreCase_trans hfound' (equalsIgnoreCase_symm heq)] at hother
        cases hother
    · rintro rfl
      exact ⟨.inl rfl, equalsIgnoreCase_trans hkept heq⟩
  · rw [if_neg heq, field_eq_some_iff]
    constructor
    · rintro ⟨hfound | ⟨hold, -⟩, hfound'⟩
      · rw [hfound] at hfound'
        exact absurd (equalsIgnoreCase_trans (equalsIgnoreCase_symm hkept) hfound') heq
      · exact ⟨hold, hfound'⟩
    · rintro ⟨hold, hfound'⟩
      refine ⟨.inr ⟨hold, Bool.eq_false_of_not_eq_true fun hsame => heq ?_⟩, hfound'⟩
      exact equalsIgnoreCase_trans (equalsIgnoreCase_symm hsame) hfound'

theorem find_set {name value : Bytes} (hname : isValidFieldName name = true)
    (hvalue : isValidFieldValue value = true) (name' : Bytes) :
    (headers.set name value).find name' =
      if equalsIgnoreCase name name' then some value else headers.find name' := by
  rw [find_eq_map_field, field_set hname hvalue]
  split_ifs <;> rfl

theorem set_of_invalid {name value : Bytes} (h : isValidFieldValue value = false) :
    headers.set name value = headers := by
  unfold HeaderMap.set
  split_ifs with hname hvalue
  · rw [h] at hvalue
    cases hvalue
  · rfl
  · rfl

/-- A field of another name stays as it is, whether the field that is set can stand in a head or
not. -/
theorem field_set_of_ne {name value name' : Bytes} (hname : isValidFieldName name = true)
    (hne : equalsIgnoreCase name name' = false) :
    (headers.set name value).field name' = headers.field name' := by
  cases hvalue : isValidFieldValue value with
  | false => rw [set_of_invalid hvalue]
  | true => rw [field_set hname hvalue, hne, if_neg Bool.false_ne_true]

theorem eq_of_entries_eq {headers headers' : HeaderMap} (h : headers.entries = headers'.entries) :
    headers = headers' := by
  cases headers
  cases headers'
  cases h
  rfl

/-- Header maps that find the same fields are the same. -/
theorem eq_of_field_eq {headers headers' : HeaderMap}
    (h : ∀ name, headers.field name = headers'.field name) : headers = headers' := by
  have hmem : ∀ e, e ∈ headers.entries ↔ e ∈ headers'.entries := by
    intro e
    have hfield := h e.1
    rw [Option.ext_iff] at hfield
    simpa [field_eq_some_iff, equalsIgnoreCase_refl] using hfield e
  have hirrefl : Std.Irrefl fun a b : Bytes × Bytes => a.1 < b.1 := ⟨fun a => lt_irrefl a.1⟩
  have hantisymm : Std.Antisymm fun a b : Bytes × Bytes => a.1 < b.1 :=
    ⟨fun a b hab hba => absurd hba hab.not_gt⟩
  exact eq_of_entries_eq (headers.sorted.eq_of_mem_iff headers'.sorted hmem)

theorem keptName_set_of_ne {name value name' : Bytes} (hname : isValidFieldName name = true)
    (hne : equalsIgnoreCase name name' = false) :
    (headers.set name value).keptName name' = headers.keptName name' := by
  rw [keptName, keptName, existingName_eq_map_field, existingName_eq_map_field,
    field_set_of_ne hname hne]

/-- Fields of different names are set in any order. -/
theorem set_comm {name value name' value' : Bytes} (hname : isValidFieldName name = true)
    (hname' : isValidFieldName name' = true) (hne : equalsIgnoreCase name name' = false) :
    (headers.set name value).set name' value' = (headers.set name' value').set name value := by
  cases hvalue : isValidFieldValue value with
  | false => rw [set_of_invalid hvalue, set_of_invalid hvalue]
  | true =>
    cases hvalue' : isValidFieldValue value' with
    | false => rw [set_of_invalid hvalue', set_of_invalid hvalue']
    | true =>
      have hne' : equalsIgnoreCase name' name = false := by
        refine Bool.eq_false_of_not_eq_true fun hsame => ?_
        rw [equalsIgnoreCase_symm hsame] at hne
        cases hne
      refine eq_of_field_eq fun wanted => ?_
      rw [field_set hname' hvalue', field_set hname hvalue, field_set hname hvalue,
        field_set hname' hvalue', keptName_set_of_ne hname hne, keptName_set_of_ne hname' hne']
      split_ifs with hwanted' hwanted
      · rw [equalsIgnoreCase_trans hwanted (equalsIgnoreCase_symm hwanted')] at hne
        cases hne
      · rfl
      · rfl
      · rfl

end HeaderMap

namespace Response

variable {r : Response}

theorem findHeader_header {name value : Bytes} (hname : isValidFieldName name = true)
    (hvalue : isValidFieldValue value = true) (name' : Bytes) :
    (r.header name value).findHeader name' =
      if equalsIgnoreCase name name' then some value else r.findHeader name' :=
  HeaderMap.find_set hname hvalue name'

/-- A field of another name is as before. -/
theorem field_setHeader_of_ne {name value name' : Bytes}
    (hname : isValidFieldName name = true) (hne : equalsIgnoreCase name name' = false) :
    (r.setHeader name value).headers.field name' = r.headers.field name' :=
  HeaderMap.field_set_of_ne hname hne

/-- A field that the response does not have is set under the name that is given. -/
theorem field_setHeader_of_new {name value : Bytes}
    (hname : isValidFieldName name = true) (hvalue : isValidFieldValue value = true)
    (hnew : r.headers.field name = none) :
    (r.setHeader name value).headers.field name = some (name, value) := by
  have hkept : r.headers.keptName name = name := by
    rw [HeaderMap.keptName, HeaderMap.existingName_eq_map_field, hnew]
    rfl
  rw [Response.setHeader, HeaderMap.field_set hname hvalue, equalsIgnoreCase_refl, hkept]
  rfl

/-- Fields of different names are set in any order. -/
theorem setHeader_comm (r : Response) {name name' : Bytes} (value value' : Bytes)
    (hname : isValidFieldName name = true) (hname' : isValidFieldName name' = true)
    (hne : equalsIgnoreCase name name' = false) :
    (r.setHeader name value).setHeader name' value' =
      (r.setHeader name' value').setHeader name value :=
  congrArg (fun headers => { r with headers := headers }) (HeaderMap.set_comm hname hname' hne)

end Response

end ErikslundHttp
