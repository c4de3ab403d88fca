import ErikslundHttp.Request.Grammar
import Mathlib.Data.FinEnum

/-!
# The line scanners accept exactly their grammar

* `parseRequestLine_eq_ok_iff`: a line is accepted if and only if it is the rendering of a request
  line.
* `parseHeaderFields_map_eq_ok_iff`: lines are, if and only if they are the rendering of well-formed
  field lines.

The first kind of lemma below is about byte classes: no byte a scanner lets through is a line
terminator.
-/

namespace ErikslundHttp

open Scan Grammar

/-! ### Byte classes -/

theorem isTokenCharacter_spec : ∀ b : UInt8, isTokenCharacter b = true →
    0x20 < b ∧ b ≠ 0x7F ∧ b ≠ byte ':' := by
  decide +kernel

theorem isValidTargetByte_spec : ∀ b : UInt8, isValidTargetByte b = true →
    0x20 < b ∧ b ≠ 0x7F ∧ b ≠ byte '#' := by
  decide +kernel

theorem isValidFieldValueByte_spec : ∀ b : UInt8, isValidFieldValueByte b = true →
    b ≠ CR ∧ b ≠ LF ∧ b ≠ 0 := by
  decide +kernel

theorem isValidFieldValueByte_of_ows : ∀ b : UInt8, isOptionalWhitespace b = true →
    isValidFieldValueByte b = true := by
  decide +kernel

/-! ### The request line -/

theorem versionIsWellFormed_version (isVersion11 : Bool) :
    versionIsWellFormed (version isVersion11) = true := by
  cases isVersion11 <;> decide

theorem space_notMem_version (isVersion11 : Bool) : space ∉ version isVersion11 := by
  cases isVersion11 <;> decide

theorem space_notMem_name (method : Method) : space ∉ method.name := fun h =>
  absurd (Method.name_bytes h).1 (by decide)

theorem version_eq_iff {v : Bytes} : (v = httpVersion11 ∨ v = httpVersion10) ↔
    v = version (v == httpVersion11) := by
  constructor
  · rintro (rfl | rfl) <;> rfl
  · intro h
    rw [h, version]
    split_ifs <;> simp

theorem drop_version {line : View} {m target v : Bytes}
    (h : line.bytes = m ++ space :: (target ++ space :: v)) :
    line.bytes.drop (target.length + (m.length + 1) + 1) = v := by
  have := drop_succ_append_cons (m ++ space :: target) space v
  rw [h, ← this]
  simp [Nat.add_comm, Nat.add_left_comm]

theorem isEmpty_target {line : View} {m target rest : Bytes}
    (h : line.bytes = m ++ space :: (target ++ rest)) :
    (line.substr (m.length + 1) target.length).isEmpty = target.isEmpty := by
  rw [View.isEmpty, View.bytes_substr, h, drop_succ_append_cons, List.take_left]

/-- A request line is accepted iff it is a known method, a space, a non-empty target without
spaces, a space and one of the two versions. -/
theorem parseRequestLine_eq_ok_iff {line : View} {r : RequestLine} :
    parseRequestLine line = .ok r ↔ ∃ target,
      line.bytes = r.method.name ++ space :: (target ++ space :: version r.isVersion11) ∧
      r.method ∈ Method.all ∧ target ≠ [] ∧ space ∉ target ∧
      r.target = line.substr (r.method.name.length + 1) target.length := by
  simp only [parseRequestLine, bind_eq_ok, ensure_eq_ok, exists_const, orFail_eq_ok, pure_eq_ok,
    Option.isNone_iff_eq_none, Method.fromToken_eq_some_iff]
  constructor
  · rintro ⟨methodEnd, hm, -, targetEnd, ht, -, hne, method, ⟨hall, hname⟩, -, hv, rfl⟩
    obtain ⟨m, rest, hline, hspm, rfl⟩ := find_eq_some_iff.1 hm
    rw [hline, findFrom_append_cons, Option.map_eq_some_iff] at ht
    obtain ⟨j, hj, rfl⟩ := ht
    obtain ⟨target, v, rfl, hspt, rfl⟩ := find_eq_some_iff.1 hj
    have hdrop := drop_version hline
    have hlen : target.length + (m.length + 1) - m.length - 1 = target.length := by omega
    rw [hline, List.take_left] at hname
    subst hname
    simp only [hdrop, Bool.or_eq_true, beq_iff_eq] at hv
    rw [hlen, isEmpty_target hline] at hne
    refine ⟨target, ?_, hall, by simpa using hne, hspt, ?_⟩
    · simp only [hdrop, ← version_eq_iff.1 hv]
      exact hline
    · simp only [hlen]
  · rintro ⟨target, hline, hall, hne, hspt, htarget⟩
    obtain ⟨method, t, isVersion11⟩ := r
    simp only at hline hall htarget ⊢
    have hdrop := drop_version hline
    have hlen : target.length + (method.name.length + 1) - method.name.length - 1 =
        target.length := by omega
    refine ⟨method.name.length, ?_, ?_, target.length + (method.name.length + 1), ?_, ?_, ?_,
      method, ⟨hall, ?_⟩, ?_⟩
    · rw [hline]; exact find_append_cons (space_notMem_name method) _
    · simpa using Method.name_ne_nil hall
    · rw [hline, findFrom_append_cons, find_append_cons hspt]; rfl
    · rw [findFrom_eq_none_iff, hdrop]; exact space_notMem_version _
    · rw [hlen, isEmpty_target hline]; simpa using hne
    · rw [hline, List.take_left]
    · rw [hdrop, hlen, htarget]
      refine ⟨versionIsWellFormed_version _, ?_, ?_⟩
      · cases isVersion11 <;> decide
      · cases isVersion11 <;> rfl

/-! ### Field lines -/

namespace Grammar.FieldLine.WellFormed

variable {f : FieldLine}

/-- Every byte of a well-formed line but its colon is a token or a field value byte. -/
theorem mem_render (hf : f.WellFormed) {b : UInt8} (h : b ∈ f.render) :
    b ≠ CR ∧ b ≠ LF ∧ b ≠ 0 := by
  simp only [render, List.mem_append, List.mem_cons] at h
  rcases h with h | rfl | (h | h) | h
  · have := (isTokenCharacter_spec b (hf.name_token b h)).1
    refine ⟨?_, ?_, ?_⟩ <;> rintro rfl <;> revert this <;> decide
  · decide
  · exact isValidFieldValueByte_spec b (isValidFieldValueByte_of_ows b (hf.before_ows b h))
  · exact isValidFieldValueByte_spec b (hf.value_valid b h)
  · exact isValidFieldValueByte_spec b (isValidFieldValueByte_of_ows b (hf.after_ows b h))

theorem cr_notMem (hf : f.WellFormed) : CR ∉ f.render := fun h => (hf.mem_render h).1 rfl

theorem colon_notMem (hf : f.WellFormed) : byte ':' ∉ f.name := fun h =>
  (isTokenCharacter_spec _ (hf.name_token _ h)).2.2 rfl

theorem trimBytes_eq (hf : f.WellFormed) : trimBytes (f.before ++ f.value ++ f.after) = f.value :=
  trim_append hf.before_ows hf.after_ows hf.value_head hf.value_last

/-- A token does not start with whitespace. -/
theorem head_render (hf : f.WellFormed) (b : UInt8) (h : f.render.head? = some b) : 0x20 < b := by
  obtain ⟨x, xs, hx⟩ := List.exists_cons_of_ne_nil hf.name_ne_nil
  rw [render, hx, List.cons_append, List.head?_cons, Option.some.injEq] at h
  subst h
  exact (isTokenCharacter_spec x (hf.name_token x (hx ▸ List.mem_cons_self))).1

end Grammar.FieldLine.WellFormed

/-- A line is accepted iff it is the rendering of a well-formed field line. -/
theorem parseFieldLine_map_eq_ok_iff {line : View} {h : Header} :
    (parseFieldLine line).map (HeaderView.map View.bytes) = .ok h ↔
      ∃ f : FieldLine, f.WellFormed ∧ line.bytes = f.render ∧ h = f.header := by
  simp only [map_eq_ok, parseFieldLine, bind_eq_ok, ensure_eq_ok, exists_const, orFail_eq_ok,
    pure_eq_ok, List.all_eq_true]
  constructor
  · rintro ⟨_, ⟨-, colon, hcolon, hne, hname, hvalue, rfl⟩, rfl⟩
    obtain ⟨name, rest, hline, -, rfl⟩ := find_eq_some_iff.1 hcolon
    have hn : (line.substr 0 name.length).bytes = name := by simp [hline]
    have hv : (line.removePrefix (name.length + 1)).bytes = rest := by
      rw [View.bytes_removePrefix, hline, drop_succ_append_cons]
    obtain ⟨before, after, hrest, hb, ha, hh, hl⟩ :=
      exists_eq_append_trim isOptionalWhitespace rest
    simp only [trimOptionalWhitespace, hv] at hvalue
    refine ⟨⟨name, before, trimBytes rest, after⟩, ⟨?_, ?_, hb, ha, hvalue, hh, hl⟩, ?_, ?_⟩
    · simpa using hne
    · rwa [hn] at hname
    · rw [hline, FieldLine.render]
      conv_lhs => rw [hrest]
      rfl
    · simp only [HeaderView.map, FieldLine.header, hn, trimOptionalWhitespace, hv]
  · rintro ⟨f, hf, hline, rfl⟩
    have hn : (line.substr 0 f.name.length).bytes = f.name := by simp [hline, FieldLine.render]
    have hv : (line.removePrefix (f.name.length + 1)).bytes = f.before ++ f.value ++ f.after := by
      rw [View.bytes_removePrefix, hline, FieldLine.render, drop_succ_append_cons]
    have ht : (trimOptionalWhitespace (line.removePrefix (f.name.length + 1))).bytes = f.value := by
      rw [trimOptionalWhitespace, hv, hf.trimBytes_eq]
    refine ⟨_, ⟨?_, f.name.length, ?_, ?_, ?_, ?_, rfl⟩, ?_⟩
    · rw [hline]
      cases hhead : f.render.head? with
      | none => rfl
      | some b =>
        have hb := hf.head_render b hhead
        have h1 : b ≠ space := by rintro rfl; revert hb; decide
        have h2 : b ≠ horizontalTab := by rintro rfl; revert hb; decide
        simp [h1, h2]
    · rw [hline, FieldLine.render]
      exact find_append_cons hf.colon_notMem _
    · simpa using hf.name_ne_nil
    · rw [hn]; exact hf.name_token
    · rw [ht]; exact hf.value_valid
    · simp only [HeaderView.map, hn, ht, FieldLine.header]

theorem findSub_crlf {line : Bytes} (h : CR ∉ line) (rest : Bytes) :
    findSub crlf (line ++ crlf ++ rest) = some line.length :=
  findSub_append_of_notMem h rest

/-- The lines of a list of fields. -/
def fieldText (fields : List FieldLine) : Bytes := fields.flatMap fun f => f.render ++ crlf

/-- With no bytes left, the loop has read all its fields. -/
theorem ok_out_map_eq_ok_iff {maximum : ℕ} {v : View} {out : List (HeaderView View)}
    {hs : List Header} (hv : v.bytes = []) (hout : out.length ≤ maximum) :
    (Except.ok out : Except ParseError _).map (List.map (HeaderView.map View.bytes)) = .ok hs ↔
      ∃ fields : List FieldLine, (∀ f ∈ fields, f.WellFormed) ∧ v.bytes = fieldText fields ∧
        hs = out.map (HeaderView.map View.bytes) ++ fields.map FieldLine.header ∧
        out.length + fields.length ≤ maximum := by
  simp only [map_eq_ok, Except.ok.injEq, exists_eq_left']
  constructor
  · rintro rfl
    exact ⟨[], by simp, by simp [hv, fieldText], by simp, by simpa using hout⟩
  · rintro ⟨fields, -, htext, rfl, -⟩
    cases fields with
    | nil => simp
    | cons f fields => simp [hv, fieldText, crlf] at htext

/-- What is left after a line and its line break. -/
theorem removePrefix_line {v : View} {line rest : Bytes} (hv : v.bytes = line ++ crlf ++ rest) :
    (v.removePrefix (line.length + 2)).bytes = rest ∧
      (v.removePrefix (line.length + 2)).size < v.size := by
  have hlen : line.length + 2 = (line ++ crlf).length := by simp [crlf]
  have hdrop : (v.removePrefix (line.length + 2)).bytes = rest := by
    rw [View.bytes_removePrefix, hv, hlen, List.drop_left]
  refine ⟨hdrop, ?_⟩
  rw [View.size, View.size, hdrop, hv, List.length_append, ← hlen]
  omega

/-- The loop accepts exactly the renderings of well-formed field lines that fit the maximum. -/
theorem parseFieldLines_map_eq_ok_iff {maximum fuel : ℕ} {v : View} {hs : List Header}
    (out : List (HeaderView View)) (hfuel : v.size ≤ fuel) (hout : out.length ≤ maximum) :
    (parseFieldLines maximum fuel v out).map (List.map (HeaderView.map View.bytes)) = .ok hs ↔
      ∃ fields : List FieldLine, (∀ f ∈ fields, f.WellFormed) ∧ v.bytes = fieldText fields ∧
        hs = out.map (HeaderView.map View.bytes) ++ fields.map FieldLine.header ∧
        out.length + fields.length ≤ maximum := by
  induction fuel generalizing v out with
  | zero =>
    exact ok_out_map_eq_ok_iff (List.eq_nil_of_length_eq_zero (Nat.le_zero.1 hfuel)) hout
  | succ fuel ih =>
    rw [parseFieldLines]
    by_cases hempty : v.isEmpty = true
    · rw [if_pos hempty]
      exact ok_out_map_eq_ok_iff (by simpa [View.isEmpty] using hempty) hout
    · rw [if_neg hempty]
      simp only [map_eq_ok, bind_eq_ok, ensure_eq_ok, exists_const, orFail_eq_ok,
        decide_eq_true_eq]
      constructor
      · rintro ⟨hs', ⟨lineEnd, hend, field, hfield, hlt, hrest⟩, rfl⟩
        obtain ⟨line, rest, hv, rfl, -⟩ := (findSub_eq_some_iff (by decide)).1 hend
        have hline : (v.substr 0 line.length).bytes = line := by simp [hv]
        obtain ⟨f, hf, hr, hh⟩ := parseFieldLine_map_eq_ok_iff.1 (map_eq_ok.2 ⟨field, hfield, rfl⟩)
        obtain ⟨hdrop, hsize⟩ := removePrefix_line hv
        obtain ⟨fields, hfs, htext, hmap, hle⟩ := (ih (out ++ [field]) (by omega)
          (by simpa using hlt)).1 (map_eq_ok.2 ⟨hs', hrest, rfl⟩)
        refine ⟨f :: fields, ?_, ?_, ?_, ?_⟩
        · simpa using ⟨hf, hfs⟩
        · rw [hline] at hr
          rw [hdrop] at htext
          simp [hv, htext, fieldText, hr]
        · rw [hmap]
          simp [hh]
        · simp only [List.length_append, List.length_cons] at hle ⊢
          omega
      · rintro ⟨fields, hfs, htext, rfl, hle⟩
        cases fields with
        | nil => simp [View.isEmpty, htext, fieldText] at hempty
        | cons f fields =>
          obtain ⟨hf, hfs⟩ := List.forall_mem_cons.1 hfs
          have hv : v.bytes = f.render ++ crlf ++ fieldText fields := by rw [htext]; rfl
          have hline : (v.substr 0 f.render.length).bytes = f.render := by simp [hv]
          obtain ⟨hdrop, hsize⟩ := removePrefix_line hv
          obtain ⟨field, hfield, hh⟩ :=
            map_eq_ok.1 (parseFieldLine_map_eq_ok_iff.2 ⟨f, hf, hline, rfl⟩)
          simp only [List.length_cons] at hle
          obtain ⟨hs', hrest, hmap⟩ := map_eq_ok.1 ((ih (out ++ [field]) (by omega)
            (by simp; omega)).2 ⟨fields, hfs, hdrop, by simp [hh], by simp; omega⟩)
          refine ⟨hs', ⟨f.render.length, ?_, field, hfield, by omega, hrest⟩, hmap⟩
          rw [hv]
          exact findSub_crlf hf.cr_notMem _

theorem parseHeaderFields_map_eq_ok_iff {v : View} {maxHeaderCount : ℕ} {hs : List Header} :
    (parseHeaderFields v maxHeaderCount).map (List.map (HeaderView.map View.bytes)) = .ok hs ↔
      ∃ fields : List FieldLine, (∀ f ∈ fields, f.WellFormed) ∧ v.bytes = fieldText fields ∧
        hs = fields.map FieldLine.header ∧
        fields.length ≤ min maxHeaderCount kMaxParsedHeaders := by
  rw [parseHeaderFields, parseFieldLines_map_eq_ok_iff [] (le_refl v.size) (Nat.zero_le _)]
  simp only [List.map_nil, List.nil_append, List.length_nil, Nat.zero_add]

end ErikslundHttp
