import ErikslundHttp.Request.Authority
import ErikslundHttp.Request.LineSpecs

/-!
# The value scanners accept exactly their grammar

The counterpart of `LineSpecs` for what the fields and the target mean.

* `resolveContentLength_eq_ok_iff`: the declared body length.
* `resolveAuthority_map_eq_ok_iff`: the authority.
* `splitTarget_map_eq_ok_iff`: the two target forms.
* `pathIsCanonical_iff`: canonical paths.
* `decodeQueryInto_map_eq_ok_iff`: query parameters.
-/

namespace ErikslundHttp

open Scan Grammar

/-! ### Field values -/

@[simp] theorem fieldValues_nil (name : Bytes) : fieldValues name [] = [] := rfl

theorem fieldValues_cons (name : Bytes) (f : Header) (hs : List Header) :
    fieldValues name (f :: hs) =
      if equalsIgnoreCase f.name name then f.value :: fieldValues name hs
      else fieldValues name hs := by
  simp only [fieldValues, List.filter_cons]
  split_ifs <;> simp

/-! ### The body length -/

theorem parseDecimal_eq_ok_iff {text : Bytes} {n : ℕ} :
    parseDecimal text = .ok n ↔
      isCanonicalDecimal text = true ∧ decimalValue text = n ∧ n < 2 ^ 64 := by
  unfold parseDecimal
  split_ifs with h1 h2
  · simp only [Bool.not_eq_true', false_iff, not_and] at h1 ⊢
    simp [h1]
  · simp only [false_iff, not_and]
    rintro - rfl
    omega
  · simp only [Bool.not_eq_true', Bool.not_eq_false] at h1
    simp only [Except.ok.injEq, h1, true_and]
    constructor
    · rintro rfl; exact ⟨rfl, by omega⟩
    · exact fun h => h.1

/-- The two framing fields have different names. -/
theorem not_contentLength_of_transferEncoding {name : Bytes}
    (h : equalsIgnoreCase name (ascii "Transfer-Encoding") = true) :
    equalsIgnoreCase name (ascii "Content-Length") = false := by
  rw [Bool.eq_false_iff]
  intro h'
  exact absurd (equalsIgnoreCase_trans (equalsIgnoreCase_symm h) h') (by decide)

/-- The loop of `resolve_content_length` from a state in which `declared` was read already. -/
theorem declaredLength_eq_ok_iff {saw saw' : Bool} {declared declared' : Option ℕ}
    {hs : List Header} :
    declaredLength saw declared hs = .ok (saw', declared') ↔
      saw' = (saw || hs.any fun f => equalsIgnoreCase f.name (ascii "Transfer-Encoding")) ∧
      (∀ v ∈ fieldValues (ascii "Content-Length") hs, ∃ n, parseDecimal v = .ok n ∧
        declared' = some n) ∧
      (∀ n, declared = some n → declared' = some n) ∧
      (declared = none → fieldValues (ascii "Content-Length") hs = [] → declared' = none) := by
  induction hs generalizing saw declared with
  | nil =>
    simp only [declaredLength, Except.ok.injEq, Prod.mk.injEq, List.any_nil, Bool.or_false,
      fieldValues_nil, List.not_mem_nil, false_implies, implies_true, true_and, forall_const]
    constructor
    · rintro ⟨rfl, rfl⟩
      exact ⟨rfl, fun _ h => h, fun h => h⟩
    · rintro ⟨rfl, h1, h2⟩
      refine ⟨rfl, ?_⟩
      cases declared with
      | none => exact (h2 rfl).symm
      | some n => exact (h1 n rfl).symm
  | cons f hs ih =>
    rw [declaredLength, fieldValues_cons]
    by_cases hte : equalsIgnoreCase f.name (ascii "Transfer-Encoding") = true
    · rw [if_pos hte, ih]
      simp [hte, not_contentLength_of_transferEncoding hte]
    · by_cases hcl : equalsIgnoreCase f.name (ascii "Content-Length") = true
      · simp only [hte, hcl, Bool.not_true, Bool.false_eq_true, ↓reduceIte, List.any_cons,
          Bool.false_or, List.forall_mem_cons, reduceCtorEq, false_implies, implies_true, and_true]
        cases hp : parseDecimal f.value with
        | error e => cases e <;> simp
        | ok n =>
          -- a later field must repeat the length read so far
          by_cases hd : declared.any (· != n) = true
          · simp only [hd, ↓reduceIte, reduceCtorEq, Except.ok.injEq, false_iff]
            rintro ⟨-, ⟨⟨_, rfl, h1⟩, -⟩, h2⟩
            rw [Option.any_eq_true] at hd
            obtain ⟨m, rfl, hm⟩ := hd
            have := (h2 m rfl).symm.trans h1
            simp_all
          · simp only [hd, Bool.false_eq_true, ↓reduceIte, ih, Except.ok.injEq, Option.some.injEq,
              forall_eq', reduceCtorEq, false_implies, and_true, exists_eq_left']
            have hdn : ∀ m, declared = some m → m = n := by
              rintro m rfl
              simpa using hd
            constructor
            · rintro ⟨h0, h1, h2⟩
              exact ⟨h0, ⟨h2, h1⟩, fun m hm => hdn m hm ▸ h2⟩
            · rintro ⟨h0, ⟨h2, h1⟩, -⟩
              exact ⟨h0, h1, h2⟩
      · simp only [hte, hcl, Bool.not_false, Bool.false_eq_true, ↓reduceIte, ih, List.any_cons,
          Bool.false_or]

/-- The framing fields are accepted iff they declare a length within the limit. -/
theorem resolveContentLength_eq_ok_iff {headers : List Header} {maxBodyBytes n : ℕ}
    (hmax : maxBodyBytes < 2 ^ 64) :
    resolveContentLength headers maxBodyBytes = .ok n ↔
      DeclaresLength headers n ∧ n ≤ maxBodyBytes := by
  simp only [resolveContentLength, bind_eq_ok, ensure_eq_ok, exists_const, pure_eq_ok,
    Prod.exists, declaredLength_eq_ok_iff, Bool.false_or, reduceCtorEq, false_implies, implies_true,
    true_and, forall_const, Bool.not_eq_true', decide_eq_true_eq]
  constructor
  · rintro ⟨saw, declared, ⟨rfl, hcl, hnone⟩, hte, hle, rfl⟩
    refine ⟨⟨?_, fun v hv => ?_, fun h => by rw [hnone h]; rfl⟩, hle⟩
    · simpa using hte
    · obtain ⟨n, hp, rfl⟩ := hcl v hv
      obtain ⟨h1, h2, -⟩ := parseDecimal_eq_ok_iff.1 hp
      exact eq_toChars_iff.2 ⟨h1, h2⟩
  · rintro ⟨⟨hte, hcl, hnone⟩, hle⟩
    have hte' : (headers.any fun f => equalsIgnoreCase f.name (ascii "Transfer-Encoding")) =
        false := by simpa using hte
    by_cases h : fieldValues (ascii "Content-Length") headers = []
    · exact ⟨_, none, ⟨rfl, by simp [h], fun _ => rfl⟩, hte', by simp, (hnone h).symm⟩
    · refine ⟨_, some n, ⟨rfl, fun v hv => ⟨n, ?_, rfl⟩, fun h' => absurd h' h⟩, hte', hle, rfl⟩
      obtain ⟨h1, h2⟩ := eq_toChars_iff.1 (hcl v hv)
      exact parseDecimal_eq_ok_iff.2 ⟨h1, h2, by omega⟩

/-! ### The authority -/

/-- The loop of `resolve_authority` from a state in which `host` was read already. -/
theorem findHost_eq_ok_iff (host host' : Option View) {headers : List (HeaderView View)} :
    (findHost host headers).map (Option.map View.bytes) = .ok (host'.map View.bytes) ↔
      (host.map View.bytes).toList ++
          fieldValues (ascii "Host") (headers.map (HeaderView.map View.bytes)) =
        (host'.map View.bytes).toList := by
  induction headers generalizing host with
  | nil => cases host <;> cases host' <;> simp [findHost]
  | cons f headers ih =>
    simp only [findHost, List.map_cons, fieldValues_cons, HeaderView.map]
    by_cases hf : equalsIgnoreCase f.name.bytes (ascii "Host") = true
    · cases host with
      | none => simpa [hf] using ih (some f.value)
      | some host => cases host' <;> simp [hf]
    · simpa [hf] using ih host

theorem exists_findHost {headers : List (HeaderView View)}
    (h : (fieldValues (ascii "Host") (headers.map (HeaderView.map View.bytes))).length ≤ 1) :
    ∃ host, findHost none headers = .ok host ∧
      fieldValues (ascii "Host") (headers.map (HeaderView.map View.bytes)) =
        (host.map View.bytes).toList := by
  obtain ⟨host', hL⟩ : ∃ host' : Option View,
      fieldValues (ascii "Host") (headers.map (HeaderView.map View.bytes)) =
        (host'.map View.bytes).toList := by
    match fieldValues (ascii "Host") (headers.map (HeaderView.map View.bytes)), h with
    | [], _ => exact ⟨none, rfl⟩
    | [b], _ => exact ⟨some ⟨.null, b⟩, rfl⟩
  obtain ⟨host, hhost, heq⟩ :=
    map_eq_ok.1 ((findHost_eq_ok_iff none host').2 (by simpa using hL))
  exact ⟨host, hhost, by rw [hL, heq]⟩

/-- The authority of a request whose only `Host` fields are `host`. -/
theorem namesAuthority_iff {pton : InetPton} {headers : List Header} {isVersion11 : Bool}
    {targetAuthority authority : Bytes} {host : Option Bytes}
    (hhost : fieldValues (ascii "Host") headers = host.toList) :
    NamesAuthority pton headers isVersion11 targetAuthority authority ↔
      (isVersion11 = true → host ≠ none) ∧
      (∀ h, host = some h → Authority pton h) ∧
      (targetAuthority = [] → authority = host.getD []) ∧
      (targetAuthority ≠ [] → authority = targetAuthority ∧
        Authority pton targetAuthority ∧
        ∀ h, host = some h → equalsIgnoreCase h targetAuthority = true) := by
  constructor
  · rintro ⟨-, h2, h3, h4, h5⟩
    rw [hhost] at h2 h3 h4 h5
    cases host <;> simp_all
  · rintro ⟨h2, h3, h4, h5⟩
    constructor <;> rw [hhost] <;> cases host <;> simp_all

/-- The check of the only `Host` field. -/
theorem all_authorityIsWellFormed_iff {pton : InetPton} {host : Option View}
    (hnul : ∀ value ∈ (host.map View.bytes).toList, 0 ∉ value) :
    (host.all fun host => authorityIsWellFormed pton host.bytes) = true ↔
      ∀ value, host.map View.bytes = some value → Authority pton value := by
  cases host with
  | none => simp
  | some host =>
    have hhost : 0 ∉ host.bytes := hnul host.bytes (by simp)
    simp [authorityIsWellFormed_iff hhost]

/-- The authority is accepted iff the fields and the target name one; neither has a NUL. -/
theorem resolveAuthority_map_eq_ok_iff {pton : InetPton} {headers : List (HeaderView View)}
    {targetAuthority : View} {isVersion11 : Bool} {authority : Bytes}
    (hvalues : ∀ f ∈ headers.map (HeaderView.map View.bytes), 0 ∉ f.value)
    (htarget : 0 ∉ targetAuthority.bytes) :
    (resolveAuthority pton headers targetAuthority isVersion11).map View.bytes = .ok authority ↔
      NamesAuthority pton (headers.map (HeaderView.map View.bytes)) isVersion11
        targetAuthority.bytes authority := by
  have hnul : ∀ {host : Option View}, fieldValues (ascii "Host")
      (headers.map (HeaderView.map View.bytes)) = (host.map View.bytes).toList →
        ∀ value ∈ (host.map View.bytes).toList, 0 ∉ value := by
    intro host hhost value hvalue
    rw [← hhost] at hvalue
    obtain ⟨f, hf, rfl⟩ := List.mem_map.1 hvalue
    exact hvalues f (List.mem_filter.1 hf).1
  constructor
  · intro h
    simp only [resolveAuthority, map_eq_ok, bind_eq_ok, ensure_eq_ok, exists_const] at h
    obtain ⟨v, ⟨host, hhost, hv11, hwf, h⟩, rfl⟩ := h
    have hL : fieldValues (ascii "Host") (headers.map (HeaderView.map View.bytes)) =
        (host.map View.bytes).toList := by
      simpa using (findHost_eq_ok_iff none host).1 (map_eq_ok.2 ⟨host, hhost, rfl⟩)
    rw [all_authorityIsWellFormed_iff (hnul hL)] at hwf
    rw [namesAuthority_iff hL]
    have hta : targetAuthority.isEmpty = true ↔ targetAuthority.bytes = [] := by
      simp [View.isEmpty]
    split_ifs at h with hempty
    · rw [pure_eq_ok] at h
      subst h
      cases host <;> simp_all
    · simp only [bind_eq_ok, ensure_eq_ok, exists_const, pure_eq_ok,
        authorityIsWellFormed_iff htarget] at h
      obtain ⟨h1, h2, rfl⟩ := h
      cases host <;> simp_all
  · intro h
    obtain ⟨host, hhost, hL⟩ := exists_findHost h.host_unique
    rw [namesAuthority_iff hL] at h
    obtain ⟨h11, hwf, horigin, habs⟩ := h
    simp only [resolveAuthority, map_eq_ok, bind_eq_ok, ensure_eq_ok, exists_const]
    have hall := (all_authorityIsWellFormed_iff (hnul hL)).2 hwf
    by_cases hta : targetAuthority.bytes = []
    · refine ⟨host.getD default, ⟨host, hhost, ?_, hall, ?_⟩, ?_⟩
      · cases host <;> simp_all
      · simp [View.isEmpty, hta]
      · rw [horigin hta]
        cases host <;> rfl
    · obtain ⟨rfl, htwf, heq⟩ := habs hta
      refine ⟨targetAuthority, ⟨host, hhost, ?_, hall, ?_⟩, rfl⟩
      · cases host <;> simp_all
      · rw [if_neg (by simpa [View.isEmpty] using hta)]
        simp only [bind_eq_ok, ensure_eq_ok, exists_const, pure_eq_ok, and_true,
          authorityIsWellFormed_iff htarget]
        refine ⟨htwf, ?_⟩
        cases host <;> simp_all

/-! ### The target -/

theorem Grammar.PathAndQuery.unique {s path query path' query' : Bytes} (h : PathAndQuery s path query)
    (h' : PathAndQuery s path' query') : path' = path ∧ query' = query := by
  obtain ⟨hpath, ⟨rfl, rfl⟩ | rfl⟩ := h
  · obtain ⟨hpath', ⟨rfl, rfl⟩ | rfl⟩ := h'
    · exact ⟨rfl, rfl⟩
    · simp at hpath
  · obtain ⟨hpath', ⟨rfl, rfl⟩ | heq⟩ := h'
    · simp at hpath'
    · have hlen := find_append_cons hpath query
      rw [heq, find_append_cons hpath', Option.some.injEq] at hlen
      obtain ⟨rfl, h⟩ := List.append_inj heq hlen.symm
      exact ⟨rfl, (List.cons.inj h).2.symm⟩

theorem pathAndQuery_splitQuery (v : View) :
    PathAndQuery v.bytes (splitQuery v).1.bytes (splitQuery v).2.bytes := by
  unfold splitQuery
  split
  · rename_i h
    exact ⟨find_eq_none_iff.1 h, .inl ⟨rfl, rfl⟩⟩
  · rename_i i h
    obtain ⟨pre, post, hv, hpre, rfl⟩ := find_eq_some_iff.1 h
    rw [View.bytes_substr, View.bytes_removePrefix, hv, drop_succ_append_cons, List.drop_zero,
      List.take_left]
    exact ⟨hpre, .inr rfl⟩

/-- A scheme has no colon and does not start with a slash. -/
theorem scheme_spec {scheme : Bytes} (h : equalsIgnoreCase scheme (ascii "http") = true ∨
    equalsIgnoreCase scheme (ascii "https") = true) :
    byte ':' ∉ scheme ∧ ∀ rest, (scheme ++ rest).head? ≠ some (byte '/') := by
  simp only [equalsIgnoreCase_iff] at h
  constructor
  · intro hmem
    have := List.mem_map_of_mem (f := asciiToLower) hmem
    rcases h with h | h <;> rw [h] at this <;> revert this <;> decide
  · intro rest hhead
    cases scheme with
    | nil => rcases h with h | h <;> simp [ascii] at h
    | cons x xs =>
      rw [List.cons_append, List.head?_cons, Option.some.injEq] at hhead
      subst hhead
      rcases h with h | h <;> simp only [ascii, List.map_cons] at h <;>
       exact absurd (List.cons.inj h).1 (by decide)

/-- The authority and what follows it, as `splitAuthority` cuts them. -/
theorem cutAuthority_iff {remainder : View} {authority rest : Bytes} :
    ((remainder.substr 0 ((remainder.bytes.findIdx? endsAuthority).getD remainder.size)).bytes =
        authority ∧
      (match remainder.bytes.findIdx? endsAuthority with
        | none => default
        | some authorityEnd => remainder.removePrefix authorityEnd).bytes = rest) ↔
      remainder.bytes = authority ++ rest ∧ (∀ b ∈ authority, endsAuthority b = false) ∧
        ∀ b, rest.head? = some b → endsAuthority b = true := by
  rw [← cut_findIdx?_iff]
  cases h : remainder.bytes.findIdx? endsAuthority <;> simp [View.size]

theorem splitAuthority_map_eq_ok_iff {target : View} {authority rest : Bytes} :
    (splitAuthority target).map (Prod.map View.bytes View.bytes) = .ok (authority, rest) ↔
      ∃ scheme, target.bytes = scheme ++ (ascii "://" ++ (authority ++ rest)) ∧
        (equalsIgnoreCase scheme (ascii "http") = true ∨
          equalsIgnoreCase scheme (ascii "https") = true) ∧
        authority ≠ [] ∧ (∀ b ∈ authority, endsAuthority b = false) ∧
        (∀ b, rest.head? = some b → endsAuthority b = true) := by
  simp only [map_eq_ok, splitAuthority, bind_eq_ok, ensure_eq_ok, exists_const, orFail_eq_ok,
    pure_eq_ok, Bool.or_eq_true, Prod.map, Prod.mk.injEq]
  have hscheme3 : ∀ scheme : Bytes, scheme.length + 3 = (scheme ++ ascii "://").length := by
    simp [ascii]
  constructor
  · rintro ⟨_, ⟨schemeEnd, hend, hscheme, hne, rfl⟩, hr⟩
    obtain ⟨scheme, remainder, htarget, rfl, -⟩ := (findSub_eq_some_iff (by decide)).1 hend
    have hs : (target.substr 0 scheme.length).bytes = scheme := by simp [htarget]
    have hrem : (target.removePrefix (scheme.length + 3)).bytes = remainder := by
      rw [View.bytes_removePrefix, htarget, hscheme3, List.drop_left]
    obtain ⟨hcut, hstop, hrest⟩ := cutAuthority_iff.1 hr
    rw [hrem] at hcut
    refine ⟨scheme, ?_, hs ▸ hscheme, ?_, hstop, hrest⟩
    · rw [htarget, hcut, List.append_assoc]
    · rw [← hr.1]
      simpa [View.isEmpty] using hne
  · rintro ⟨scheme, htarget, hscheme, hne, hstop, hrest⟩
    have hs : (target.substr 0 scheme.length).bytes = scheme := by simp [htarget]
    have hrem : (target.removePrefix (scheme.length + 3)).bytes = authority ++ rest := by
      rw [View.bytes_removePrefix, htarget, ← List.append_assoc, hscheme3, List.drop_left]
    have hcut := cutAuthority_iff.2 ⟨hrem, hstop, hrest⟩
    refine ⟨_, ⟨scheme.length, ?_, ?_, ?_, rfl⟩, hcut⟩
    · rw [htarget, ← List.append_assoc]
      exact findSub_append_of_notMem (scheme_spec hscheme).1 _
    · rwa [hs]
    · rw [View.isEmpty, hcut.1]
      simpa using hne

theorem endsAuthority_eq_false_iff {b : UInt8} :
    endsAuthority b = false ↔ b ≠ byte '/' ∧ b ≠ byte '?' := by
  simp [endsAuthority]

/-- What follows an authority starts with the path, if it has one. -/
theorem rest_head_iff {rest path query : Bytes} (h : PathAndQuery rest path query) :
    (∀ b, rest.head? = some b → endsAuthority b = true) ↔
      path = [] ∨ path.head? = some (byte '/') := by
  obtain ⟨hpath, h⟩ := h
  cases path with
  | nil => rcases h with ⟨rfl, -⟩ | rfl <;> simp [endsAuthority]
  | cons x path =>
    have hne : x ≠ byte '?' := by rintro rfl; simp at hpath
    have hhead : rest.head? = some x := by rcases h with ⟨rfl, -⟩ | rfl <;> rfl
    simp [hhead, endsAuthority, hne]

/-- The strings of the parts of a target. -/
def TargetParts.bytes (parts : TargetParts) : Bytes × Bytes × Bytes :=
  (parts.path.bytes, parts.query.bytes, parts.authority.bytes)

theorem splitPath_map_eq_ok_iff {authority remainder : View} {parts : Bytes × Bytes × Bytes} :
    (splitPath authority remainder).map TargetParts.bytes = .ok parts ↔
      ∃ path query, PathAndQuery remainder.bytes path query ∧
        (path = [] ∨ path.head? = some (byte '/')) ∧
        parts = (if path = [] then ascii "/" else path, query, authority.bytes) := by
  have hpq := pathAndQuery_splitQuery remainder
  simp only [splitPath, map_eq_ok, View.isEmpty, List.isEmpty_iff]
  constructor
  · rintro ⟨r, h, rfl⟩
    refine ⟨_, _, hpq, ?_⟩
    split_ifs at h ⊢ with hempty
    · rw [pure_eq_ok] at h
      subst h
      exact ⟨.inl hempty, rfl⟩
    · simp only [bind_eq_ok, ensure_eq_ok, exists_const, pure_eq_ok, beq_iff_eq] at h
      obtain ⟨h, rfl⟩ := h
      exact ⟨.inr h, rfl⟩
  · rintro ⟨path, query, hpq', hpath, rfl⟩
    obtain ⟨rfl, rfl⟩ := hpq.unique hpq'
    split_ifs with hempty
    · exact ⟨_, rfl, rfl⟩
    · have hhead := hpath.resolve_left hempty
      refine ⟨⟨(splitQuery remainder).1, (splitQuery remainder).2, authority⟩, ?_, rfl⟩
      simp only [bind_eq_ok, ensure_eq_ok, exists_const, pure_eq_ok, beq_iff_eq]
      exact ⟨hhead, trivial⟩

/-- A target is accepted iff its bytes are valid and it has one of the two forms. -/
theorem splitTarget_map_eq_ok_iff {target : View} {path query authority : Bytes} :
    (splitTarget target).map TargetParts.bytes = .ok (path, query, authority) ↔
      (∀ b ∈ target.bytes, isValidTargetByte b = true) ∧
      TargetForm target.bytes path query authority := by
  simp only [splitTarget, map_eq_ok, bind_eq_ok, ensure_eq_ok, exists_const, List.all_eq_true]
  constructor
  · rintro ⟨parts, ⟨hvalid, h⟩, hparts⟩
    refine ⟨hvalid, ?_⟩
    split_ifs at h with hslash
    · obtain ⟨p, q, hpq, hp, heq⟩ := splitPath_map_eq_ok_iff.1 (map_eq_ok.2 ⟨_, h, hparts⟩)
      cases heq
      have hne : p ≠ [] := by
        rintro rfl
        rcases hpq with ⟨-, ⟨hr, -⟩ | hr⟩
        · simp [hr] at hslash
        · rw [hr, List.nil_append, List.head?_cons] at hslash
          exact absurd hslash (by decide)
      rw [if_neg hne]
      exact .origin hpq (hp.resolve_left hne)
    · rw [bind_eq_ok] at h
      obtain ⟨⟨a, r⟩, ha, h⟩ := h
      obtain ⟨p, q, hpq, hp, heq⟩ := splitPath_map_eq_ok_iff.1 (map_eq_ok.2 ⟨_, h, hparts⟩)
      cases heq
      obtain ⟨scheme, ht, hs, hne, hstop, -⟩ :=
        splitAuthority_map_eq_ok_iff.1 (map_eq_ok.2 ⟨_, ha, rfl⟩)
      rw [ht]
      exact .absolute hs hne (fun b hb => endsAuthority_eq_false_iff.1 (hstop b hb)) hpq hp
  · rintro ⟨hvalid, hform⟩
    generalize htarget : target.bytes = t at hform hvalid ⊢
    cases hform with
    | origin hpq hpath =>
      have hne : path ≠ [] := by rintro rfl; simp at hpath
      have hslash : t.head? = some (byte '/') := by
        rcases hpq with ⟨-, ⟨rfl, -⟩ | rfl⟩
        · exact hpath
        · rw [List.head?_append, hpath]; rfl
      obtain ⟨parts, h, hparts⟩ := map_eq_ok.1 (splitPath_map_eq_ok_iff.2
        ⟨path, query, htarget ▸ hpq, .inr hpath, rfl⟩)
      refine ⟨parts, ⟨hvalid, ?_⟩, hparts.trans (by rw [if_neg hne, View.bytes_default])⟩
      simpa [hslash] using h
    | @absolute scheme _ rest p _ hs hne hstop hpq hpath =>
      obtain ⟨⟨a, r⟩, ha, heq⟩ := map_eq_ok.1 (splitAuthority_map_eq_ok_iff.2 ⟨scheme, htarget, hs,
        hne, fun b hb => endsAuthority_eq_false_iff.2 (hstop b hb), (rest_head_iff hpq).2 hpath⟩)
      simp only [Prod.map, Prod.mk.injEq] at heq
      obtain ⟨rfl, rfl⟩ := heq
      obtain ⟨parts, h, hparts⟩ := map_eq_ok.1 (splitPath_map_eq_ok_iff.2
        ⟨p, query, hpq, hpath, rfl⟩)
      refine ⟨parts, ⟨hvalid, ?_⟩, hparts⟩
      rw [if_neg fun h => (scheme_spec hs).2 _ (beq_iff_eq.1 h), bind_eq_ok]
      exact ⟨_, ha, h⟩

/-! ### The path -/

theorem segmentsAreCanonical_iff {segments : List Bytes} :
    segmentsAreCanonical segments = true ↔ (∀ s ∈ segments.dropLast, s ≠ []) ∧
      ∀ s ∈ segments, s ≠ ascii "." ∧ s ≠ ascii ".." ∧ byte '%' ∉ s := by
  fun_induction segmentsAreCanonical segments with
  | case1 => simp
  | case2 last =>
    by_cases h : last = []
    · subst h; decide
    · simp [segmentIsCanonical, h, and_assoc]
  | case3 segment rest hrest ih =>
    have hdl : (segment :: rest).dropLast = segment :: rest.dropLast := by
      cases rest with
      | nil => exact absurd rfl (hrest)
      | cons => rfl
    simp only [Bool.and_eq_true, ih, hdl, List.forall_mem_cons, segmentIsCanonical]
    simp
    tauto

theorem pathIsCanonical_iff {path : Bytes} : pathIsCanonical path = true ↔ CanonicalPath path := by
  unfold pathIsCanonical
  split_ifs with h
  · simp only [Bool.or_eq_true, bne_iff_ne, List.contains_iff_mem] at h
    simp only [false_iff]
    rintro ⟨h1, h2, -, -⟩
    exact h.elim (fun h => h h1) h2
  · simp only [Bool.or_eq_true, bne_iff_ne, List.contains_iff_mem, not_or, not_not] at h
    rw [segmentsAreCanonical_iff]
    constructor
    · rintro ⟨h1, h2⟩
      exact ⟨h.1, h.2, h1, h2⟩
    · rintro ⟨-, -, h1, h2⟩
      exact ⟨h1, h2⟩

/-! ### Query parameters -/

theorem decodes_escape_iff {raw decoded : Bytes} :
    Decodes (byte '%' :: raw) decoded ↔ ∃ (high low highValue lowValue : UInt8) (rest rest' : Bytes),
      raw = high :: low :: rest ∧ hexValue high = some highValue ∧ hexValue low = some lowValue ∧
      (0x20 : UInt8) ≤ (highValue <<< 4) ||| lowValue ∧ (highValue <<< 4) ||| lowValue ≠ 0x7F ∧
      Decodes rest rest' ∧ decoded = ((highValue <<< 4) ||| lowValue) :: rest' := by
  constructor
  · intro h
    cases h with
    | plain _ he => exact absurd rfl he
    | escape hhigh hlow hb hc h =>
      subst hb
      exact ⟨_, _, _, _, _, _, rfl, hhigh, hlow, hc.1, hc.2, h, rfl⟩
  · rintro ⟨high, low, highValue, lowValue, rest, rest', rfl, hhigh, hlow, hc, hd, h, rfl⟩
    exact .escape hhigh hlow rfl ⟨hc, hd⟩ h

/-- Decoding appends what the component decodes to, if it does. -/
theorem decodeQueryComponentInto_eq_some_iff {arena raw out : Bytes} :
    decodeQueryComponentInto arena raw = some out ↔
      ∃ decoded, Decodes raw decoded ∧ out = arena ++ decoded := by
  fun_induction decodeQueryComponentInto arena raw with
  | case1 arena =>
    constructor
    · rintro ⟨⟩
      exact ⟨[], .nil, by simp⟩
    · rintro ⟨_, ⟨⟩, rfl⟩
      simp
  | case2 arena character rest hplus ih =>
    obtain rfl : character = byte '+' := by simpa using hplus
    rw [ih]
    constructor
    · rintro ⟨decoded, h, rfl⟩
      exact ⟨_, h.plus, by simp⟩
    · rintro ⟨_, h, rfl⟩
      cases h with
      | plus h => exact ⟨_, h, by simp⟩
      | plain hp => exact absurd rfl hp
  | case3 arena character rest hplus hescape ih =>
    simp only [beq_iff_eq, bne_iff_ne] at hplus hescape
    rw [ih]
    constructor
    · rintro ⟨decoded, h, rfl⟩
      exact ⟨_, h.plain hplus hescape, by simp⟩
    · rintro ⟨_, h, rfl⟩
      cases h with
      | plus => exact absurd rfl hplus
      | plain _ _ h => exact ⟨_, h, by simp⟩
      | escape => exact absurd rfl hescape
  | case4 arena character _ hescape high low rest highValue lowValue hlow hhigh decoded hc =>
    obtain rfl : character = byte '%' := by simpa using hescape
    simp only [reduceCtorEq, decodes_escape_iff, false_iff]
    rintro ⟨_, ⟨_, _, _, _, _, _, ⟨⟩, hhigh', hlow', hle, hne, _⟩, _⟩
    rw [hhigh, Option.some.injEq] at hhigh'
    rw [hlow, Option.some.injEq] at hlow'
    subst hhigh' hlow'
    simp [decoded, hne, UInt8.not_lt.2 hle] at hc
  | case5 arena character _ hescape high low rest highValue lowValue hlow hhigh decoded hc ih =>
    obtain rfl : character = byte '%' := by simpa using hescape
    simp only [Bool.or_eq_true, decide_eq_true_eq, beq_iff_eq, not_or, UInt8.not_lt] at hc
    rw [ih]
    constructor
    · rintro ⟨decoded, h, rfl⟩
      exact ⟨_, .escape hhigh hlow rfl hc h, by rw [List.append_assoc]; rfl⟩
    · simp only [decodes_escape_iff]
      rintro ⟨_, ⟨_, _, _, _, _, rest', ⟨⟩, hhigh', hlow', -, -, h, rfl⟩, rfl⟩
      rw [hhigh, Option.some.injEq] at hhigh'
      rw [hlow, Option.some.injEq] at hlow'
      subst hhigh' hlow'
      exact ⟨rest', h, by simp [decoded]⟩
  | case6 arena character _ hescape high low rest hhex =>
    obtain rfl : character = byte '%' := by simpa using hescape
    simp only [reduceCtorEq, decodes_escape_iff, false_iff]
    rintro ⟨_, ⟨_, _, _, _, _, _, ⟨⟩, hhigh, hlow, _⟩, _⟩
    exact hhex _ _ hhigh hlow
  | case7 arena character rest _ hescape hshort =>
    obtain rfl : character = byte '%' := by simpa using hescape
    simp only [reduceCtorEq, decodes_escape_iff, false_iff]
    rintro ⟨_, ⟨_, _, _, _, _, _, rfl, _⟩, _⟩
    exact hshort _ _ _ rfl
/-- The cut of a pair at its first `=`. -/
theorem nameAndValue_eq (pair : Bytes) : nameAndValue pair = splitPair pair := by
  rw [nameAndValue, splitPair]
  cases hfind : find (byte '=') pair with
  | none =>
    have hne : ∀ b ∈ pair, b ≠ byte '=' := fun b hb heq => find_eq_none_iff.1 hfind (heq ▸ hb)
    dsimp only
    rw [List.takeWhile_eq_self_iff.2 (by simpa using hne),
      List.dropWhile_eq_nil_iff.2 (by simpa using hne)]
    rfl
  | some assignment =>
    obtain ⟨name, value, rfl, hname, rfl⟩ := find_eq_some_iff.1 hfind
    have hne : ∀ b ∈ name, (decide (b ≠ byte '=')) = true := fun b hb =>
      decide_eq_true fun heq => hname (heq ▸ hb)
    dsimp only
    rw [List.takeWhile_append_of_pos hne, List.dropWhile_append_of_pos hne, drop_succ_append_cons,
      List.take_left]
    simp

/-- The loop of `decode_query_into` accepts exactly the pairs that decode and fit the maximum. -/
theorem decodePairsInto_map_eq_ok_iff {pairs : List Bytes} {arena' : Bytes}
    {parameters : List Header} (arena : Bytes) (out : List (HeaderView View))
    (hout : out.length ≤ kMaxParsedHeaders) :
    (decodePairsInto arena out pairs).map (Prod.map id (List.map (HeaderView.map View.bytes))) =
        .ok (arena', parameters) ↔
      ∃ ps : List Header, List.Forall₂ DecodesPair (namedPairs pairs) ps ∧
        out.length + ps.length ≤ kMaxParsedHeaders ∧
        arena' = arena ++ ps.flatMap (fun p => p.name ++ p.value) ∧
        parameters = out.map (HeaderView.map View.bytes) ++ ps := by
  induction pairs generalizing arena out with
  | nil =>
    simp only [decodePairsInto, map_eq_ok, Except.ok.injEq, exists_eq_left', Prod.map_apply, id_eq,
      Prod.mk.injEq, namedPairs, List.map_nil, List.filter_nil, List.forall₂_nil_left_iff,
      exists_eq_left, List.flatMap_nil, List.append_nil, List.length_nil, Nat.add_zero, hout,
      true_and]
    constructor <;> (rintro ⟨rfl, rfl⟩; exact ⟨rfl, rfl⟩)
  | cons pair pairs ih =>
    rw [decodePairsInto]
    by_cases hname : (splitPair pair).1.isEmpty = true
    · simp only [hname, if_true, ih arena out hout]
      simp [namedPairs, nameAndValue_eq, hname]
    · have hnamed : namedPairs (pair :: pairs) = splitPair pair :: namedPairs pairs := by
        simp [namedPairs, nameAndValue_eq, hname]
      simp only [hname, Bool.false_eq_true, if_false, map_eq_ok, bind_eq_ok, ensure_eq_ok,
        exists_const, orFail_eq_ok, decodeQueryComponentInto_eq_some_iff, bne_iff_ne, hnamed,
        List.forall₂_cons_left_iff]
      constructor
      · rintro ⟨r, ⟨hne, _, ⟨dn, hdn, rfl⟩, _, ⟨dv, hdv, rfl⟩, hrest⟩, hr⟩
        obtain ⟨ps, hps, hle, rfl, rfl⟩ := (ih _ _ (by simp; omega)).1
          (map_eq_ok.2 ⟨r, hrest, hr⟩)
        refine ⟨⟨dn, dv⟩ :: ps, ⟨_, _, ⟨hdn, hdv⟩, hps, rfl⟩, ?_, ?_, ?_⟩
        · simp at hle ⊢; omega
        · simp
        · simp [HeaderView.map]
      · rintro ⟨_, ⟨⟨dn, dv⟩, ps, ⟨hdn, hdv⟩, hps, rfl⟩, hle, rfl, rfl⟩
        simp only [List.length_cons] at hle
        let field : HeaderView View :=
          ⟨⟨.arena arena.length, dn⟩, ⟨.arena (arena ++ dn).length, dv⟩⟩
        obtain ⟨r, hrest, hr⟩ := map_eq_ok.1 <|
          (ih (arena ++ dn ++ dv) (out ++ [field]) (by simp; omega)).2
            ⟨ps, hps, by simp; omega, by simp, by simp [field, HeaderView.map]⟩
        refine ⟨r, ⟨by omega, _, ⟨dn, hdn, rfl⟩, _, ⟨dv, hdv, rfl⟩, ?_⟩, hr⟩
        rw [← hrest]
        simp [field]

theorem decodeQueryInto_map_eq_ok_iff {query arena : Bytes} {parameters : List Header} :
    (decodeQueryInto [] query).map (Prod.map id (List.map (HeaderView.map View.bytes))) =
        .ok (arena, parameters) ↔
      QueryParameters query parameters ∧ arena = parameters.flatMap fun p => p.name ++ p.value := by
  rw [decodeQueryInto, decodePairsInto_map_eq_ok_iff [] [] (Nat.zero_le _)]
  simp only [List.length_nil, Nat.zero_add, List.nil_append, List.map_nil]
  constructor
  · rintro ⟨ps, hps, hle, harena, rfl⟩
    exact ⟨⟨hle, hps⟩, harena⟩
  · rintro ⟨⟨hle, hps⟩, harena⟩
    exact ⟨parameters, hps, hle, harena, rfl⟩

end ErikslundHttp
