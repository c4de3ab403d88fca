import ErikslundHttp.Request.ValueSpecs

/-!
# The parser accepts exactly its grammar

* `findHead_map_eq_ok_iff` assembles the specifications of the scanners: a head is accepted if and
  only if the bytes start with the rendering of a well-formed `Head`, and the parser then has the
  request that the syntax tree describes.
* `parse_request_accepts_exactly_the_grammar` adds the body.
-/

namespace ErikslundHttp

open Scan Grammar

/-! ### Where the head is cut -/

theorem crlf_append_fieldText (fields : List FieldLine) :
    crlf ++ fieldText fields = (fields.map FieldLine.render).flatMap (crlf ++ ·) ++ crlf := by
  induction fields with
  | nil => rfl
  | cons f fields ih =>
    have : fieldText (f :: fields) = f.render ++ (crlf ++ fieldText fields) := by
      simp [fieldText]
    rw [this, ih]
    simp

/-- An empty line in the bytes cuts them into a line, the field lines and the rest. -/
theorem exists_cut_of_terminator {s : Bytes} {t : ℕ} (h : findSub headerTerminator s = some t) :
    ∃ line text rest, findSub crlf s = some line.length ∧
      s = line ++ crlf ++ text ++ crlf ++ rest ∧ t + 2 = (line ++ crlf ++ text).length := by
  obtain ⟨pre, rest, hs, rfl, -⟩ := (findSub_eq_some_iff (by decide)).1 h
  have hs' : s = pre ++ crlf ++ (crlf ++ rest) := by simp [hs, headerTerminator]
  obtain ⟨e, he⟩ : ∃ e, findSub crlf s = some e := by
    rw [← Option.ne_none_iff_exists', ne_eq, findSub_eq_none_iff, not_not, hs']
    exact ⟨pre, _, rfl⟩
  have hle := findSub_le (by decide) he hs'
  obtain ⟨line, tail, hline, rfl, -⟩ := (findSub_eq_some_iff (by decide)).1 he
  obtain ⟨text, htext⟩ : line ++ crlf <+: pre ++ crlf :=
    List.prefix_of_prefix_length_le ⟨tail, hline.symm⟩ ⟨_, hs'.symm⟩ (by simpa using hle)
  refine ⟨line, text, rest, he, ?_, ?_⟩
  · rw [hs', ← htext]
    simp
  · rw [htext]
    simp [crlf]

/-- The cuts of a rendered head. -/
theorem findSub_headerTerminator {line : Bytes} {fields : List FieldLine} (hline : CR ∉ line)
    (hfields : ∀ f ∈ fields, f.WellFormed) (rest : Bytes) :
    ∃ t, findSub headerTerminator (line ++ crlf ++ fieldText fields ++ crlf ++ rest) = some t ∧
      t + 2 = (line ++ crlf ++ fieldText fields).length := by
  have hrot : line ++ crlf ++ fieldText fields =
      line ++ (fields.map FieldLine.render).flatMap ([CR, LF] ++ ·) ++ crlf := by
    rw [List.append_assoc, crlf_append_fieldText, List.append_assoc]
    rfl
  have hlines : ∀ l ∈ fields.map FieldLine.render, l ≠ [] ∧ CR ∉ l := by
    intro l hl
    obtain ⟨f, hf, rfl⟩ := List.mem_map.1 hl
    exact ⟨by simp [FieldLine.render], (hfields f hf).cr_notMem⟩
  have hfind := findSub_blank_line (c := CR) (n := LF) (by decide) hline hlines rest
  rw [hrot]
  refine ⟨_, (congrArg (findSub _) ?_).trans hfind, ?_⟩
  · simp [crlf]
  · simp [crlf, Nat.add_assoc]

/-! ### The head -/

theorem version_bytes (isVersion11 : Bool) : ∀ b ∈ version isVersion11, 0x20 ≤ b := by
  cases isVersion11 <;> decide +kernel

namespace Grammar.Head

variable {pton : InetPton} {limits : RequestLimits} {h : Head}

theorem WellFormed.target_ne_nil (hwf : h.WellFormed pton limits) : h.target ≠ [] := by
  have hform := hwf.target_form
  generalize h.target = target, h.path = path, h.query = query, h.targetAuthority = authority at hform
  cases hform with
  | origin hpq hpath =>
    rintro rfl
    rcases hpq with ⟨-, ⟨rfl, -⟩ | h⟩
    · simp at hpath
    · simp at h
  | absolute => simp [ascii]

/-- No byte of a request line is a control byte. -/
theorem WellFormed.mem_requestLine (hwf : h.WellFormed pton limits) {b : UInt8}
    (hb : b ∈ h.requestLine) : 0x20 ≤ b := by
  simp only [requestLine, List.mem_append, List.mem_cons] at hb
  rcases hb with hb | rfl | hb | rfl | hb
  · exact UInt8.le_trans (by decide) (Method.name_bytes hb).1
  · decide
  · exact UInt8.le_of_lt (isValidTargetByte_spec b (hwf.target_valid b hb)).1
  · decide
  · exact version_bytes _ b hb

theorem block_eq (h : Head) : h.block = h.requestLine ++ crlf ++ fieldText h.fields ++ crlf := rfl

theorem WellFormed.cr_notMem_requestLine (hwf : h.WellFormed pton limits) : CR ∉ h.requestLine :=
  fun hcr => absurd (hwf.mem_requestLine hcr) (by decide)

theorem WellFormed.space_notMem_target (hwf : h.WellFormed pton limits) : space ∉ h.target :=
  fun hs => absurd (isValidTargetByte_spec _ (hwf.target_valid _ hs)).1 (by decide)

end Grammar.Head

/-- No field has a NUL. -/
theorem nul_notMem_value {fields : List FieldLine} (h : ∀ f ∈ fields, f.WellFormed) :
    ∀ f ∈ fields.map FieldLine.header, 0 ∉ f.value := by
  intro f hf hnul
  obtain ⟨line, hline, rfl⟩ := List.mem_map.1 hf
  exact absurd ((h line hline).value_valid 0 hnul) (by decide)

/-- No target has a NUL. -/
theorem Grammar.TargetForm.nul_notMem {target path query authority : Bytes}
    (h : TargetForm target path query authority)
    (hvalid : ∀ b ∈ target, isValidTargetByte b = true) : 0 ∉ authority := by
  cases h with
  | origin => exact List.not_mem_nil
  | absolute =>
    intro hnul
    exact absurd (hvalid 0 (by simp [hnul])) (by decide)

/-- The request line and the field lines of a head that was cut. -/
theorem substr_of_cut {v : View} {line text rest : Bytes} {t : ℕ}
    (hv : v.bytes = line ++ crlf ++ text ++ crlf ++ rest)
    (ht : t + 2 = (line ++ crlf ++ text).length) :
    (v.substr 0 line.length).bytes = line ∧
      (v.substr (line.length + 2) (t + 2 - (line.length + 2))).bytes = text := by
  have h1 : line.length + 2 = (line ++ crlf).length := by simp
  have h2 : t + 2 - (line ++ crlf).length = text.length := by
    rw [ht, List.length_append, Nat.add_sub_cancel_left]
  refine ⟨by simp [hv], ?_⟩
  rw [View.bytes_substr, hv, h1, h2, List.append_assoc, List.append_assoc, List.drop_left,
    List.take_left]

/-- The parts of a head that was cut are accepted iff they render a well-formed head. -/
theorem parseHeadAt_map_eq_ok_iff {pton : InetPton} {v : View} {limits : RequestLimits}
    {line text rest : Bytes} {t n : ℕ} {r : Request Bytes} (now : TimePoint) (prologue : Bool)
    (hv : v.bytes = line ++ crlf ++ text ++ crlf ++ rest)
    (ht : t + 2 = (line ++ crlf ++ text).length)
    (hline : line.length ≤ limits.maxRequestLineBytes.toNat)
    (hblock : t + 4 ≤ limits.maxHeaderBlockBytes.toNat) :
    (parseHeadAt pton now v limits line.length t).map (Prod.map (Request.map View.bytes) id) =
        .ok (r, n) ↔
      ∃ h : Head, h.prologue = prologue ∧ h.WellFormed pton limits ∧ h.requestLine = line ∧
        fieldText h.fields = text ∧ r = h.request now ∧ n = h.contentLength := by
  obtain ⟨hl, htext⟩ := substr_of_cut hv ht
  have hmax := limits.maxBodyBytes.toNat_lt
  simp only [parseHeadAt, map_eq_ok, bind_eq_ok, ensure_eq_ok, exists_const, pure_eq_ok,
    decide_eq_true_eq, resolveContentLength_eq_ok_iff hmax, pathIsCanonical_iff]
  constructor
  · rintro ⟨_, ⟨⟨method, target, isVersion11⟩, hrl, htl, headers, hheaders, cl, ⟨hdl, hcl⟩,
      ⟨path, query, ta⟩, hparts, authority, hauth, hpath, ⟨arena, params⟩, hquery, rfl⟩, heq⟩
    obtain ⟨tbytes, hrl, hm, -, -, htarget⟩ := parseRequestLine_eq_ok_iff.1 hrl
    dsimp only at hrl hm htarget htl hparts hauth hpath hquery heq
    obtain ⟨fields, hfields, hft, hhs, hcount⟩ :=
      parseHeaderFields_map_eq_ok_iff.1 (map_eq_ok.2 ⟨headers, hheaders, rfl⟩)
    obtain ⟨hvalid, hform⟩ := splitTarget_map_eq_ok_iff.1 (map_eq_ok.2 ⟨_, hparts, rfl⟩)
    have hna := (resolveAuthority_map_eq_ok_iff (hhs ▸ nul_notMem_value hfields)
      (hform.nul_notMem hvalid)).1 (map_eq_ok.2 ⟨authority, hauth, rfl⟩)
    obtain ⟨hqp, rfl⟩ :=
      decodeQueryInto_map_eq_ok_iff.1 (map_eq_ok.2 ⟨(arena, params), hquery, rfl⟩)
    have htb : target.bytes = tbytes := by
      rw [htarget, View.bytes_substr, hrl, drop_succ_append_cons, List.take_left]
    rw [hl] at hrl
    rw [htext] at hft
    subst htb
    rw [hhs] at hdl hna heq
    let h : Head := ⟨prologue, method, target.bytes, isVersion11, fields, path.bytes, query.bytes,
      ta.bytes, authority.bytes, params.map (HeaderView.map View.bytes), cl⟩
    have hrl' : h.requestLine = line := hrl.symm
    have hft' : fieldText h.fields = text := hft.symm
    obtain ⟨hr, hn⟩ := Prod.mk.inj heq
    refine ⟨h, rfl, ⟨hm, hfields, hcount, ?_, htl, ?_, hdl, hcl, hvalid, hform, hna, hpath, hqp⟩,
      hrl', hft', ?_, hn.symm⟩
    · rwa [hrl']
    · rw [Head.block_eq, hrl', hft', List.length_append, ← ht]
      simpa [crlf] using hblock
    · rw [← hr, Request.map, hhs]
      rfl
  · rintro ⟨h, rfl, hwf, rfl, rfl, rfl, rfl⟩
    set target := (v.substr 0 h.requestLine.length).substr (h.method.name.length + 1)
      h.target.length with htarget
    have htb : target.bytes = h.target := by
      rw [htarget, View.bytes_substr, hl, Head.requestLine, drop_succ_append_cons, List.take_left]
    obtain ⟨headers, hheaders, hhs⟩ := map_eq_ok.1 (parseHeaderFields_map_eq_ok_iff.2
      ⟨h.fields, hwf.fields_wf, htext, rfl, hwf.fields_count⟩)
    change _ = h.headers at hhs
    obtain ⟨parts, hparts, hpb⟩ := map_eq_ok.1 (splitTarget_map_eq_ok_iff.2
      ⟨htb ▸ hwf.target_valid, htb ▸ hwf.target_form⟩)
    obtain ⟨hp, hq, hta⟩ : parts.path.bytes = h.path ∧ parts.query.bytes = h.query ∧
        parts.authority.bytes = h.targetAuthority := by simpa [TargetParts.bytes] using hpb
    have hnul : 0 ∉ parts.authority.bytes := hta ▸ hwf.target_form.nul_notMem hwf.target_valid
    obtain ⟨authority, hauth, hab⟩ := map_eq_ok.1
      ((resolveAuthority_map_eq_ok_iff (hhs ▸ nul_notMem_value hwf.fields_wf) hnul).2
        (hta.symm ▸ hhs.symm ▸ hwf.authority))
    obtain ⟨⟨arena, params⟩, hquery, hqb⟩ :=
      map_eq_ok.1 (decodeQueryInto_map_eq_ok_iff.2 ⟨hq ▸ hwf.query, rfl⟩)
    obtain ⟨rfl, hps⟩ := Prod.mk.inj hqb
    refine ⟨_, ⟨⟨h.method, target, h.isVersion11⟩, ?_, ?_, headers, hheaders, h.contentLength,
      ⟨hhs ▸ hwf.length, hwf.length_le⟩, parts, hparts, authority, hauth, hp ▸ hwf.path,
      (_, params), hquery, rfl⟩, ?_⟩
    · exact parseRequestLine_eq_ok_iff.2
        ⟨h.target, hl, hwf.method_known, hwf.target_ne_nil, hwf.space_notMem_target, rfl⟩
    · simpa [View.size, htb] using hwf.target_le
    · simp only [Prod.map_apply, id_eq, Request.map, Head.request, View.isEmpty, htb, hp, hq, hab, hhs, hps]
      rfl

/-! ### The leading empty line -/

namespace Grammar.Head.WellFormed

variable {pton : InetPton} {limits : RequestLimits} {h : Head}

/-- A request line does not start with a line break. -/
theorem prologueBytes_eq (hwf : h.WellFormed pton limits) (rest : Bytes) :
    prologueBytes (h.prologueText ++ (h.requestLine ++ rest)) = h.prologueText.length := by
  obtain ⟨x, xs, hx⟩ := List.exists_cons_of_ne_nil (Method.name_ne_nil hwf.method_known)
  have hxcr : CR ≠ x := by
    rintro rfl
    exact absurd (Method.name_bytes (hx ▸ List.mem_cons_self)).1 (by decide)
  cases hp : h.prologue with
  | false => simp [prologueBytes, prologueText, requestLine, hp, hx, crlf, hxcr]
  | true => simp [prologueBytes, prologueText, hp]

theorem drop_prologueBytes (hwf : h.WellFormed pton limits) (rest : Bytes) :
    (h.prologueText ++ (h.requestLine ++ rest)).drop
      (prologueBytes (h.prologueText ++ (h.requestLine ++ rest))) = h.requestLine ++ rest := by
  rw [hwf.prologueBytes_eq, List.drop_left]

end Grammar.Head.WellFormed

theorem Grammar.Head.render_append (h : Head) (rest : Bytes) :
    h.render ++ rest =
      h.prologueText ++ (h.requestLine ++ (crlf ++ fieldText h.fields ++ crlf ++ rest)) := by
  simp [render, block_eq]

theorem eq_append_drop_prologueBytes (s : Bytes) :
    s = (if crlf <+: s then crlf else []) ++ s.drop (prologueBytes s) := by
  unfold prologueBytes
  split_ifs with h
  · obtain ⟨t, rfl⟩ := h
    simp [crlf]
  · simp

/-! ### Accepted heads -/

/-- What a parsed head says, without where its strings are. -/
def ParsedHead.bytes (p : ParsedHead) : Request Bytes × ℕ × ℕ :=
  (p.request.map View.bytes, p.bodyOffset, p.bodyBytes)

/-- What a grammatical head says. -/
def Grammar.Head.result (now : TimePoint) (h : Head) : Request Bytes × ℕ × ℕ :=
  (h.request now, h.render.length, h.contentLength)

/-- A complete head: its cuts, within the limits, and what is found there. -/
theorem findHead_eq_ok_iff {pton : InetPton} {now : TimePoint} {v : View} {limits : RequestLimits}
    {head : ParsedHead} :
    findHead pton now v limits = .ok head ↔ ∃ e t,
      findSub crlf (v.removePrefix (prologueBytes v.bytes)).bytes = some e ∧
      findSub headerTerminator (v.removePrefix (prologueBytes v.bytes)).bytes = some t ∧
      e ≤ limits.maxRequestLineBytes.toNat ∧ t + 4 ≤ limits.maxHeaderBlockBytes.toNat ∧
      parseHeadAt pton now (v.removePrefix (prologueBytes v.bytes)) limits e t =
        .ok (head.request, head.bodyBytes) ∧
      head.bodyOffset = prologueBytes v.bytes + (t + 4) := by
  simp only [findHead, bind_eq_ok, ensure_eq_ok, exists_const, decide_eq_true_eq]
  constructor
  · rintro ⟨hline, hp⟩
    split at hp
    · simp only [bind_eq_ok] at hp
      obtain ⟨_, -, hp⟩ := hp
      cases hp
    · rename_i t ht
      simp only [bind_eq_ok, ensure_eq_ok, exists_const, decide_eq_true_eq, pure_eq_ok] at hp
      obtain ⟨hblock, ⟨r, n⟩, hat, rfl⟩ := hp
      obtain ⟨line, -, -, he, -, -⟩ := exists_cut_of_terminator ht
      rw [he, Option.getD_some] at hline hat
      exact ⟨line.length, t, he, ht, hline, hblock, hat, rfl⟩
  · rintro ⟨e, t, he, ht, hline, hblock, hat, hoff⟩
    simp only [he, ht, Option.getD_some, bind_eq_ok, ensure_eq_ok, exists_const, decide_eq_true_eq,
      pure_eq_ok]
    exact ⟨hline, hblock, _, hat, by rw [← hoff]⟩

/-- A head is accepted iff the bytes start with the rendering of a well-formed one. -/
theorem findHead_map_eq_ok_iff {pton : InetPton} {now : TimePoint} {v : View}
    {limits : RequestLimits} {r : Request Bytes × ℕ × ℕ} :
    (findHead pton now v limits).map ParsedHead.bytes = .ok r ↔
      ∃ (h : Head) (rest : Bytes), h.WellFormed pton limits ∧ v.bytes = h.render ++ rest ∧
        r = h.result now := by
  constructor
  · rw [map_eq_ok]
    rintro ⟨head, hhead, rfl⟩
    obtain ⟨e, t, he, ht, hline, hblock, hat, hoff⟩ := findHead_eq_ok_iff.1 hhead
    obtain ⟨line, text, rest, he', hs, htlen⟩ := exists_cut_of_terminator ht
    obtain rfl : line.length = e := Option.some.inj (he'.symm.trans he)
    obtain ⟨h, hpro, hwf, rfl, rfl, hr, hn⟩ := (parseHeadAt_map_eq_ok_iff now
      (decide (crlf <+: v.bytes)) hs htlen hline hblock).1 (map_eq_ok.2 ⟨_, hat, rfl⟩)
    have hv : v.bytes = h.render ++ rest := by
      have hp : h.prologueText = if crlf <+: v.bytes then crlf else [] := by
        simp [Head.prologueText, hpro]
      rw [eq_append_drop_prologueBytes v.bytes, ← View.bytes_removePrefix, hs, ← hp, Head.render,
        Head.block_eq]
      simp only [List.append_assoc]
    have hlen : prologueBytes v.bytes + (t + 4) = h.render.length := by
      rw [hv, h.render_append, hwf.prologueBytes_eq, Head.render, List.length_append, Head.block_eq,
        List.length_append, ← htlen]
      rfl
    refine ⟨h, rest, hwf, hv, ?_⟩
    rw [ParsedHead.bytes, Head.result, hr, ← hn, hoff, hlen, id_eq]
  · rintro ⟨h, rest, hwf, hv, rfl⟩
    rw [h.render_append] at hv
    obtain ⟨t, ht, htlen⟩ :=
      findSub_headerTerminator hwf.cr_notMem_requestLine hwf.fields_wf rest
    have hb : (v.removePrefix (prologueBytes v.bytes)).bytes =
        h.requestLine ++ crlf ++ fieldText h.fields ++ crlf ++ rest := by
      rw [View.bytes_removePrefix, hv, hwf.drop_prologueBytes]
      simp
    have he : findSub crlf (v.removePrefix (prologueBytes v.bytes)).bytes =
        some h.requestLine.length := by
      rw [hb, List.append_assoc, List.append_assoc]
      exact findSub_crlf hwf.cr_notMem_requestLine _
    have hblock : t + 4 = h.block.length := by
      rw [Head.block_eq, List.length_append, ← htlen]
      rfl
    rw [← hb] at ht
    obtain ⟨⟨r, n⟩, hat, hrn⟩ := map_eq_ok.1 ((parseHeadAt_map_eq_ok_iff now h.prologue hb
      htlen hwf.line_le (hblock ▸ hwf.block_le)).2 ⟨h, rfl, hwf, rfl, rfl, rfl, rfl⟩)
    obtain ⟨hr, rfl : n = _⟩ := Prod.mk.inj hrn
    refine map_eq_ok.2 ⟨⟨r, prologueBytes v.bytes + (t + 4), h.contentLength⟩, findHead_eq_ok_iff.2
      ⟨_, t, he, ht, hwf.line_le, hblock ▸ hwf.block_le, hat, rfl⟩, ?_⟩
    rw [ParsedHead.bytes, Head.result, hr, hblock, hv, hwf.prologueBytes_eq, Head.render,
      List.length_append]

/-! ### Accepted requests -/

/-- The end of a one-shot parse: the head is complete, and the body is there or not. -/
def completeBody (v : View) (head : ParsedHead) : Except ParseError (ParsedRequest View) :=
  if v.size < head.bodyOffset + head.bodyBytes then .error .needsMoreData
  else .ok ⟨{ head.request with body := v.substr head.bodyOffset head.bodyBytes },
    head.bodyOffset + head.bodyBytes, head.bodyOffset⟩

/-- A fresh parser has nothing to rebase. -/
theorem parseRequest_eq (pton : InetPton) (now : TimePoint) (v : View) (limits : RequestLimits) :
    parseRequest pton now v limits = findHead pton now v limits >>= completeBody v := by
  cases h : findHead pton now v limits with
  | error e => simp [parseRequest, RequestParser.parse, RequestParser.parseHead, h, Bind.bind,
      Except.bind]
  | ok head =>
    simp only [parseRequest, RequestParser.parse, RequestParser.parseHead, h, Bind.bind,
      Except.bind, pure, Except.pure, Bool.false_eq_true, if_false, RequestParser.parseBody,
      RequestParser.rememberBufferOffsets, ne_eq, not_true, completeBody]
    split_ifs <;> first | rfl | omega

theorem map_completed {now : TimePoint} {head : ParsedHead} {h : Head} {body : View}
    (hr : head.bytes = h.result now) (hlen : body.size = h.contentLength) :
    ParsedRequest.map View.bytes ⟨{ head.request with body := body },
      head.bodyOffset + head.bodyBytes, head.bodyOffset⟩ = h.parsed now body.bytes := by
  simp only [ParsedHead.bytes, Head.result, Prod.mk.injEq] at hr
  obtain ⟨hr, hoff, hn⟩ := hr
  rw [Head.parsed, ← hr, ← hoff, ← View.size, hlen, ← hn]
  rfl

/-- Soundness: what is accepted is a well-formed head and the body it declares. -/
theorem exists_head_of_parseRequest {pton : InetPton} {now : TimePoint} {v : View}
    {limits : RequestLimits} {r : ParsedRequest View} (h : parseRequest pton now v limits = .ok r) :
    ∃ (h : Head) (body rest : Bytes), h.WellFormed pton limits ∧ body.length = h.contentLength ∧
      v.bytes = h.render ++ body ++ rest ∧ r.map View.bytes = h.parsed now body := by
  simp only [parseRequest_eq, bind_eq_ok, completeBody] at h
  obtain ⟨head, hhead, h⟩ := h
  split_ifs at h with hlen
  simp only [Except.ok.injEq] at h
  subst h
  obtain ⟨h, rest, hwf, hv, heq⟩ := findHead_map_eq_ok_iff.1 (map_eq_ok.2 ⟨head, hhead, rfl⟩)
  have hfields := heq
  simp only [ParsedHead.bytes, Head.result, Prod.mk.injEq] at hfields
  obtain ⟨-, hoff, hn⟩ := hfields
  have hbody : (v.substr head.bodyOffset head.bodyBytes).bytes = rest.take h.contentLength := by
    rw [View.bytes_substr, hv, hoff, hn, List.drop_left]
  have hle : h.contentLength ≤ rest.length := by
    rw [View.size, hv, List.length_append, hoff, hn] at hlen
    omega
  refine ⟨h, rest.take h.contentLength, rest.drop h.contentLength, hwf, ?_, ?_, ?_⟩
  · exact List.length_take_of_le hle
  · rw [hv, List.append_assoc, List.take_append_drop]
  · rw [← hbody]
    exact map_completed heq (by rw [View.size, hbody, List.length_take_of_le hle])

/-- Completeness: every well-formed head with the body it declares is accepted. -/
theorem parseRequest_of_head {pton : InetPton} {v : View} {limits : RequestLimits} {h : Head}
    {body rest : Bytes} (now : TimePoint) (hwf : h.WellFormed pton limits)
    (hbody : body.length = h.contentLength) (hv : v.bytes = h.render ++ body ++ rest) :
    (parseRequest pton now v limits).map (ParsedRequest.map View.bytes) =
      .ok (h.parsed now body) := by
  rw [List.append_assoc] at hv
  obtain ⟨head, hhead, heq⟩ :=
    map_eq_ok.1 (findHead_map_eq_ok_iff.2 ⟨h, body ++ rest, hwf, hv, rfl⟩)
  have hfields := heq
  simp only [ParsedHead.bytes, Head.result, Prod.mk.injEq] at hfields
  obtain ⟨-, hoff, hn⟩ := hfields
  have hb : (v.substr head.bodyOffset head.bodyBytes).bytes = body := by
    rw [View.bytes_substr, hv, hoff, hn, ← hbody, List.drop_left, List.take_left]
  have hlen : ¬ v.size < head.bodyOffset + head.bodyBytes := by
    rw [View.size, hv, List.length_append, List.length_append, hoff, hn]
    omega
  simp only [parseRequest_eq, map_eq_ok, bind_eq_ok, completeBody]
  refine ⟨_, ⟨head, hhead, if_neg hlen⟩, ?_⟩
  rw [map_completed heq (by rw [View.size, hb, hbody]), hb]

/-- **`parse_request` accepts exactly its grammar.**  It succeeds with `r` if and only if the bytes
are the rendering of a well-formed head, a body of the length the head declares, and anything, and
`r` is the request that the head and the body describe. -/
theorem parse_request_accepts_exactly_the_grammar (pton : InetPton) (now : TimePoint) (v : View)
    (limits : RequestLimits) (r : ParsedRequest Bytes) :
    (parseRequest pton now v limits).map (ParsedRequest.map View.bytes) = .ok r ↔
      ∃ (h : Head) (body rest : Bytes), h.WellFormed pton limits ∧
        body.length = h.contentLength ∧ v.bytes = h.render ++ body ++ rest ∧
        r = h.parsed now body := by
  constructor
  · rw [map_eq_ok]
    rintro ⟨r, hr, rfl⟩
    exact exists_head_of_parseRequest hr
  · rintro ⟨h, body, rest, hwf, hbody, hv, rfl⟩
    exact parseRequest_of_head now hwf hbody hv

end ErikslundHttp
