import ErikslundHttp.Lib.Lines
import ErikslundHttp.Request.HeadSpec

/-!
# More lenient readers of the same bytes

Another hop may read the same request less strictly: end lines at every line feed, trim more
whitespace, take any of several `Content-Length` fields, prefer `Host` or the authority of the
target.

* `LenientReader` is any such reader, `LenientReader.lax` one of them.
* `lenient_readers_agree`: on a request that this parser accepts they all find the same head,
  fields, body length and host, so that no two hops can disagree about where the request ends.
-/

namespace ErikslundHttp

open Scan Lines Grammar

/-! ### Readers -/

/-- Picks a member of every list that has one. -/
def Picks (pick : List Bytes → Option Bytes) : Prop :=
  ∀ l, (l = [] → pick l = none) ∧ (l ≠ [] → ∃ x ∈ l, pick l = some x)

/-- What a lenient reader leaves open. -/
structure LenientReader where
  /-- The bytes it trims around a field value: at least the optional whitespace, at most control
  bytes and the space. -/
  isBlank : UInt8 → Bool
  isBlank_of_ows : ∀ b, isOptionalWhitespace b = true → isBlank b = true
  le_of_isBlank : ∀ b, isBlank b = true → b ≤ 0x20
  /-- How it reads a length; it may accept other spellings than the canonical one. -/
  readLength : Bytes → Option ℕ
  readLength_canonical : ∀ text, isCanonicalDecimal text = true →
    readLength text = some (decimalValue text)
  /-- Which of several `Content-Length` fields it believes. -/
  pickLength : List Bytes → Option Bytes
  picks_length : Picks pickLength
  /-- Which of the `Host` field and the authority of the target it believes. -/
  pickHost : List Bytes → Option Bytes
  picks_host : Picks pickHost

/-- What a reader gets from a request. -/
structure Reading where
  /-- The lines of the head. -/
  lines : List Bytes
  /-- How many bytes the head takes. -/
  headLength : ℕ
  target : Bytes
  fields : List Header
  /-- The length of the body, if the reader can tell. -/
  bodyLength : Option ℕ
  /-- The host that the request is for. -/
  host : Option Bytes
  /-- The values of the `Transfer-Encoding` fields. -/
  transferCodings : List Bytes

/-- The second word of a request line. -/
def secondWord (line : Bytes) : Bytes :=
  ((line.dropWhile (· != space)).drop 1).takeWhile (· != space)

/-- The authority of a target that has a scheme. -/
def absoluteAuthority (target : Bytes) : Option Bytes :=
  if target.head? = some (byte '/') then none
  else (findSub (ascii "://") target).map fun schemeEnd =>
    (target.drop (schemeEnd + 3)).takeWhile fun b => !endsAuthority b

namespace LenientReader

/-- A field line, cut at its first colon. -/
def readField (reader : LenientReader) (line : Bytes) : Header :=
  match find (byte ':') line with
  | none => ⟨line, []⟩
  | some colon => ⟨line.take colon, trim reader.isBlank (line.drop (colon + 1))⟩

/-- What the reader gets from the bytes, if they have a head. -/
def read (reader : LenientReader) (s : Bytes) : Option Reading :=
  (readHead (cutLenient CR LF) s).map fun (lines, rest) =>
    let target := secondWord (lines.headD [])
    let fields := lines.tail.map reader.readField
    let lengths := fieldValues (ascii "Content-Length") fields
    let hosts := fieldValues (ascii "Host") fields ++ (absoluteAuthority target).toList
    { lines := lines
      headLength := s.length - rest.length
      target := target
      fields := fields
      bodyLength := (reader.pickLength lengths).elim (some 0) reader.readLength
      host := reader.pickHost hosts
      transferCodings := fieldValues (ascii "Transfer-Encoding") fields }

end LenientReader

/-! ### Agreement -/

namespace Grammar

/-- The lines of a head. -/
def Head.lines (h : Head) : List Bytes := h.requestLine :: h.fields.map FieldLine.render

theorem Head.block_eq_lines (h : Head) :
    h.block = h.lines.flatMap (· ++ [CR, LF]) ++ [CR, LF] := by
  simp [lines, block_eq, fieldText, crlf, List.flatMap_map]

theorem Head.render_eq_lines (h : Head) (rest : Bytes) : h.render ++ rest =
    (if h.prologue then [CR, LF] else []) ++
      (h.lines.flatMap (· ++ [CR, LF]) ++ [CR, LF] ++ rest) := by
  rw [render, block_eq_lines, prologueText, crlf]
  simp only [List.append_assoc]

variable {pton : InetPton} {limits : RequestLimits} {h : Head}

/-- No line of a well-formed head has a line terminator or a NUL in it. -/
theorem Head.WellFormed.mem_lines (hwf : h.WellFormed pton limits) {l : Bytes} (hl : l ∈ h.lines) :
    l ≠ [] ∧ ∀ b ∈ l, b ≠ CR ∧ b ≠ LF ∧ b ≠ 0 := by
  rcases List.mem_cons.1 hl with rfl | hl
  · refine ⟨by simp [requestLine], fun b hb => ?_⟩
    have := hwf.mem_requestLine hb
    refine ⟨?_, ?_, ?_⟩ <;> rintro rfl <;> revert this <;> decide
  · obtain ⟨f, hf, rfl⟩ := List.mem_map.1 hl
    exact ⟨by simp [FieldLine.render], fun b hb => (hwf.fields_wf f hf).mem_render hb⟩

theorem Head.WellFormed.plain_lines (hwf : h.WellFormed pton limits) :
    ∀ l ∈ h.lines, l ≠ [] ∧ CR ∉ l ∧ LF ∉ l := fun _ hl =>
  ⟨(hwf.mem_lines hl).1, fun hb => ((hwf.mem_lines hl).2 _ hb).1 rfl,
    fun hb => ((hwf.mem_lines hl).2 _ hb).2.1 rfl⟩

theorem Head.WellFormed.readHead_eq (hwf : h.WellFormed pton limits)
    {cut : Bytes → Option (Bytes × Bytes)} (hcut : CutsPlainLines CR LF cut) (rest : Bytes) :
    readHead cut (h.render ++ rest) = some (h.lines, rest) := by
  rw [h.render_eq_lines]
  exact Lines.readHead_eq hcut (by simp [lines]) hwf.plain_lines h.prologue rest

theorem Head.WellFormed.breaksPaired (hwf : h.WellFormed pton limits) :
    BreaksPaired CR LF h.render := by
  have hplain : ∀ l ∈ h.lines ++ [[]], CR ∉ l ∧ LF ∉ l := by
    intro l hl
    rcases List.mem_append.1 hl with hl | hl
    · exact (hwf.plain_lines l hl).2
    · simp_all
  have hblock : BreaksPaired CR LF h.block := by
    have := breaksPaired_lines (by decide) hplain
    rwa [List.flatMap_append, List.flatMap_singleton, List.nil_append, ← block_eq_lines] at this
  rw [render, prologueText]
  split_ifs
  · have hcrlf : BreaksPaired CR LF crlf :=
      breaksPaired_line (by decide) (List.not_mem_nil) (List.not_mem_nil)
    exact hcrlf.append hblock
  · exact hblock

theorem Head.WellFormed.nul_notMem (hwf : h.WellFormed pton limits) : (0 : UInt8) ∉ h.render := by
  have hcrlf : (0 : UInt8) ∉ crlf := by decide
  rw [render, block_eq_lines]
  simp only [List.mem_append, List.mem_flatMap, not_or, not_exists, not_and]
  refine ⟨?_, fun l hl => ⟨fun h0 => ((hwf.mem_lines hl).2 _ h0).2.2 rfl, hcrlf⟩, hcrlf⟩
  rw [prologueText]
  split_ifs
  · exact hcrlf
  · simp

end Grammar

theorem lt_of_isValidFieldValueByte : ∀ b : UInt8, isValidFieldValueByte b = true →
    isOptionalWhitespace b = false → 0x20 < b := by
  decide +kernel

theorem LenientReader.isBlank_eq_false (reader : LenientReader) {b : UInt8} (h : 0x20 < b) :
    reader.isBlank b = false := by
  rw [Bool.eq_false_iff]
  exact fun hb => absurd (UInt8.lt_of_lt_of_le h (reader.le_of_isBlank b hb)) (UInt8.lt_irrefl _)

/-- A reader reads a well-formed field line as this parser does. -/
theorem LenientReader.readField_render (reader : LenientReader) {f : FieldLine}
    (hf : f.WellFormed) : reader.readField f.render = f.header := by
  rw [readField, FieldLine.render, find_append_cons hf.colon_notMem]
  simp only [List.take_left, drop_succ_append_cons, FieldLine.header, HeaderView.mk.injEq, true_and]
  refine trim_append (fun b hb => reader.isBlank_of_ows b (hf.before_ows b hb))
    (fun b hb => reader.isBlank_of_ows b (hf.after_ows b hb)) (fun b hb => ?_) fun b hb => ?_
  · exact reader.isBlank_eq_false (lt_of_isValidFieldValueByte b
      (hf.value_valid b (List.mem_of_head? hb)) (hf.value_head b hb))
  · exact reader.isBlank_eq_false (lt_of_isValidFieldValueByte b
      (hf.value_valid b (List.mem_of_getLast? hb)) (hf.value_last b hb))

theorem secondWord_eq {first word rest : Bytes} (hfirst : space ∉ first) (hword : space ∉ word) :
    secondWord (first ++ space :: (word ++ space :: rest)) = word := by
  have hne : ∀ {l : Bytes}, space ∉ l → ∀ b ∈ l, (b != space) = true := fun hl b hb => by
    simpa using fun h : b = space => hl (h ▸ hb)
  rw [secondWord, dropWhile_append_of_all (hne hfirst) (by simp), List.drop_one, List.tail_cons,
    List.takeWhile_append_of_pos (hne hword)]
  simp

/-- The authority of the target, if it is in absolute form. -/
theorem absoluteAuthority_eq {target path query authority : Bytes}
    (h : TargetForm target path query authority) :
    absoluteAuthority target = if authority = [] then none else some authority := by
  cases h with
  | origin hpq hpath =>
    rw [absoluteAuthority, if_pos, if_pos rfl]
    rcases hpq with ⟨-, ⟨rfl, -⟩ | rfl⟩
    · exact hpath
    · rw [List.head?_append, hpath]; rfl
  | @absolute scheme _ rest p _ hscheme hne hstop hpq hpath =>
    have hend : findSub (ascii "://") (scheme ++ (ascii "://" ++ (authority ++ rest))) =
        some scheme.length := by
      rw [← List.append_assoc]
      exact findSub_append_of_notMem (scheme_spec hscheme).1 _
    have hdrop : (scheme ++ (ascii "://" ++ (authority ++ rest))).drop (scheme.length + 3) =
        authority ++ rest := by
      rw [← List.append_assoc, show scheme.length + 3 = (scheme ++ ascii "://").length by
        simp [ascii], List.drop_left]
    have hrest : rest.takeWhile (fun b => !endsAuthority b) = [] := by
      cases rest with
      | nil => rfl
      | cons b rest => simp [(rest_head_iff hpq).2 hpath b rfl]
    rw [absoluteAuthority, if_neg ((scheme_spec hscheme).2 _), hend, Option.map_some, hdrop,
      List.takeWhile_append_of_pos, hrest, List.append_nil, if_neg hne]
    intro b hb
    simp [endsAuthority_eq_false_iff.2 (hstop b hb)]

/-- Every candidate for the host of a request is its authority, up to letter case. -/
theorem Grammar.NamesAuthority.candidates {pton : InetPton} {headers : List Header}
    {isVersion11 : Bool} {targetAuthority authority : Bytes}
    (h : NamesAuthority pton headers isVersion11 targetAuthority authority) :
    let candidates := fieldValues (ascii "Host") headers ++
      (if targetAuthority = [] then none else some targetAuthority : Option Bytes).toList
    (∀ host ∈ candidates, equalsIgnoreCase host authority = true) ∧
      (candidates = [] → authority = []) := by
  by_cases hta : targetAuthority = []
  · have hhost := h.origin hta
    have hunique := h.host_unique
    simp only [hta, if_true, Option.toList_none, List.append_nil]
    match fieldValues (ascii "Host") headers, hhost, hunique with
    | [], hhost, _ => exact ⟨by simp, fun _ => hhost⟩
    | [host], hhost, _ =>
      subst hhost
      exact ⟨by simp [equalsIgnoreCase_refl], by simp⟩
  · obtain ⟨rfl, -, heq⟩ := h.absolute hta
    simp only [hta, if_false, Option.toList_some]
    refine ⟨fun host hhost => ?_, by simp⟩
    rcases List.mem_append.1 hhost with hhost | hhost
    · exact heq host hhost
    · rw [List.mem_singleton.1 hhost]
      exact equalsIgnoreCase_refl _

/-- The length a reader picks is the declared one. -/
theorem LenientReader.bodyLength_eq (reader : LenientReader) {headers : List Header} {length : ℕ}
    (h : DeclaresLength headers length) :
    (reader.pickLength (fieldValues (ascii "Content-Length") headers)).elim (some 0)
      reader.readLength = some length := by
  by_cases hnil : fieldValues (ascii "Content-Length") headers = []
  · rw [(reader.picks_length _).1 hnil, h.absent hnil]
    rfl
  · obtain ⟨value, hvalue, hpick⟩ := (reader.picks_length _).2 hnil
    obtain ⟨hcanonical, rfl⟩ := eq_toChars_iff.1 (h.content_length value hvalue)
    rw [hpick, Option.elim_some, reader.readLength_canonical value hcanonical]

theorem LenientReader.host_eq (reader : LenientReader) {hosts : List Bytes} {authority : Bytes}
    (h : (∀ host ∈ hosts, equalsIgnoreCase host authority = true) ∧ (hosts = [] → authority = [])) :
    equalsIgnoreCase ((reader.pickHost hosts).getD []) authority = true := by
  by_cases hnil : hosts = []
  · rw [(reader.picks_host _).1 hnil, h.2 hnil]
    rfl
  · obtain ⟨host, hhost, hpick⟩ := (reader.picks_host _).2 hnil
    rw [hpick]
    exact h.1 host hhost

/-- The values of a field no header has. -/
theorem fieldValues_eq_nil {name : Bytes} {headers : List Header}
    (h : ∀ f ∈ headers, equalsIgnoreCase f.name name = false) : fieldValues name headers = [] := by
  simpa [fieldValues, List.filter_eq_nil_iff] using h

/-- What a reader gets from a well-formed head. -/
theorem LenientReader.read_render (reader : LenientReader) {pton : InetPton}
    {limits : RequestLimits} {h : Head} (hwf : h.WellFormed pton limits) (rest : Bytes) :
    reader.read (h.render ++ rest) = some
      { lines := h.lines
        headLength := h.render.length
        target := h.target
        fields := h.headers
        bodyLength := some h.contentLength
        host := reader.pickHost (fieldValues (ascii "Host") h.headers ++
          (if h.targetAuthority = [] then none else some h.targetAuthority : Option Bytes).toList)
        transferCodings := [] } := by
  have hfields : h.lines.tail.map reader.readField = h.headers := by
    rw [Head.lines, List.tail_cons, List.map_map, Head.headers]
    exact List.map_congr_left fun f hf => reader.readField_render (hwf.fields_wf f hf)
  have htarget : secondWord (h.lines.headD []) = h.target :=
    secondWord_eq (space_notMem_name _) hwf.space_notMem_target
  simp only [read, hwf.readHead_eq (cutsPlainLines_lenient (by decide)), Option.map_some, hfields,
    htarget, absoluteAuthority_eq hwf.target_form, reader.bodyLength_eq hwf.length,
    fieldValues_eq_nil hwf.length.no_transfer_encoding, List.length_append, Nat.add_sub_cancel]

/-- **No disagreement between readers.**  In the head of an accepted request every carriage return
is followed by a line feed, every line feed comes after a carriage return, and there is no NUL.
Any more lenient reader of the bytes finds the lines this parser finds, the end of the head, the
target, the fields, the body length and, up to letter case, the host, and no transfer coding. -/
theorem lenient_readers_agree (pton : InetPton) (now : TimePoint) (v : View)
    (limits : RequestLimits) (r : ParsedRequest View)
    (haccepted : parseRequest pton now v limits = .ok r) :
    BreaksPaired CR LF (v.bytes.take r.bodyOffset) ∧ (0 : UInt8) ∉ v.bytes.take r.bodyOffset ∧
    ∃ lines, readHead (cutStrict CR LF) v.bytes = some (lines, v.bytes.drop r.bodyOffset) ∧
    ∀ reader : LenientReader, ∃ reading, reader.read v.bytes = some reading ∧
      reading.lines = lines ∧
      reading.headLength = r.bodyOffset ∧
      reading.target = r.request.rawTarget.bytes ∧
      reading.fields = r.request.headers.map (HeaderView.map View.bytes) ∧
      reading.bodyLength = some r.request.body.size ∧
      equalsIgnoreCase (reading.host.getD []) r.request.authority.bytes = true ∧
      reading.transferCodings = [] := by
  obtain ⟨h, body, rest, hwf, hbody, hv, hr⟩ := exists_head_of_parseRequest haccepted
  have hoff : r.bodyOffset = h.render.length := congrArg ParsedRequest.bodyOffset hr
  have htarget : r.request.rawTarget.bytes = h.target := congrArg (·.request.rawTarget) hr
  have hheaders : r.request.headers.map (HeaderView.map View.bytes) = h.headers :=
    congrArg (·.request.headers) hr
  have hb : r.request.body.bytes = body := congrArg (·.request.body) hr
  have hauth : r.request.authority.bytes = h.authority := congrArg (·.request.authority) hr
  rw [List.append_assoc] at hv
  rw [hv, hoff, List.take_left, List.drop_left]
  refine ⟨hwf.breaksPaired, hwf.nul_notMem, h.lines,
    hwf.readHead_eq (cutsPlainLines_strict CR LF) _, fun reader =>
      ⟨_, reader.read_render hwf _, rfl, rfl, htarget.symm, hheaders.symm, ?_, ?_, rfl⟩⟩
  · rw [View.size, hb, hbody]
  · rw [hauth]
    exact reader.host_eq hwf.authority.candidates

theorem picks_getLast? : Picks List.getLast? := fun _ =>
  ⟨fun hnil => by rw [hnil, List.getLast?_nil], fun hne =>
    ⟨_, List.getLast_mem hne, List.getLast?_eq_getLast_of_ne_nil hne⟩⟩

/-- A reader that trims whatever is no larger than a space, reads a length digit by digit, and
believes the last `Content-Length` and the target. -/
def LenientReader.lax : LenientReader where
  isBlank b := b ≤ 0x20
  isBlank_of_ows b h := by
    simp only [isOptionalWhitespace, Bool.or_eq_true, beq_iff_eq] at h
    rcases h with rfl | rfl <;> decide
  le_of_isBlank _ h := of_decide_eq_true h
  readLength text := some (decimalValue text)
  readLength_canonical _ _ := rfl
  pickLength := List.getLast?
  picks_length := picks_getLast?
  pickHost := List.getLast?
  picks_host := picks_getLast?

/-- A request that gives a lenient reader every choice it has. -/
def repeatedFraming : View := ⟨.buffer 0, ascii "\r\nPOST http://A/x HTTP/1.1\r\nHost: a\r\n" ++
  ascii "Content-Length: 2\r\ncontent-length:2 \r\n\r\nhi"⟩

theorem lenient_readers_agree_on_repeatedFraming :
    ∃ r, parseRequest .rejecting 0 repeatedFraming {} = .ok r ∧ r.bodyOffset = 77 ∧
      (∀ reader : LenientReader, ∃ reading, reader.read repeatedFraming.bytes = some reading ∧
        reading.headLength = 77 ∧ reading.bodyLength = some r.request.body.size) ∧
      ∃ reading, LenientReader.lax.read repeatedFraming.bytes = some reading ∧
        reading.headLength = 77 ∧ reading.bodyLength = some 2 ∧
        reading.host = some (ascii "A") := by
  obtain ⟨r, hr, hoff⟩ : ∃ r, parseRequest .rejecting 0 repeatedFraming {} = .ok r ∧
      r.bodyOffset = 77 := map_eq_ok.1 (by decide)
  obtain ⟨-, -, lines, -, hreaders⟩ := lenient_readers_agree .rejecting 0 repeatedFraming {} r hr
  refine ⟨r, hr, hoff, fun reader => ?_, ?_⟩
  · obtain ⟨reading, hread, -, hlen, -, -, hbody, -⟩ := hreaders reader
    exact ⟨reading, hread, hlen.trans hoff, hbody⟩
  · obtain ⟨reading, hread, -, hlen, -⟩ := hreaders LenientReader.lax
    have hlax : (LenientReader.lax.read repeatedFraming.bytes).map (fun reading =>
        (reading.bodyLength, reading.host)) = some (some 2, some (ascii "A")) := by decide +kernel
    rw [hread, Option.map_some, Option.some.injEq] at hlax
    exact ⟨reading, hread, hlen.trans hoff, (Prod.mk.inj hlax).1, (Prod.mk.inj hlax).2⟩

end ErikslundHttp
