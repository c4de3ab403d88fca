import ErikslundHttp.Request.HeadSpec

/-!
# Requests in a stream of bytes

A connection hands the parser whatever bytes have arrived.  This module relates parses of different
cuts of one stream:

* bytes after a request do not change its parse (`parseRequest_append`), so a stream of messages is
  read message by message (`pipelined_requests_are_read_in_order`);
* a strict part of a request needs more data, unless the request line fills its limit and the cut
  is inside the line break that ends it (`prefixes_need_more_data_iff`).
-/

namespace ErikslundHttp

open Scan Grammar

variable {pton : InetPton} {limits : RequestLimits}

/-! ### Bytes after a request -/

/-- The same parsed request with another clock reading. -/
def ParsedRequest.stampedAt {α : Type} (now : TimePoint) (p : ParsedRequest α) : ParsedRequest α :=
  { p with request := { p.request with receivedAt := now } }

/-- An accepted request is accepted again, at any address and time, whatever follows it. -/
theorem parseRequest_append {now : TimePoint} {v : View} {r : ParsedRequest View}
    (h : parseRequest pton now v limits = .ok r) {w : View} {t : Bytes}
    (hw : w.bytes = v.bytes.take r.consumedBytes ++ t) (now' : TimePoint) :
    (parseRequest pton now' w limits).map (ParsedRequest.map View.bytes) =
      .ok ((r.map View.bytes).stampedAt now') := by
  obtain ⟨h, body, rest, hwf, hbody, hv, hr⟩ := exists_head_of_parseRequest h
  have hn : r.consumedBytes = (h.render ++ body).length := by
    rw [List.length_append]
    exact congrArg ParsedRequest.consumedBytes hr
  rw [hv, hn, List.take_left] at hw
  rw [hr, parseRequest_of_head now' hwf hbody hw]
  rfl

/-- The requests read from the front of a view by at most `fuel` parses, each of which drops the
bytes it consumed; then the error of the first parse that failed, and the bytes left. -/
def readRequests (pton : InetPton) (limits : RequestLimits) :
    ℕ → (clock : ℕ → TimePoint) → View → List (ParsedRequest Bytes) × Option ParseError × Bytes
  | 0, _, v => ([], none, v.bytes)
  | fuel + 1, clock, v =>
    match parseRequest pton (clock 0) v limits with
    | .error e => ([], some e, v.bytes)
    | .ok r =>
      let (requests, rest) := readRequests pton limits fuel (fun i => clock (i + 1))
        (v.removePrefix r.consumedBytes)
      (r.map View.bytes :: requests, rest)

/-- A message that is accepted and consumed as a whole, with its parse. -/
structure Message (pton : InetPton) (limits : RequestLimits) where
  view : View
  now : TimePoint
  parsed : ParsedRequest View
  /-- The parser accepts the bytes. -/
  accepted : parseRequest pton now view limits = .ok parsed
  /-- Nothing is left over. -/
  consumed : parsed.consumedBytes = view.size

namespace Message

/-- The request of a message, read at the given time. -/
def request (m : Message pton limits) (now : TimePoint) : ParsedRequest Bytes :=
  (m.parsed.map View.bytes).stampedAt now

/-- A message at the front of a view is read as on its own. -/
theorem exists_parse (m : Message pton limits) {v : View} {t : Bytes}
    (hv : v.bytes = m.view.bytes ++ t) (now : TimePoint) :
    ∃ r, parseRequest pton now v limits = .ok r ∧ r.map View.bytes = m.request now ∧
      (v.removePrefix r.consumedBytes).bytes = t := by
  have htake : m.view.bytes.take m.parsed.consumedBytes = m.view.bytes := by
    rw [m.consumed]
    exact List.take_length
  obtain ⟨r, hr, heq⟩ := map_eq_ok.1 (parseRequest_append m.accepted (htake.symm ▸ hv) now)
  have hn : r.consumedBytes = m.view.bytes.length :=
    (congrArg ParsedRequest.consumedBytes heq).trans m.consumed
  refine ⟨r, hr, heq, ?_⟩
  rw [View.bytes_removePrefix, hn, hv, List.drop_left]

end Message

/-- Messages at the front of a view are read one after the other. -/
theorem readRequests_messages (ms : List (Message pton limits)) {v : View} {t : Bytes}
    (hv : v.bytes = ms.flatMap (fun m => m.view.bytes) ++ t) (clock : ℕ → TimePoint) (fuel : ℕ) :
    ∃ w : View, w.bytes = t ∧ readRequests pton limits (ms.length + fuel) clock v =
      ((ms.mapIdx fun i m => m.request (clock i)) ++
        (readRequests pton limits fuel (fun i => clock (i + ms.length)) w).1,
        (readRequests pton limits fuel (fun i => clock (i + ms.length)) w).2) := by
  induction ms generalizing v clock with
  | nil => exact ⟨v, by simpa using hv, by simp⟩
  | cons m ms ih =>
    rw [List.flatMap_cons, List.append_assoc] at hv
    obtain ⟨r, hr, heq, hdrop⟩ := m.exists_parse hv (clock 0)
    obtain ⟨w, hw, hread⟩ := ih hdrop fun i => clock (i + 1)
    refine ⟨w, hw, ?_⟩
    rw [List.length_cons, Nat.add_right_comm, readRequests, hr]
    simp only [hread, heq, List.mapIdx_cons, List.cons_append, Nat.add_assoc]

/-- **Pipelining.**  A request is parsed the same whatever follows it; hence parsing a sequence of
messages and dropping what each parse consumed reads exactly those messages, in order, and then
goes on with the bytes after them. -/
theorem pipelined_requests_are_read_in_order (pton : InetPton) (limits : RequestLimits) :
    (∀ (now : TimePoint) (v : View) (r : ParsedRequest View),
      parseRequest pton now v limits = .ok r → ∀ (w : View) (t : Bytes),
        w.bytes = v.bytes.take r.consumedBytes ++ t →
        (parseRequest pton now w limits).map (ParsedRequest.map View.bytes) =
          .ok (r.map View.bytes)) ∧
    ∀ (ms : List (Message pton limits)) (v : View) (t : Bytes),
      v.bytes = ms.flatMap (fun m => m.view.bytes) ++ t →
      ∀ (clock : ℕ → TimePoint) (fuel : ℕ), ∃ w : View, w.bytes = t ∧
        readRequests pton limits (ms.length + fuel) clock v =
          ((ms.mapIdx fun i m => m.request (clock i)) ++
            (readRequests pton limits fuel (fun i => clock (i + ms.length)) w).1,
            (readRequests pton limits fuel (fun i => clock (i + ms.length)) w).2) := by
  refine ⟨fun now v r h w t hw => ?_, fun ms v t hv clock fuel =>
    readRequests_messages ms hv clock fuel⟩
  rw [parseRequest_append h hw now]
  obtain ⟨h, body, -, -, -, -, hr⟩ := exists_head_of_parseRequest h
  rw [hr]
  rfl

/-- The shortest request of all. -/
def getRoot : View := ⟨.buffer 0, ascii "GET / HTTP/1.1\r\nHost: a\r\n\r\n"⟩

theorem two_pipelined_requests_are_read : ∃ m : Message .rejecting {}, m.view = getRoot ∧
    ∀ (clock : ℕ → TimePoint) (fuel : ℕ), ∃ w : View, w.bytes = ascii "GET" ∧
      readRequests .rejecting {} (2 + fuel) clock
          ⟨.buffer 0, getRoot.bytes ++ (getRoot.bytes ++ ascii "GET")⟩ =
        ([m.request (clock 0), m.request (clock 1)] ++
          (readRequests .rejecting {} fuel (fun i => clock (i + 2)) w).1,
          (readRequests .rejecting {} fuel (fun i => clock (i + 2)) w).2) := by
  obtain ⟨r, hr, hn⟩ : ∃ r, parseRequest .rejecting 0 getRoot {} = .ok r ∧ r.consumedBytes = 27 :=
    map_eq_ok.1 (by decide)
  exact ⟨⟨getRoot, 0, r, hr, hn⟩, rfl, (pipelined_requests_are_read_in_order .rejecting {}).2
    [⟨getRoot, 0, r, hr, hn⟩, ⟨getRoot, 0, r, hr, hn⟩]
    ⟨.buffer 0, getRoot.bytes ++ (getRoot.bytes ++ ascii "GET")⟩ (ascii "GET") (by simp)⟩

/-! ### Parts of a request -/

/-- The length of the first line after the optional leading empty line; of all the bytes, if they
have no line break. -/
def requestLineLength (bytes : Bytes) : ℕ :=
  (findSub crlf (bytes.drop (prologueBytes bytes))).getD (bytes.drop (prologueBytes bytes)).length

/-- Without an empty line, and within the two limits on the head, more bytes are needed. -/
theorem findHead_eq_needsMoreData {now : TimePoint} {v : View}
    (hterm : findSub headerTerminator (v.bytes.drop (prologueBytes v.bytes)) = none)
    (hline : requestLineLength v.bytes ≤ limits.maxRequestLineBytes.toNat)
    (hblock : (v.bytes.drop (prologueBytes v.bytes)).length ≤ limits.maxHeaderBlockBytes.toNat) :
    findHead pton now v limits = .error .needsMoreData := by
  rw [requestLineLength] at hline
  simp only [findHead, View.bytes_removePrefix, View.size, hline, hterm, hblock, ensure,
    decide_true, if_true]
  rfl

theorem findHead_eq_targetTooLong {now : TimePoint} {v : View}
    (hline : limits.maxRequestLineBytes.toNat < requestLineLength v.bytes) :
    findHead pton now v limits = .error .targetTooLong := by
  rw [requestLineLength] at hline
  simp only [findHead, View.bytes_removePrefix, View.size, Nat.not_le.2 hline, ensure, decide_false,
    Bool.false_eq_true, if_false]
  rfl

namespace Grammar.Head.WellFormed

variable {h : Head}

/-- A strict part of a head is, after the leading empty line, a strict part of its block; a part
that ends within that line is one byte at most. -/
theorem prefix_cases (hwf : h.WellFormed pton limits) {p : Bytes} (hp : p <+: h.render)
    (hlen : p.length < h.render.length) :
    (p.drop (prologueBytes p) <+: h.block ∧ (p.drop (prologueBytes p)).length < h.block.length) ∨
      (p.drop (prologueBytes p)).length ≤ 1 := by
  by_cases hcrlf : crlf <+: p
  · have hpro : prologueBytes h.render = 2 := if_pos (hcrlf.trans hp)
    rw [← List.append_nil h.render, h.render_append, hwf.prologueBytes_eq] at hpro
    have htext : h.prologueText = crlf := by
      rw [prologueText] at hpro ⊢
      split_ifs at hpro ⊢
      rfl
    obtain ⟨q, rfl⟩ := hcrlf
    have hq : (crlf ++ q).drop (prologueBytes (crlf ++ q)) = q := by simp [prologueBytes, crlf]
    rw [render, htext] at hp hlen
    rw [hq]
    exact .inl ⟨(List.prefix_append_right_inj _).1 hp, by simpa using hlen⟩
  · have hq : p.drop (prologueBytes p) = p := by simp [prologueBytes, hcrlf]
    rw [hq]
    cases hpro : h.prologue with
    | false =>
      simp only [render, prologueText, hpro] at hp hlen
      exact .inl ⟨hp, hlen⟩
    | true =>
      right
      by_contra hle
      simp only [render, prologueText, hpro, if_true] at hp
      exact hcrlf (List.prefix_of_prefix_length_le (List.prefix_append _ _) hp
        (by rw [length_crlf]; omega))

theorem findSub_crlf_block (hwf : h.WellFormed pton limits) :
    findSub crlf h.block = some h.requestLine.length := by
  rw [block_eq, List.append_assoc]
  exact findSub_crlf hwf.cr_notMem_requestLine _

/-- The line check on a strict part of a head. -/
theorem requestLineLength_le (hwf : h.WellFormed pton limits) {p : Bytes} (hp : p <+: h.render)
    (hlen : p.length < h.render.length) : requestLineLength p ≤ h.requestLine.length + 1 := by
  have hpos : 0 < h.requestLine.length := by simp [requestLine]
  rw [requestLineLength]
  rcases hwf.prefix_cases hp hlen with ⟨hq, -⟩ | hq
  · by_cases hle : h.requestLine.length + 2 ≤ (p.drop (prologueBytes p)).length
    · rw [findSub_of_isPrefix (by decide) hwf.findSub_crlf_block hq hle, Option.getD_some]
      omega
    · rw [findSub_eq_none_of_isPrefix (by decide) hwf.findSub_crlf_block hq
        (by rw [length_crlf]; omega), Option.getD_none]
      omega
  · rw [findSub_eq_none_of_length_lt (Nat.lt_of_le_of_lt hq (by decide)), Option.getD_none]
    omega

/-- No strict part of a head has an empty line, after the leading one. -/
theorem findSub_headerTerminator_isPrefix (hwf : h.WellFormed pton limits) {p : Bytes}
    (hp : p <+: h.render) (hlen : p.length < h.render.length) :
    findSub headerTerminator (p.drop (prologueBytes p)) = none := by
  rcases hwf.prefix_cases hp hlen with ⟨hq, hlt⟩ | hq
  · obtain ⟨t, ht, htlen⟩ :=
      findSub_headerTerminator hwf.cr_notMem_requestLine hwf.fields_wf []
    rw [List.append_nil, ← block_eq] at ht
    refine findSub_eq_none_of_isPrefix (by decide) ht hq (Nat.lt_of_lt_of_le hlt ?_)
    rw [block_eq, List.length_append, ← htlen]
    rfl
  · exact findSub_eq_none_of_length_lt (Nat.lt_of_le_of_lt hq (by decide))

/-- A strict part of a head needs more data when its line passes the line check. -/
theorem findHead_isPrefix (hwf : h.WellFormed pton limits) (now : TimePoint) {v : View}
    (hp : v.bytes <+: h.render) (hlen : v.size < h.render.length)
    (hline : requestLineLength v.bytes ≤ limits.maxRequestLineBytes.toNat) :
    findHead pton now v limits = .error .needsMoreData := by
  refine findHead_eq_needsMoreData (hwf.findSub_headerTerminator_isPrefix hp hlen) hline ?_
  rcases hwf.prefix_cases hp hlen with ⟨-, hlt⟩ | hle
  · exact hlt.le.trans hwf.block_le
  · refine hle.trans (Nat.le_trans ?_ hwf.block_le)
    simp only [block, List.length_append, length_crlf]
    omega

/-- The length of the first line, read in the bytes. -/
theorem requestLineLength_append (hwf : h.WellFormed pton limits) (rest : Bytes) :
    requestLineLength (h.render ++ rest) = h.requestLine.length := by
  rw [requestLineLength, h.render_append, hwf.drop_prologueBytes, List.append_assoc,
    List.append_assoc, ← List.append_assoc, findSub_crlf hwf.cr_notMem_requestLine,
    Option.getD_some]

/-- The part of a head that ends inside the line break of its request line. -/
theorem exists_prefix_requestLine (hwf : h.WellFormed pton limits) :
    ∃ p, p <+: h.render ∧ p.length < h.render.length ∧
      requestLineLength p = h.requestLine.length + 1 := by
  have hrender : h.render = h.prologueText ++ (h.requestLine ++ [CR]) ++
      (LF :: (fieldText h.fields ++ crlf)) := by
    simp [render, block_eq, crlf]
  refine ⟨h.prologueText ++ (h.requestLine ++ [CR]), ⟨_, hrender.symm⟩, ?_, ?_⟩
  · simp only [hrender, List.length_append, List.length_cons]
    omega
  · have hnone : findSub crlf (h.requestLine ++ [CR]) = none := by
      rw [findSub_eq_none_iff, crlf, infix_append_of_notMem hwf.cr_notMem_requestLine]
      decide
    rw [requestLineLength, hwf.drop_prologueBytes, hnone]
    simp

end Grammar.Head.WellFormed

/-- **Cuts of a request.**  Every strict part of an accepted request needs more data, and gives no
other error, if and only if the request line is shorter than its limit: the part that ends inside
the line break of a line that fills the limit is taken for a line over it. -/
theorem prefixes_need_more_data_iff (pton : InetPton) (now : TimePoint) (v : View)
    (limits : RequestLimits) (r : ParsedRequest View)
    (haccepted : parseRequest pton now v limits = .ok r) :
    (∀ p : View, p.bytes <+: v.bytes → p.size < r.consumedBytes → ∀ now' : TimePoint,
        parseRequest pton now' p limits = .error .needsMoreData) ↔
      requestLineLength v.bytes < limits.maxRequestLineBytes.toNat := by
  obtain ⟨h, body, rest, hwf, hbody, hv, hr⟩ := exists_head_of_parseRequest haccepted
  have hn : r.consumedBytes = h.render.length + body.length :=
    congrArg ParsedRequest.consumedBytes hr
  have hline : requestLineLength v.bytes = h.requestLine.length := by
    rw [hv, List.append_assoc, hwf.requestLineLength_append]
  rw [hline]
  constructor
  · intro hall
    refine hwf.line_le.lt_of_ne fun heq => ?_
    obtain ⟨p, hp, hlen, hpl⟩ := hwf.exists_prefix_requestLine
    have hpv : p <+: v.bytes := by
      rw [hv, List.append_assoc]
      exact hp.trans (List.prefix_append _ _)
    have hmore := hall ⟨.null, p⟩ hpv (by rw [hn]; exact Nat.lt_add_right _ hlen) 0
    rw [parseRequest_eq, findHead_eq_targetTooLong (by rw [hpl]; omega)] at hmore
    cases hmore
  · intro hlt p hp hlen now'
    rw [parseRequest_eq]
    by_cases hhead : p.size < h.render.length
    · have hpr : p.bytes <+: h.render :=
        List.prefix_of_prefix_length_le hp (hv ▸ ⟨body ++ rest, by simp⟩) hhead.le
      rw [hwf.findHead_isPrefix now' hpr hhead ((hwf.requestLineLength_le hpr hhead).trans hlt)]
      rfl
    · -- the head is complete, and the body is not
      obtain ⟨tail, htail⟩ : h.render <+: p.bytes :=
        List.prefix_of_prefix_length_le (hv ▸ ⟨body ++ rest, by simp⟩) hp (Nat.not_lt.1 hhead)
      obtain ⟨head, hfind, heq⟩ :=
        map_eq_ok.1 (findHead_map_eq_ok_iff.2 ⟨h, tail, hwf, htail.symm, rfl⟩)
      simp only [ParsedHead.bytes, Head.result, Prod.mk.injEq] at heq
      obtain ⟨-, hoff, hcl⟩ := heq
      rw [hfind]
      exact if_pos (by rw [hoff, hcl, ← hbody, ← hn]; exact hlen)

/-- The request line `GET / HTTP/1.1` fills a limit of 14 bytes; the first 15 bytes of the request
are rejected although the request is accepted. -/
theorem prefix_of_line_at_limit_is_rejected :
    (parseRequest .rejecting 0 getRoot { maxRequestLineBytes := 14 }).map
        ParsedRequest.consumedBytes = .ok 27 ∧
      (getRoot.substr 0 15).bytes <+: getRoot.bytes ∧
      (getRoot.substr 0 15).size < 27 ∧
      parseRequest .rejecting 0 (getRoot.substr 0 15) { maxRequestLineBytes := 14 } =
        .error .targetTooLong := by
  decide

/-- With room for one more byte every part of the same request needs more data. -/
theorem prefixes_need_more_data_of_short_line : requestLineLength getRoot.bytes = 14 ∧
    ∀ p : View, p.bytes <+: getRoot.bytes → p.size < 27 → ∀ now' : TimePoint,
      parseRequest .rejecting now' p { maxRequestLineBytes := 15 } = .error .needsMoreData := by
  obtain ⟨r, hr, hn⟩ : ∃ r, parseRequest .rejecting 0 getRoot { maxRequestLineBytes := 15 } =
      .ok r ∧ r.consumedBytes = 27 := map_eq_ok.1 (by decide)
  refine ⟨by decide, ?_⟩
  rw [← hn]
  exact (prefixes_need_more_data_iff .rejecting 0 getRoot { maxRequestLineBytes := 15 } r
    hr).2 (by decide)

end ErikslundHttp
