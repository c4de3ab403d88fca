import ErikslundHttp.Request.Stream
import ErikslundHttp.Request.Views

/-!
# The resumable parser

While a body arrives, the connection calls `parse` with longer and longer bytes, at whatever
address its buffer then has.  A parser that waits for a body is always of the form
`holding origin address head`: the head found in the bytes, with every view that reads them placed
at the current address and every empty one left where the head was first found.

* `rebaseBorrowedViews_holding`: rebasing keeps that form.
* `resumed_parse_eq_one_shot`: so a resumed parse ends as a one-shot parse of the last bytes does.
-/

namespace ErikslundHttp

open Scan Grammar

/-! ### Placing views -/

/-- A view of the buffer at address 0, in a buffer that moved from `origin` to `address`: empty
views were not moved. -/
def place (origin address : ℕ) (x : View) : View :=
  if x.bytes = [] then x.shift origin else x.shift address

theorem place_self (address : ℕ) : place address address = View.shift address := by
  funext x
  rw [place]
  split_ifs <;> rfl

@[simp] theorem bytes_place (origin address : ℕ) (x : View) :
    (place origin address x).bytes = x.bytes := by
  rw [place]
  split_ifs <;> rfl

/-- The offset of a view that is a part of the head. -/
theorem offsetOf_eq {base k n : ℕ} {x : View} (hx : x.bytes ≠ []) (hdata : x.data = .buffer (base + k))
    (hk : k < n) : RequestParser.offsetOf (.buffer base) n x = ⟨k, true⟩ := by
  have hempty : x.isEmpty = false := by simpa [View.isEmpty] using hx
  simp [RequestParser.offsetOf, hempty, hdata, hk]

/-- A view of the bytes `head` at address 0, or of the root path. -/
def InHead (head : Bytes) (x : View) : Prop := x = rootPath ∨ Within ⟨.buffer 0, head⟩ x

namespace InHead

variable {head : Bytes} {x : View}

/-- What a view of a head is: empty, the root path, or a part of the head. -/
theorem cases (h : InHead head x) : x.bytes = [] ∨ x = rootPath ∨ ∃ k, x.data = .buffer k ∧
    k < head.length ∧ x.bytes = (head.drop k).take x.size ∧ k + x.size ≤ head.length ∧
      x.bytes ≠ [] := by
  by_cases hx : x.bytes = []
  · exact .inl hx
  · refine .inr (h.imp_right fun hw => ?_)
    obtain ⟨k, hk, heq⟩ := hw.resolve_left hx
    have hpos : 0 < x.size := List.length_pos_iff.2 hx
    simp only [View.size] at hk hpos
    refine ⟨k, ?_, by omega, congrArg View.bytes heq, hk, hx⟩
    rw [heq]
    simp [View.substr, Pointer.add]

/-- The offset the parser remembers does not depend on where the buffer is. -/
theorem offsetOf_place (h : InHead head x) (origin address : ℕ) :
    RequestParser.offsetOf (.buffer address) head.length (place origin address x) =
      RequestParser.offsetOf (.buffer 0) head.length x := by
  rcases h.cases with hx | rfl | ⟨k, hdata, hk, -, -, hx⟩
  · simp [RequestParser.offsetOf, View.isEmpty, hx]
  · rfl
  · rw [offsetOf_eq hx (by rw [hdata, Nat.zero_add]) hk]
    refine offsetOf_eq (by rwa [bytes_place]) ?_ hk
    simp [place, hx, View.shift, hdata, Pointer.shift, Nat.add_comm]

/-- Rebasing moves a view of the head to the new buffer. -/
theorem rebase_place (h : InHead head x) (origin address address' : ℕ) {bytes : Bytes}
    (hbytes : head <+: bytes) :
    RequestParser.rebase ⟨.buffer address', bytes⟩ (place origin address x)
      (RequestParser.offsetOf (.buffer 0) head.length x) = place origin address' x := by
  rcases h.cases with hx | rfl | ⟨k, hdata, hk, hslice, hle, hx⟩
  · simp [RequestParser.offsetOf, RequestParser.rebase, View.isEmpty, place, hx]
  · rfl
  · obtain ⟨rest, rfl⟩ := hbytes
    rw [offsetOf_eq hx (by rw [hdata, Nat.zero_add]) hk, RequestParser.rebase, if_pos rfl]
    refine View.ext ?_ ?_
    · simp [View.substr, Pointer.add, place, hx, View.shift, hdata, Pointer.shift, Nat.add_comm]
    · rw [View.bytes_substr, bytes_place, View.size, bytes_place,
        List.drop_append_of_le_length hk.le, List.take_append_of_le_length]
      · exact hslice.symm
      · rw [List.length_drop]
        exact Nat.le_sub_of_add_le' hle

end InHead

/-! ### A parser that waits for a body -/

/-- The parser that holds `head`, found in a buffer at address 0, after its buffer moved from
`origin` to `address`. -/
def holding (origin address : ℕ) (head : ParsedHead) : RequestParser where
  request := head.request.mapBorrowed (place origin address)
  bufferBase := .buffer address
  rawTargetOffset := RequestParser.offsetOf (.buffer 0) head.bodyOffset head.request.rawTarget
  pathOffset := RequestParser.offsetOf (.buffer 0) head.bodyOffset head.request.path
  queryOffset := RequestParser.offsetOf (.buffer 0) head.bodyOffset head.request.query
  authorityOffset := RequestParser.offsetOf (.buffer 0) head.bodyOffset head.request.authority
  headerOffsets := head.request.headers.map fun header =>
    ⟨RequestParser.offsetOf (.buffer 0) head.bodyOffset header.name,
      RequestParser.offsetOf (.buffer 0) head.bodyOffset header.value⟩
  bodyOffset := head.bodyOffset
  bodyBytes := head.bodyBytes
  headComplete := true

/-- The borrowed views of a request read the bytes `head` at address 0. -/
structure Request.InHead (head : Bytes) (r : Request View) : Prop where
  rawTarget : ErikslundHttp.InHead head r.rawTarget
  path : ErikslundHttp.InHead head r.path
  query : ErikslundHttp.InHead head r.query
  authority : ErikslundHttp.InHead head r.authority
  headers : ∀ f ∈ r.headers, ErikslundHttp.InHead head f.name ∧ ErikslundHttp.InHead head f.value

variable {pton : InetPton} {limits : RequestLimits} {now : TimePoint} {b : Bytes}
  {head : ParsedHead}

theorem bodyOffset_le_of_findHead {v : View} (h : findHead pton now v limits = .ok head) :
    head.bodyOffset ≤ v.size := by
  obtain ⟨h, rest, -, hv, heq⟩ := findHead_map_eq_ok_iff.1 (map_eq_ok.2 ⟨head, h, rfl⟩)
  have hoff : head.bodyOffset = h.render.length := congrArg (fun r => r.2.1) heq
  rw [hoff, View.size, hv, List.length_append]
  exact Nat.le_add_right _ _

theorem inHead_of_findHead (h : findHead pton now ⟨.buffer 0, b⟩ limits = .ok head) :
    head.request.InHead (b.take head.bodyOffset) ∧
      (b.take head.bodyOffset).length = head.bodyOffset := by
  have hviews := viewsIn_of_findHead h
  exact ⟨⟨.inr hviews.rawTarget, hviews.path, .inr hviews.query, .inr hviews.authority,
    fun f hf => ⟨.inr (hviews.headers f hf).1, .inr (hviews.headers f hf).2⟩⟩,
    List.length_take_of_le (bodyOffset_le_of_findHead h)⟩

/-- Rebasing a parser that holds a head. -/
theorem rebaseBorrowedViews_holding {origin address address' : ℕ} {text bytes : Bytes}
    (hin : head.request.InHead text) (hlen : text.length = head.bodyOffset) (hb : text <+: bytes) :
    (holding origin address head).rebaseBorrowedViews ⟨.buffer address', bytes⟩ =
      holding origin address' head := by
  have hplace : ∀ {x : View}, InHead text x →
      RequestParser.rebase ⟨.buffer address', bytes⟩ (place origin address x)
        (RequestParser.offsetOf (.buffer 0) head.bodyOffset x) = place origin address' x :=
    fun hx => hlen ▸ hx.rebase_place origin address address' hb
  simp only [RequestParser.rebaseBorrowedViews, holding, Request.mapBorrowed, hplace hin.rawTarget,
    hplace hin.path, hplace hin.query, hplace hin.authority, List.zipWith_map, List.zipWith_self]
  congr 2
  refine List.map_congr_left fun f hf => ?_
  rw [HeaderView.map, HeaderView.map, hplace (hin.headers f hf).1, hplace (hin.headers f hf).2]

/-- The head found at an address is the head found at address 0, moved there. -/
theorem findHead_at (pton : InetPton) (limits : RequestLimits) (now : TimePoint) (b : Bytes)
    (address : ℕ) :
    findHead pton now ⟨.buffer address, b⟩ limits = (findHead pton now ⟨.buffer 0, b⟩ limits).map
      fun head => { head with request := head.request.mapBorrowed (View.shift address) } := by
  rw [← findHead_shift]
  simp [View.shift, Pointer.shift]

/-- A fresh parser that completes a head holds it where its buffer is. -/
theorem parseHead_eq_holding (h : findHead pton now ⟨.buffer 0, b⟩ limits = .ok head)
    (address : ℕ) :
    RequestParser.parseHead pton now {} ⟨.buffer address, b⟩ limits =
      .ok (holding address address head) := by
  obtain ⟨hin, hlen⟩ := inHead_of_findHead h
  have hoff : ∀ {x : View}, InHead (b.take head.bodyOffset) x →
      RequestParser.offsetOf (.buffer address) head.bodyOffset (x.shift address) =
        RequestParser.offsetOf (.buffer 0) head.bodyOffset x := by
    intro x hx
    have := hx.offsetOf_place address address
    rwa [hlen, place_self] at this
  have hheaders : (head.request.headers.map (HeaderView.map (View.shift address))).map
      (fun header => (⟨RequestParser.offsetOf (.buffer address) head.bodyOffset header.name,
        RequestParser.offsetOf (.buffer address) head.bodyOffset header.value⟩ : HeaderOffsets)) =
      head.request.headers.map fun header =>
        ⟨RequestParser.offsetOf (.buffer 0) head.bodyOffset header.name,
          RequestParser.offsetOf (.buffer 0) head.bodyOffset header.value⟩ := by
    rw [List.map_map]
    refine List.map_congr_left fun f hf => ?_
    exact congrArg₂ HeaderOffsets.mk (hoff (hin.headers f hf).1) (hoff (hin.headers f hf).2)
  rw [RequestParser.parseHead, findHead_at, h]
  simp only [Except.map, bind, Except.bind, pure, Except.pure, RequestParser.rememberBufferOffsets,
    holding, place_self, Request.mapBorrowed, hoff hin.rawTarget, hoff hin.path, hoff hin.query,
    hoff hin.authority, hheaders]

theorem parseHead_eq_error {e : ParseError}
    (h : findHead pton now ⟨.buffer 0, b⟩ limits = .error e) (address : ℕ) :
    RequestParser.parseHead pton now {} ⟨.buffer address, b⟩ limits = .error e := by
  rw [RequestParser.parseHead, findHead_at, h]
  rfl

/-- The request a parser that holds a head returns. -/
def completed (origin address : ℕ) (head : ParsedHead) (v : View) : ParsedRequest View :=
  ⟨{ head.request.mapBorrowed (place origin address) with
      body := v.substr head.bodyOffset head.bodyBytes },
    head.bodyOffset + head.bodyBytes, head.bodyOffset⟩

/-- A parser that holds a head waits until the body is there, and is then as good as new. -/
theorem parseBody_holding (hhead : findHead pton now ⟨.buffer 0, b⟩ limits = .ok head)
    {bytes : Bytes} (hb : b <+: bytes) (origin address address' : ℕ) :
    (holding origin address head).parseBody ⟨.buffer address', bytes⟩ =
      if bytes.length < head.bodyOffset + head.bodyBytes then
        (.error .needsMoreData, holding origin address' head)
      else (.ok (completed origin address' head ⟨.buffer address', bytes⟩), {}) := by
  obtain ⟨hin, hlen⟩ := inHead_of_findHead hhead
  have hle := bodyOffset_le_of_findHead hhead
  have hle' : b.length ≤ bytes.length := hb.length_le
  simp only [View.size] at hle
  have hrebase : (if (⟨.buffer address', bytes⟩ : View).data ≠ (holding origin address head).bufferBase
      then (holding origin address head).rebaseBorrowedViews ⟨.buffer address', bytes⟩
      else holding origin address head) = holding origin address' head := by
    split_ifs with h
    · exact rebaseBorrowedViews_holding hin hlen ((List.take_prefix _ _).trans hb)
    · simp only [holding, ne_eq, not_not, Pointer.buffer.injEq] at h
      rw [h]
  have hsize : ¬ bytes.length < head.bodyOffset := by omega
  have hiff : bytes.length - head.bodyOffset < head.bodyBytes ↔
      bytes.length < head.bodyOffset + head.bodyBytes := by omega
  rw [RequestParser.parseBody, hrebase]
  simp only [View.size, holding, hsize, hiff, if_false]
  rfl

/-! ### Runs of the parser -/

/-- A call of `parse`: the clock reading, and the bytes with their address. -/
structure Presentation where
  now : TimePoint
  /-- Where the buffer lies at the call. -/
  address : ℕ
  bytes : Bytes

/-- The bytes at their address. -/
def Presentation.view (c : Presentation) : View := ⟨.buffer c.address, c.bytes⟩

/-- The parser after calls that all needed more data, if they all did. -/
def feed (pton : InetPton) (limits : RequestLimits) :
    RequestParser → List Presentation → Option RequestParser
  | p, [] => some p
  | p, c :: calls =>
    match p.parse pton c.now c.view limits with
    | (.error .needsMoreData, p) => feed pton limits p calls
    | _ => none

/-- A parser that has seen the bytes `b` and needs more. -/
inductive Waiting (pton : InetPton) (limits : RequestLimits) (b : Bytes) : RequestParser → Prop
  | fresh : Waiting pton limits b {}
  | complete (origin address : ℕ) (now : TimePoint) (head : ParsedHead)
      (h : findHead pton now ⟨.buffer 0, b⟩ limits = .ok head) :
      Waiting pton limits b (holding origin address head)

/-- What a call does: it has no complete head, or it holds one and looks for the body. -/
theorem Waiting.parse_cases {p : RequestParser} (hw : Waiting pton limits b p) {c : Presentation}
    (hb : b <+: c.bytes) :
    (∃ e, findHead pton c.now c.view limits = .error e ∧
      p.parse pton c.now c.view limits = (.error e, {})) ∨
    ∃ origin now head, findHead pton now ⟨.buffer 0, c.bytes⟩ limits = .ok head ∧
      p.parse pton c.now c.view limits =
        if c.bytes.length < head.bodyOffset + head.bodyBytes then
          (.error .needsMoreData, holding origin c.address head)
        else (.ok (completed origin c.address head c.view), {}) := by
  cases hw with
  | fresh =>
    cases h : findHead pton c.now ⟨.buffer 0, c.bytes⟩ limits with
    | error e =>
      refine .inl ⟨e, ?_, ?_⟩
      · rw [Presentation.view, findHead_at, h]
        rfl
      · rw [RequestParser.parse, Presentation.view, parseHead_eq_error h]
        rfl
    | ok head =>
      refine .inr ⟨c.address, c.now, head, h, ?_⟩
      rw [RequestParser.parse, Presentation.view, parseHead_eq_holding h]
      exact parseBody_holding h (List.prefix_refl _) _ _ _
  | complete origin address now head h =>
    obtain ⟨rest, hrest⟩ := hb
    refine .inr ⟨origin, now, head, hrest ▸ findHead_append h rest, ?_⟩
    rw [RequestParser.parse, Presentation.view]
    exact parseBody_holding h ⟨rest, hrest⟩ _ _ _

/-- A call that needs more data leaves a parser that has seen its bytes. -/
theorem Waiting.step {p p' : RequestParser} (hw : Waiting pton limits b p) {c : Presentation}
    (hb : b <+: c.bytes)
    (h : p.parse pton c.now c.view limits = (.error .needsMoreData, p')) :
    Waiting pton limits c.bytes p' := by
  rcases hw.parse_cases hb with ⟨e, -, heq⟩ | ⟨origin, now, head, hhead, heq⟩
  · obtain ⟨-, rfl⟩ := Prod.mk.inj (heq.symm.trans h)
    exact .fresh
  · rw [heq] at h
    split_ifs at h
    · obtain ⟨-, rfl⟩ := Prod.mk.inj h
      exact .complete origin c.address now head hhead
    · cases (Prod.mk.inj h).1

/-- Calls with growing bytes that all need more data. -/
theorem Waiting.of_feed {p p' : RequestParser} (hw : Waiting pton limits b p)
    {calls : List Presentation} {c : Presentation}
    (hgrow : List.IsChain (· <+: ·) (b :: (calls ++ [c]).map Presentation.bytes))
    (h : feed pton limits p calls = some p') :
    ∃ b', Waiting pton limits b' p' ∧ b' <+: c.bytes := by
  induction calls generalizing p b with
  | nil =>
    cases h
    exact ⟨b, hw, by simpa using hgrow⟩
  | cons d calls ih =>
    simp only [List.cons_append, List.map_cons, List.isChain_cons_cons] at hgrow
    rw [feed] at h
    split at h
    · rename_i hparse
      exact ih (hw.step hgrow.1 hparse) hgrow.2 h
    · cases h

/-- The request of a call, without its addresses and its time of receipt. -/
def ParsedRequest.content (r : ParsedRequest View) : ParsedRequest Bytes :=
  (r.map View.bytes).stampedAt 0

theorem map_bytes_mapBorrowed {f : View → View} (hf : ∀ x, (f x).bytes = x.bytes)
    (r : Request View) : (r.mapBorrowed f).map View.bytes = r.map View.bytes := by
  simp only [Request.mapBorrowed, Request.map, hf, List.map_map, Function.comp_def, HeaderView.map]
  rfl

/-- What a completed request says does not depend on where its views are. -/
theorem content_completed (origin address : ℕ) (head : ParsedHead) (v : View) :
    (completed origin address head v).content =
      ⟨{ head.request.map View.bytes with
          body := (v.substr head.bodyOffset head.bodyBytes).bytes, receivedAt := 0 },
        head.bodyOffset + head.bodyBytes, head.bodyOffset⟩ := by
  rw [← map_bytes_mapBorrowed (bytes_place origin address) head.request]
  rfl

theorem Waiting.parse_eq_parseRequest {p : RequestParser} (hw : Waiting pton limits b p)
    {c : Presentation} (hb : b <+: c.bytes) :
    (p.parse pton c.now c.view limits).1.map ParsedRequest.content =
      (parseRequest pton c.now c.view limits).map ParsedRequest.content := by
  rcases hw.parse_cases hb with ⟨e, he, heq⟩ | ⟨origin, now, head, hhead, heq⟩
  · rw [heq, parseRequest_eq, he]
    rfl
  · have hnow := findHead_now pton now c.now ⟨.buffer 0, c.bytes⟩ limits
    rw [hhead] at hnow
    have hone := parseBody_holding hnow (List.prefix_refl _) c.address c.address c.address
    rw [heq, parseRequest, RequestParser.parse, Presentation.view, parseHead_eq_holding hnow]
    simp only [Bool.false_eq_true, if_false, hone]
    split_ifs
    · rfl
    · simp only [Except.map, content_completed]
      rfl

/-- A view of the head, placed in the buffer that holds it. -/
theorem within_place (text : Bytes) {bytes : Bytes} {x : View} (h : Within ⟨.buffer 0, text⟩ x)
    (hb : text <+: bytes) (origin address : ℕ) :
    Within ⟨.buffer address, bytes⟩ (place origin address x) := by
  by_cases hx : x.bytes = []
  · exact .inl (by rw [bytes_place, hx])
  · have hin : InHead text x := .inr h
    have hroot : x ≠ rootPath := by
      rintro rfl
      obtain ⟨_, -, heq⟩ := h.resolve_left hx
      cases congrArg View.data heq
    obtain ⟨k, hdata, hk, -, -, -⟩ := (hin.cases.resolve_left hx).resolve_left hroot
    rw [← hin.rebase_place origin 0 address hb, offsetOf_eq hx (by rw [hdata, Nat.zero_add]) hk]
    exact within_substr _ _ _

/-- The views of a completed request read the buffer of the call that completed it. -/
theorem viewsIn_completed (hhead : findHead pton now ⟨.buffer 0, b⟩ limits = .ok head)
    (origin address : ℕ) :
    (completed origin address head ⟨.buffer address, b⟩).request.ViewsIn ⟨.buffer address, b⟩ := by
  have hviews := viewsIn_of_findHead hhead
  have hplace : ∀ {x : View}, Within (View.substr ⟨.buffer 0, b⟩ 0 head.bodyOffset) x →
      Within ⟨.buffer address, b⟩ (place origin address x) := fun hx =>
    within_place (b.take head.bodyOffset) hx (List.take_prefix _ _) origin address
  refine ⟨hplace hviews.rawTarget, hviews.path.imp (fun h => ?_) hplace, hplace hviews.query,
    hplace hviews.authority, fun f hf => ?_, hviews.queryParameters⟩
  · rw [completed, Request.mapBorrowed, h]
    rfl
  · obtain ⟨g, hg, rfl⟩ := List.mem_map.1 hf
    exact ⟨hplace (hviews.headers g hg).1, hplace (hviews.headers g hg).2⟩

/-- **The resumable parser is the one-shot parser.**  After calls with growing bytes, each at any
address, that all needed more data, a call gives the error that `parse_request` gives on its bytes,
or the same request; all views of the request read the bytes of this call, the decode arena, or the
literal root path; and the parser is fresh again. -/
theorem resumed_parse_eq_one_shot (pton : InetPton) (limits : RequestLimits)
    (calls : List Presentation) (c : Presentation) (p : RequestParser)
    (hgrow : List.IsChain (· <+: ·) ((calls ++ [c]).map Presentation.bytes))
    (hwait : feed pton limits {} calls = some p) :
    (p.parse pton c.now c.view limits).1.map ParsedRequest.content =
      (parseRequest pton c.now c.view limits).map ParsedRequest.content ∧
    ∀ r, (p.parse pton c.now c.view limits).1 = .ok r →
      r.request.ViewsIn c.view ∧
      r.request.body = c.view.substr r.bodyOffset (r.consumedBytes - r.bodyOffset) ∧
      (p.parse pton c.now c.view limits).2 = {} := by
  have hfresh : Waiting pton limits [] {} := .fresh
  obtain ⟨b, hw, hb⟩ := hfresh.of_feed (List.IsChain.cons hgrow (by simp)) hwait
  refine ⟨hw.parse_eq_parseRequest hb, fun r hr => ?_⟩
  rcases hw.parse_cases hb with ⟨e, -, heq⟩ | ⟨origin, now, head, hhead, heq⟩
  · rw [heq] at hr
    cases hr
  · rw [heq] at hr ⊢
    split_ifs at hr ⊢
    cases hr
    refine ⟨viewsIn_completed hhead origin c.address, ?_, rfl⟩
    simp [completed]

/-- A message with a body and views of every kind: a query, an empty value, a target authority. -/
def postedForm : Bytes :=
  ascii "POST http://a?k=v HTTP/1.1\r\nHost: A\r\nX:\r\nContent-Length: 3\r\n\r\nabc"

/-- The buffer moves while the head and the body arrive. -/
theorem resumed_parse_of_moved_buffer : ∃ p,
    feed .rejecting {} {} [⟨0, 0, postedForm.take 20⟩, ⟨1, 500, postedForm.take 62⟩,
      ⟨2, 9000, postedForm.take 64⟩] = some p ∧
    (p.parse .rejecting 3 ⟨.buffer 40, postedForm⟩ {}).1.map ParsedRequest.content =
      (parseRequest .rejecting 3 ⟨.buffer 40, postedForm⟩ {}).map ParsedRequest.content ∧
    p.waitingForBody = true := by
  obtain ⟨p, hp, hwait⟩ : ∃ p, feed .rejecting {} {} [⟨0, 0, postedForm.take 20⟩,
      ⟨1, 500, postedForm.take 62⟩, ⟨2, 9000, postedForm.take 64⟩] = some p ∧
      p.waitingForBody = true := Option.map_eq_some_iff.1 (by decide +kernel)
  exact ⟨p, hp, (resumed_parse_eq_one_shot .rejecting {} _ ⟨3, 40, postedForm⟩ p (by decide) hp).1,
    hwait⟩

end ErikslundHttp
