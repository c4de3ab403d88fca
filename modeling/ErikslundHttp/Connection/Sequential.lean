import ErikslundHttp.Connection.Basic
import ErikslundHttp.Request.Resume

/-!
# The sequential server

What a connection is for, without buffers, states and partial transfers: requests are read one
after the other from the bytes received, each is answered, and the answers are sent in that order.

* `parseBytes` is `parse_request` on a string of bytes, and `ServedInOrder` says that requests were
  read one after the other.
* `responses` are the answers to a list of requests; each depends on its request and on whether the
  connection takes another one after it.
* `Ending` says what may follow the answers: nothing, one error response, or a stream.

The ledger of a connection sums up its trace in these terms.
-/

namespace ErikslundHttp

/-! ### Requests in a string of bytes -/

/-- `parse_request`, without the address of the bytes and the time of the call. -/
def parseBytes (pton : InetPton) (limits : RequestLimits) (bytes : Bytes) :
    Except ParseError (ParsedRequest Bytes) :=
  (parseRequest pton 0 ⟨.buffer 0, bytes⟩ limits).map ParsedRequest.content

section Parse

variable {pton : InetPton} {limits : RequestLimits} {bytes : Bytes} {p : ParsedRequest Bytes}

/-- What the end of a parse says depends on the bytes of its views only. -/
theorem completeBody_map_content (v : View) (head : ParsedHead) :
    (completeBody v head).map ParsedRequest.content =
      if v.bytes.length < head.bodyOffset + head.bodyBytes then .error .needsMoreData
      else .ok ⟨{ head.request.map View.bytes with
          body := (v.bytes.drop head.bodyOffset).take head.bodyBytes, receivedAt := 0 },
        head.bodyOffset + head.bodyBytes, head.bodyOffset⟩ := by
  rw [completeBody, View.size]
  split_ifs <;> rfl

/-- Every call of `parse_request` on these bytes says the same. -/
theorem parseRequest_map_content (c : Presentation) :
    (parseRequest pton c.now c.view limits).map ParsedRequest.content =
      parseBytes pton limits c.bytes := by
  rw [parseBytes, parseRequest_eq, parseRequest_eq, Presentation.view, findHead_at,
    findHead_now pton 0 c.now]
  cases findHead pton 0 ⟨.buffer 0, c.bytes⟩ limits with
  | error e => rfl
  | ok head =>
    simp only [Except.map, ok_bind]
    refine (completeBody_map_content _ _).trans (Eq.trans ?_ (completeBody_map_content _ _).symm)
    simp only [map_bytes_mapBorrowed (View.bytes_shift c.address)]
    rfl

/-- A parser that waits says what a one-shot parse of all the bytes says. -/
theorem Waiting.parse_map_content {b : Bytes} {parser : RequestParser}
    (hw : Waiting pton limits b parser) {c : Presentation} (hb : b <+: c.bytes) :
    (parser.parse pton c.now c.view limits).1.map ParsedRequest.content =
      parseBytes pton limits c.bytes :=
  (hw.parse_eq_parseRequest hb).trans (parseRequest_map_content c)

/-- Whatever a call says, the parser waits again. -/
theorem Waiting.parse {b : Bytes} {parser : RequestParser} (hw : Waiting pton limits b parser)
    {c : Presentation} (hb : b <+: c.bytes) :
    Waiting pton limits c.bytes (parser.parse pton c.now c.view limits).2 := by
  rcases hw.parse_cases hb with ⟨e, -, heq⟩ | ⟨origin, now, head, hhead, heq⟩
  · rw [heq]
    exact .fresh
  · rw [heq]
    split_ifs
    · exact .complete origin c.address now head hhead
    · exact .fresh

/-- After a complete request the parser is as good as new. -/
theorem Waiting.parse_ok {b : Bytes} {parser parser' : RequestParser}
    (hw : Waiting pton limits b parser) {c : Presentation} (hb : b <+: c.bytes)
    {r : ParsedRequest View} (h : parser.parse pton c.now c.view limits = (.ok r, parser')) :
    parser' = {} := by
  rcases hw.parse_cases hb with ⟨e, -, heq⟩ | ⟨origin, now, head, -, heq⟩
  · rw [heq] at h
    cases h
  · rw [heq] at h
    split_ifs at h
    · cases h
    · exact (Prod.mk.inj h).2.symm

theorem consumedBytes_le (h : parseBytes pton limits bytes = .ok p) :
    p.consumedBytes ≤ bytes.length := by
  obtain ⟨r, hr, rfl⟩ := map_eq_ok.1 h
  obtain ⟨head, body, rest, -, -, hbytes, heq⟩ := exists_head_of_parseRequest hr
  have hn : r.consumedBytes = head.render.length + body.length :=
    congrArg ParsedRequest.consumedBytes heq
  change r.consumedBytes ≤ bytes.length
  change bytes = _ at hbytes
  rw [hn, hbytes, List.length_append, List.length_append]
  exact Nat.le_add_right _ _

/-- Bytes that arrive later do not change a complete request. -/
theorem parseBytes_append (h : parseBytes pton limits bytes = .ok p) (later : Bytes) :
    parseBytes pton limits (bytes ++ later) = .ok p := by
  have hle := consumedBytes_le h
  obtain ⟨r, hr, rfl⟩ := map_eq_ok.1 h
  have hbytes : bytes ++ later =
      bytes.take r.consumedBytes ++ (bytes.drop r.consumedBytes ++ later) := by
    rw [← List.append_assoc, List.take_append_drop]
  obtain ⟨q, hq, heq⟩ :=
    map_eq_ok.1 (parseRequest_append (w := ⟨.buffer 0, bytes ++ later⟩) hr hbytes 0)
  refine map_eq_ok.2 ⟨q, hq, ?_⟩
  rw [ParsedRequest.content, heq]
  rfl

end Parse

namespace Connection

variable {σ : Type} (env : Environment σ)

/-! ### The ledger -/

/-- A request handed to the router, and the time its response was encoded. -/
structure Dispatch where
  request : Request Bytes
  now : SystemTime

/-- What a connection received outside `drive_close`, what the transport accepted from it, and the
requests it dispatched, with the lengths it consumed for them. -/
structure Ledger where
  /-- All bytes that reads yielded. -/
  received : Bytes := []
  /-- All bytes that writes accepted. -/
  sent : Bytes := []
  /-- The length of each request, in order. -/
  consumed : List ℕ := []
  /-- The requests handed to the router, in order. -/
  dispatches : List Dispatch := []

/-- What an event adds to the ledger. -/
def Ledger.post (l : Ledger) : Event → Ledger
  | .read _ .ok bytes => { l with received := l.received ++ bytes }
  | .writev vectors .ok accepted => { l with sent := l.sent ++ vectors.flatten.take accepted }
  | .consumed _ bytes => { l with consumed := l.consumed ++ [bytes] }
  | .dispatched request now => { l with dispatches := l.dispatches ++ [⟨request, now⟩] }
  | _ => l

/-- The ledger of a connection. -/
def ledger (c : Connection σ) : Ledger := c.trace.foldl (fun l entry => l.post entry.2) {}

theorem ledger_record (event : Event) (c : Connection σ) :
    (c.record event).ledger = c.ledger.post event := by
  rw [ledger, record, List.foldl_append]
  rfl

/-! ### Requests read in order -/

/-- `request` is the request `parse_request` finds at the front of `bytes`, where it takes
`consumed` bytes, with the peer, the secure flag and the certificate of the connection. -/
def Parses (bytes : Bytes) (consumed : ℕ) (request : Request Bytes) : Prop :=
  ∃ p, parseBytes env.pton env.options.limits bytes = .ok p ∧ p.consumedBytes = consumed ∧
    request = attach env p.request request.receivedAt

/-- The requests are read one after the other from the front of `bytes`, each where the one before
it ends. -/
def ServedInOrder : Bytes → List ℕ → List Dispatch → Prop
  | _, [], [] => True
  | bytes, n :: lengths, d :: dispatches =>
    Parses env bytes n d.request ∧ ServedInOrder (bytes.drop n) lengths dispatches
  | _, _, _ => False

variable {env}

theorem Parses.append {bytes : Bytes} {n : ℕ} {request : Request Bytes}
    (h : Parses env bytes n request) (later : Bytes) : Parses env (bytes ++ later) n request := by
  obtain ⟨p, hp, hn, hr⟩ := h
  exact ⟨p, parseBytes_append hp later, hn, hr⟩

theorem Parses.le {bytes : Bytes} {n : ℕ} {request : Request Bytes}
    (h : Parses env bytes n request) : n ≤ bytes.length := by
  obtain ⟨p, hp, rfl, -⟩ := h
  exact consumedBytes_le hp

/-- Bytes that arrive later do not change the requests. -/
theorem ServedInOrder.append {bytes : Bytes} {lengths : List ℕ} {dispatches : List Dispatch}
    (h : ServedInOrder env bytes lengths dispatches) (later : Bytes) :
    ServedInOrder env (bytes ++ later) lengths dispatches := by
  induction lengths generalizing bytes dispatches with
  | nil =>
    cases dispatches with
    | nil => trivial
    | cons d dispatches => exact h
  | cons n lengths ih =>
    cases dispatches with
    | nil => exact h
    | cons d dispatches =>
      refine ⟨h.1.append later, ?_⟩
      rw [List.drop_append_of_le_length h.1.le]
      exact ih h.2

/-- The next request is read where the last one ends. -/
theorem ServedInOrder.concat {bytes : Bytes} {lengths : List ℕ} {dispatches : List Dispatch}
    (h : ServedInOrder env bytes lengths dispatches) {n : ℕ} {d : Dispatch}
    (hd : Parses env (bytes.drop lengths.sum) n d.request) :
    ServedInOrder env bytes (lengths ++ [n]) (dispatches ++ [d]) := by
  induction lengths generalizing bytes dispatches with
  | nil =>
    cases dispatches with
    | nil => exact ⟨by simpa using hd, trivial⟩
    | cons d dispatches => exact h.elim
  | cons m lengths ih =>
    cases dispatches with
    | nil => exact h.elim
    | cons d' dispatches =>
      refine ⟨h.1, ih h.2 ?_⟩
      rwa [List.drop_drop, ← List.sum_cons]

/-! ### Responses -/

variable (env)

/-- The encoded answer to a request; `another` says whether the connection may take one more. -/
def Dispatch.wire (d : Dispatch) (another : Bool) : Bytes :=
  let response := answer env d.request
  (encodeResponse env.deflate d.now d.request response
    (encodingOptions env (!response.isStream && d.request.keepAlive && another))).wire

/-- The answers to requests, in order.  The `i`-th request is followed by another one only if
`i < max_requests_per_connection`. -/
def responses (dispatches : List Dispatch) : Bytes :=
  (dispatches.mapIdx fun i d =>
    d.wire env (decide (i + 1 < env.options.maxRequestsPerConnection.toNat))).flatten

theorem responses_concat (dispatches : List Dispatch) (d : Dispatch) :
    responses env (dispatches ++ [d]) = responses env dispatches ++
      d.wire env (decide (dispatches.length + 1 < env.options.maxRequestsPerConnection.toNat)) := by
  simp [responses]

/-- An error response closes the connection. -/
def errorWire (status : Status) (now : SystemTime) : Bytes :=
  (encodeResponse env.deflate now Request.init (errorResponse status)
    (encodingOptions env false)).wire

/-- The bytes of the first calls of `pull` on a source; those of an idle call are dropped. -/
def streamOutput (source : StreamSource) (calls : ℕ) : Bytes :=
  (List.range calls).flatMap fun i =>
    if (source.pull i).2 = some .idle then [] else (source.pull i).1

theorem streamOutput_succ (source : StreamSource) (calls : ℕ) :
    streamOutput source (calls + 1) = streamOutput source calls ++
      if (source.pull calls).2 = some .idle then [] else (source.pull calls).1 := by
  rw [streamOutput, streamOutput, List.range_succ, List.flatMap_append, List.flatMap_singleton]

/-- What may follow the answers to the dispatched requests: nothing; the answer to a timeout; the
answer to a rest that `parse_request` rejects; or the bytes of the stream that answers the last
request. -/
inductive Ending (l : Ledger) : Bytes → Prop
  | nothing : Ending l []
  | timeout (now : SystemTime) : Ending l (errorWire env .requestTimeout now)
  | malformed (error : ParseError) (now : SystemTime) (hne : error ≠ .needsMoreData)
      (h : parseBytes env.pton env.options.limits (l.received.drop l.consumed.sum) =
        .error error) : Ending l (errorWire env error.status now)
  | stream (d : Dispatch) (source : StreamSource) (calls : ℕ)
      (hlast : l.dispatches.getLast? = some d) (hmethod : d.request.method ≠ .head)
      (hsource : (answer env d.request).stream = some source) :
      Ending l (streamOutput source calls)

end Connection

end ErikslundHttp
