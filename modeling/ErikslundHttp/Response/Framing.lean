import ErikslundHttp.Response.Fields

/-!
# Response framing

Where one response ends and the next begins is decided by the head alone.  A head is one status
line and field lines, with no line terminator inside a line, and its first empty line is its end.
It always says `Connection` once, never `Transfer-Encoding`, and `Content-Length` once exactly
when the message may carry a body; its value is the length of that body.

* `readResponse` is a client that knows the methods of its requests (RFC 9112 section 6.3).
* `responses_are_framed`: it splits the concatenation of responses into the heads and bodies that
  were sent.
-/

namespace ErikslundHttp

open Scan Lines

/-! ### The framing fields of a head -/

/-- A field of that name, in any letter case. -/
def named (name : String) (field : Bytes × Bytes) : Bool := equalsIgnoreCase field.1 (ascii name)

theorem filter_named_fieldIf (wanted name : String) (guard : Bool) (value : Bytes) :
    (fieldIf guard name value).filter (named wanted) =
      if equalsIgnoreCase (ascii name) (ascii wanted) then fieldIf guard name value else [] := by
  cases guard <;> cases h : equalsIgnoreCase (ascii name) (ascii wanted) <;>
    simp [fieldIf, named, h]

section Fields

variable (deflate : Deflate) (now : SystemTime) (request : Request Bytes) (response : Response)
  (options : ResponseEncodingOptions)

theorem filter_named_handlerFields {name : String}
    (h : ∀ f ∈ response.handlerFields, named name f = false) :
    response.handlerFields.filter (named name) = [] :=
  List.filter_eq_nil_iff.2 fun f hf => by rw [h f hf]; exact Bool.false_ne_true

theorem filter_connection : (headFields deflate now request response options).filter
    (named "Connection") =
      [(ascii "Connection", connectionToken (!response.isStream && options.keepAlive))] := by
  rw [headFields, List.filter_append, filter_named_handlerFields response fun f hf =>
    (handlerFields_spec response hf).2.1]
  simp +decide only [addedFields, List.filter_append, filter_named_fieldIf, if_true, if_false,
    List.nil_append]
  rfl

theorem filter_transferEncoding : (headFields deflate now request response options).filter
    (named "Transfer-Encoding") = [] := by
  rw [headFields, List.filter_append, filter_named_handlerFields response fun f hf =>
    (handlerFields_spec response hf).2.2.1]
  simp +decide only [addedFields, List.filter_append, filter_named_fieldIf, if_false,
    List.nil_append]

theorem filter_contentLength : (headFields deflate now request response options).filter
    (named "Content-Length") =
      fieldIf (!response.isStream && !response.status.isBodiless) "Content-Length"
        (toChars (response.encodedBody deflate request).length) := by
  rw [headFields, List.filter_append, filter_named_handlerFields response fun f hf =>
    (handlerFields_spec response hf).1]
  simp +decide only [addedFields, List.filter_append, filter_named_fieldIf, if_true, if_false,
    List.nil_append, List.append_nil]

/-! ### The only empty line of a head -/

theorem renderLines_cons (line : Bytes) (lines : List Bytes) : renderLines (line :: lines) =
    line ++ lines.flatMap (crlf ++ ·) ++ crlf ++ crlf := by
  have hshift : ∀ ls : List Bytes, crlf ++ ls.flatMap (· ++ crlf) = ls.flatMap (crlf ++ ·) ++ crlf := by
    intro ls
    induction ls with
    | nil => simp
    | cons l ls ih =>
      rw [List.flatMap_cons, List.flatMap_cons, List.append_assoc, List.append_assoc, ← ih]
      simp
  rw [renderLines, List.flatMap_cons, List.append_assoc line, hshift]
  simp

/-- Plain, non-empty lines have no empty line among them. -/
theorem blank_line_iff {line : Bytes} {lines : List Bytes}
    (hplain : ∀ l ∈ line :: lines, l ≠ [] ∧ CR ∉ l ∧ LF ∉ l) (i : ℕ) :
    crlf ++ crlf <+: (renderLines (line :: lines)).drop i ↔
      i + 4 = (renderLines (line :: lines)).length := by
  obtain ⟨hline, hlines⟩ := List.forall_mem_cons.1 hplain
  set text := line ++ lines.flatMap (crlf ++ ·) with htext
  have hrender : renderLines (line :: lines) = text ++ (crlf ++ crlf) := by
    rw [renderLines_cons, List.append_assoc]
  have hlength : (text ++ (crlf ++ crlf)).length = text.length + 4 := by simp
  rw [hrender, hlength]
  constructor
  · intro h
    by_contra hne
    have hle : i + 4 ≤ text.length + 4 := by
      have := h.length_le
      rw [List.length_drop, hlength] at this
      simp only [List.length_append, length_crlf] at this
      omega
    -- the occurrence ends before the last byte of the head
    refine not_blank_line (by decide : LF ≠ CR) hline.2.1
      (fun l hl => ⟨(hlines l hl).1, (hlines l hl).2.1⟩) ?_
    have hcut : text ++ (crlf ++ crlf) = (text ++ [CR, LF, CR]) ++ [LF] := by simp [crlf]
    rw [hcut, List.drop_append_of_le_length (by simp; omega)] at h
    have hinside := List.prefix_of_prefix_length_le h (List.prefix_append _ [LF])
      (by simp only [List.length_append, length_crlf, List.length_drop, List.length_cons,
            List.length_nil]; omega)
    exact hinside.isInfix.trans (List.drop_suffix i _).isInfix
  · intro h
    rw [Nat.add_right_cancel h, List.drop_left]

/-- What the head of an encoded response says, `fields` being its fields. -/
structure FramedHead (fields : List (Bytes × Bytes)) : Prop where
  /-- One status line and field lines `token: value`, each ended by CRLF, and an empty line. -/
  lines : (encodeResponse deflate now request response options).head =
    renderLines (statusLine response.status :: fields.map fieldLine)
  /-- The names are tokens. -/
  tokens : ∀ f ∈ fields, isValidFieldName f.1 = true
  /-- The values hold no control byte but the tab. -/
  values : ∀ f ∈ fields, isValidFieldValue f.2 = true
  /-- No CR or LF anywhere else. -/
  plain : ∀ l ∈ statusLine response.status :: fields.map fieldLine, CR ∉ l ∧ LF ∉ l
  /-- The only CRLFCRLF is at the end. -/
  blank_line : ∀ i, crlf ++ crlf <+:
      (encodeResponse deflate now request response options).head.drop i ↔
    i + 4 = (encodeResponse deflate now request response options).head.length
  /-- It says once whether the connection stays open. -/
  connection : fields.countP (named "Connection") = 1
  /-- No coding of the transfer is ever used. -/
  transfer_encoding : fields.countP (named "Transfer-Encoding") = 0
  /-- One, unless a stream or a status without a body has none. -/
  content_length : fields.countP (named "Content-Length") =
    if response.isStream = false ∧ response.status.isBodiless = false then 1 else 0
  /-- The length is that of the body on the wire for this request under every method but HEAD. -/
  length_value : ∀ f ∈ fields, named "Content-Length" f = true → ∀ method, method ≠ .head →
    f.2 = toChars (encodeResponse deflate now { request with method := method } response
      options).wireBody.length

theorem wireBody_of_ne_head {deflate : Deflate} {now : SystemTime} {request : Request Bytes}
    {response : Response} {options : ResponseEncodingOptions} (hmethod : request.method ≠ .head)
    (hstream : response.isStream = false) (hbodiless : response.status.isBodiless = false) :
    (encodeResponse deflate now request response options).wireBody =
      response.encodedBody deflate request := by
  rw [EncodedResponse.wireBody, encodeResponse_suppressBody, encodeResponse_body, hstream,
    hbodiless, if_neg]
  simpa using hmethod

theorem countP_named (fields : List (Bytes × Bytes)) (name : String) :
    fields.countP (named name) = (fields.filter (named name)).length :=
  List.countP_eq_length_filter

theorem framedHead_headFields : FramedHead deflate now request response options
    (headFields deflate now request response options) where
  lines := encodeResponse_head deflate now request response options
  tokens f hf := (headFields_valid deflate now request response options f hf).1
  values f hf := (headFields_valid deflate now request response options f hf).2
  plain l hl := (headLines_plain deflate now request response options l hl).2
  blank_line i := by
    rw [encodeResponse_head]
    exact blank_line_iff (headLines_plain deflate now request response options) i
  connection := by rw [countP_named, filter_connection]; rfl
  transfer_encoding := by rw [countP_named, filter_transferEncoding]; rfl
  content_length := by
    rw [countP_named, filter_contentLength]
    cases response.isStream <;> cases response.status.isBodiless <;> rfl
  length_value f hf hname method hmethod := by
    have hmem := List.mem_filter.2 ⟨hf, hname⟩
    rw [filter_contentLength, fieldIf] at hmem
    split_ifs at hmem with hguard
    · simp only [Bool.and_eq_true, Bool.not_eq_true'] at hguard
      rw [wireBody_of_ne_head hmethod hguard.1 hguard.2, List.mem_singleton.1 hmem]
      rfl
    · exact absurd hmem List.not_mem_nil

end Fields

/-! ### The client -/

/-- How a client finds the end of a body. -/
inductive BodyFraming where
  | absent
  | length (bytes : ℕ)
  | untilClose
  /-- A transfer coding, which this client does not decode, or a length it cannot use. -/
  | unusable
  deriving DecidableEq

/-- RFC 9112, section 6.3, for the methods of `Method`. -/
def bodyFraming (method : Method) (code : ℕ) (fields : List (Bytes × Bytes)) : BodyFraming :=
  if method == .head || code / 100 == 1 || code == 204 || code == 304 then .absent
  else if !(fields.filter (named "Transfer-Encoding")).isEmpty then .unusable
  else
    match fields.filter (named "Content-Length") with
    | [] => .untilClose
    | [field] =>
      if !field.2.isEmpty && field.2.all isDecimalDigit then .length (decimalValue field.2)
      else .unusable
    | _ => .unusable

/-- The three digits after `HTTP/1.1` and a space. -/
def lineStatus (line : Bytes) : ℕ := decimalValue ((line.drop 9).take 3)

/-- A field line, with the whitespace around its value removed. -/
def lineField (line : Bytes) : Bytes × Bytes :=
  (lineName line, trimBytes (line.drop ((lineName line).length + 1)))

/-- Reads the answer to a request of that method: its head, its body, and the bytes after it. -/
def readResponse (method : Method) (s : Bytes) : Option ((Bytes × Bytes) × Bytes) :=
  match readLines (cutStrict CR LF) (s.length + 1) s with
  | some (first :: lines, rest) =>
    let head := s.take (s.length - rest.length)
    match bodyFraming method (lineStatus first) (lines.map lineField) with
    | .absent => some ((head, []), rest)
    | .length bytes =>
      if bytes ≤ rest.length then some ((head, rest.take bytes), rest.drop bytes) else none
    | .untilClose => some ((head, rest), [])
    | .unusable => none
  | _ => none

/-- Reads one answer per request. -/
def readResponses : List Method → Bytes → Option (List (Bytes × Bytes) × Bytes)
  | [], s => some ([], s)
  | method :: methods, s =>
    match readResponse method s with
    | none => none
    | some (response, rest) => (readResponses methods rest).map (Prod.map (response :: ·) id)

/-! ### The client reads what was sent -/

theorem lineStatus_statusLine (status : Status) : lineStatus (statusLine status) = status.code := by
  cases status <;> decide +kernel

theorem isBodiless_iff (status : Status) : (status.code / 100 == 1 || status.code == 204 ||
    status.code == 304) = status.isBodiless := by
  cases status <;> rfl

theorem lineField_fieldLine {field : Bytes × Bytes} (h : FieldValid field) :
    lineField (fieldLine field) = (field.1, trimBytes (space :: field.2)) := by
  have hline : fieldLine field = field.1 ++ byte ':' :: space :: field.2 := by
    simp [fieldLine, ascii, byte, space]
  rw [lineField, lineName_fieldLine h, hline, drop_succ_append_cons]

theorem filter_named_lineField {fields : List (Bytes × Bytes)} (h : ∀ f ∈ fields, FieldValid f)
    (name : String) : ((fields.map fieldLine).map lineField).filter (named name) =
      (fields.filter (named name)).map fun f => (f.1, trimBytes (space :: f.2)) := by
  induction fields with
  | nil => rfl
  | cons f fields ih =>
    obtain ⟨hf, hfields⟩ := List.forall_mem_cons.1 h
    have hname : named name (lineField (fieldLine f)) = named name f := by
      rw [lineField_fieldLine hf]
      rfl
    rw [List.map_cons, List.map_cons, List.filter_cons, List.filter_cons, hname, ih hfields]
    split_ifs
    · rw [List.map_cons, lineField_fieldLine hf]
    · rfl

theorem isOptionalWhitespace_of_digit {b : UInt8} (h : isDecimalDigit b = true) :
    isOptionalWhitespace b = false := by
  revert b
  decide +kernel

theorem trimBytes_toChars (value : ℕ) : trimBytes (space :: toChars value) = toChars value := by
  have htrim := @trim_append _ isOptionalWhitespace [space] (toChars value) []
    (by simp [isOptionalWhitespace]) (by simp)
    (fun x hx => isOptionalWhitespace_of_digit
      (isDecimalDigit_of_mem_toChars (List.mem_of_mem_head? hx)))
    (fun x hx => isOptionalWhitespace_of_digit
      (isDecimalDigit_of_mem_toChars (List.mem_of_getLast? hx)))
  rwa [List.append_nil] at htrim

theorem isDecimal_toChars (value : ℕ) :
    (!(toChars value).isEmpty && (toChars value).all isDecimalDigit) = true := by
  rw [Bool.and_eq_true, List.all_eq_true]
  exact ⟨by simpa using toChars_ne_nil value, fun b hb => isDecimalDigit_of_mem_toChars hb⟩

/-- The values of the fields of that name in the head of a message, as its client reads them. -/
def readFieldValues (name : String) (message : Bytes) : List Bytes :=
  match readLines (cutStrict CR LF) (message.length + 1) message with
  | some (_ :: lines, _) => ((lines.map lineField).filter (named name)).map Prod.snd
  | _ => []

theorem readFieldValues_head (deflate : Deflate) (now : SystemTime) (request : Request Bytes)
    (response : Response) (options : ResponseEncodingOptions) (name : String) (rest : Bytes) :
    readFieldValues name ((encodeResponse deflate now request response options).head ++ rest) =
      ((headFields deflate now request response options).filter (named name)).map
        fun f => trimBytes (space :: f.2) := by
  have hlines := length_headLines_lt deflate now request response options
  have hfuel : (headLines deflate now request response options).length <
      ((encodeResponse deflate now request response options).head ++ rest).length + 1 := by
    rw [List.length_append]
    omega
  have hread := readLines_head deflate now request response options
    (cutsPlainLines_strict CR LF) hfuel rest
  rw [readFieldValues, hread]
  show (((_ : List (Bytes × Bytes)).map fieldLine).map lineField |>.filter (named name)).map
    Prod.snd = _
  rw [filter_named_lineField (headFields_valid deflate now request response options),
    List.map_map]
  rfl

/-- The client reads one `Connection` field, with what the encoder decided. -/
theorem readFieldValues_connection (deflate : Deflate) (now : SystemTime) (request : Request Bytes)
    (response : Response) (options : ResponseEncodingOptions) :
    readFieldValues "Connection" (encodeResponse deflate now request response options).wire =
      [connectionToken (!response.isStream && options.keepAlive)] := by
  rw [EncodedResponse.wire, readFieldValues_head, filter_connection, List.map_singleton]
  cases !response.isStream && options.keepAlive <;> decide

/-- A request and its answer, which is not a stream. -/
structure Exchange where
  now : SystemTime
  request : Request Bytes
  response : Response
  options : ResponseEncodingOptions
  not_stream : response.isStream = false

/-- The answer, encoded. -/
def Exchange.encoded (deflate : Deflate) (x : Exchange) : EncodedResponse :=
  encodeResponse deflate x.now x.request x.response x.options

/-- The client finds the length of the body that was sent. -/
theorem Exchange.bodyFraming_eq (deflate : Deflate) (x : Exchange) :
    bodyFraming x.request.method x.response.status.code
      (((headFields deflate x.now x.request x.response x.options).map fieldLine).map lineField) =
    if x.request.method = .head ∨ x.response.status.isBodiless = true then .absent
    else .length (x.response.encodedBody deflate x.request).length := by
  have hvalid := headFields_valid deflate x.now x.request x.response x.options
  unfold bodyFraming
  rw [Bool.or_assoc, Bool.or_assoc, ← Bool.or_assoc (x.response.status.code / 100 == 1),
    isBodiless_iff, filter_named_lineField hvalid, filter_named_lineField hvalid,
    filter_transferEncoding, filter_contentLength, x.not_stream]
  by_cases hmethod : x.request.method = .head
  · simp [hmethod]
  · cases hbodiless : x.response.status.isBodiless with
    | true => simp
    | false =>
      have hne : (x.request.method == Method.head) = false := by simpa using hmethod
      simp [hmethod, hne, fieldIf, trimBytes_toChars, isDecimal_toChars, decimalValue_toChars]

theorem Exchange.wireBody_eq (deflate : Deflate) (x : Exchange) :
    (x.encoded deflate).wireBody =
      if x.request.method = .head ∨ x.response.status.isBodiless = true then []
      else x.response.encodedBody deflate x.request := by
  rw [EncodedResponse.wireBody, Exchange.encoded, encodeResponse_suppressBody, encodeResponse_body,
    x.not_stream]
  simp

theorem Exchange.readLines_eq (deflate : Deflate) (x : Exchange) (rest : Bytes) :
    readLines (cutStrict CR LF) (((x.encoded deflate).head ++ rest).length + 1)
        ((x.encoded deflate).head ++ rest) =
      some (statusLine x.response.status ::
        (headFields deflate x.now x.request x.response x.options).map fieldLine, rest) := by
  refine readLines_head deflate x.now x.request x.response x.options
    (cutsPlainLines_strict CR LF) ?_ rest
  have := length_headLines_lt deflate x.now x.request x.response x.options
  rw [List.length_append]
  exact Nat.lt_succ_of_le (Nat.le_add_right_of_le this.le)

/-- The client reads one answer, whatever follows it. -/
theorem Exchange.readResponse_eq (deflate : Deflate) (x : Exchange) (rest : Bytes) :
    readResponse x.request.method ((x.encoded deflate).wire ++ rest) =
      some (((x.encoded deflate).head, (x.encoded deflate).wireBody), rest) := by
  have hhead : ∀ s : Bytes, ((x.encoded deflate).head ++ s).take
      (((x.encoded deflate).head ++ s).length - s.length) = (x.encoded deflate).head := by
    intro s
    rw [List.length_append, Nat.add_sub_cancel, List.take_left]
  rw [EncodedResponse.wire, List.append_assoc, readResponse, x.readLines_eq]
  dsimp only
  rw [lineStatus_statusLine, x.bodyFraming_eq, hhead, x.wireBody_eq]
  split_ifs with hbody
  · rfl
  · -- the body is as long as the client was told
    dsimp only
    rw [if_pos (by simp), List.take_left, List.drop_left]

theorem readResponses_eq (deflate : Deflate) (exchanges : List Exchange) (rest : Bytes) :
    readResponses (exchanges.map fun x => x.request.method)
        ((exchanges.flatMap fun x => (x.encoded deflate).wire) ++ rest) =
      some (exchanges.map fun x => ((x.encoded deflate).head, (x.encoded deflate).wireBody),
        rest) := by
  induction exchanges with
  | nil => rfl
  | cons x exchanges ih =>
    rw [List.flatMap_cons, List.append_assoc, List.map_cons, readResponses, x.readResponse_eq]
    dsimp only
    rw [ih]
    rfl

/-- **Response framing.**  Every head is well framed, and a client that knows the methods of its
requests splits the concatenation of answers into the heads and bodies that were sent. -/
theorem responses_are_framed (deflate : Deflate) :
    (∀ now request response options, ∃ fields,
      FramedHead deflate now request response options fields) ∧
    ∀ (exchanges : List Exchange) (rest : Bytes),
      readResponses (exchanges.map fun x => x.request.method)
          ((exchanges.flatMap fun x => (x.encoded deflate).wire) ++ rest) =
        some (exchanges.map fun x => ((x.encoded deflate).head, (x.encoded deflate).wireBody),
          rest) := by
  refine ⟨?_, ?_⟩
  · intro now request response options
    exact ⟨headFields deflate now request response options,
      framedHead_headFields deflate now request response options⟩
  · intro exchanges rest
    exact readResponses_eq deflate exchanges rest

end ErikslundHttp
