import ErikslundHttp.Lib.Lines
import ErikslundHttp.Request.LineSpecs
import ErikslundHttp.Response.Encoder

/-!
# The field lines of a response head

The head that `encodeResponse` writes is a text of lines: the status line and one line per element
of `headFields`.  The fields are those of the handler, less the ones the encoder decides, and those
the encoder adds, each under a guard of its own.

* `encodeResponse_head`: the head is these lines.
* `headFields_valid`: the names are tokens and the values have no control characters, so every line
  is plain.
* `head_fields_are_distinct_iff`: no name is repeated, in any letter case, unless the encoder
  compresses a body whose handler declared an empty content coding.
-/

namespace ErikslundHttp

open Lines

/-! ### Lines -/

/-- Lines, and the empty line that ends them. -/
def renderLines (lines : List Bytes) : Bytes := lines.flatMap (· ++ crlf) ++ crlf

/-- A field line, without its end. -/
def fieldLine (field : Bytes × Bytes) : Bytes := field.1 ++ ascii ": " ++ field.2

/-- The status line, without its end. -/
def statusLine (status : Status) : Bytes :=
  ascii "HTTP/1.1 " ++ toChars status.code ++ ascii " " ++ status.reasonPhrase

/-! ### What the encoder decides -/

namespace Response

/-- The body that the encoder takes; a stream has none yet. -/
def handlerBody (r : Response) : Bytes := if r.isStream then [] else r.body

/-- The content type, or nothing. -/
def contentType (r : Response) : Bytes := (r.findHeader (ascii "Content-Type")).getD []

/-- The encoder may compress the body for some requests. -/
def varies (r : Response) : Bool :=
  !r.status.isBodiless && responseVariesOnAcceptEncoding r.contentType
    ((r.findHeader (ascii "Content-Encoding")).getD []) r.handlerBody.length

/-- The body that goes out compressed, if it does. -/
def compressedBody (r : Response) (deflate : Deflate) (request : Request Bytes) : Option Bytes :=
  if r.varies && request.wantsGzip then gzipCompress deflate r.handlerBody else none

/-- The body that the message carries, unless it is suppressed. -/
def encodedBody (r : Response) (deflate : Deflate) (request : Request Bytes) : Bytes :=
  (r.compressedBody deflate request).getD r.handlerBody

/-- The handler has not set the field. -/
def lacks (r : Response) (name : String) : Bool := !(r.findHeader (ascii name)).isSome

/-- The handler's fields that are written as they are. -/
def handlerFields (r : Response) : List (Bytes × Bytes) :=
  r.headers.entries.filter fun field =>
    !isFramingField field.1 && !(r.varies && equalsIgnoreCase field.1 (ascii "Vary"))

end Response

/-- A field that is written under a guard. -/
def fieldIf (guard : Bool) (name : String) (value : Bytes) : List (Bytes × Bytes) :=
  if guard then [(ascii name, value)] else []

section Fields

variable (deflate : Deflate) (now : SystemTime) (request : Request Bytes) (response : Response)
  (options : ResponseEncodingOptions)

/-- The fields the encoder adds, in order. -/
def addedFields : List (Bytes × Bytes) :=
  fieldIf (response.compressedBody deflate request).isSome "Content-Encoding" (ascii "gzip") ++
  fieldIf response.varies "Vary"
    (acceptEncodingVary ((response.findHeader (ascii "Vary")).getD [])) ++
  fieldIf (response.lacks "Date") "Date" (httpDate now) ++
  fieldIf (!options.serverHeader.isEmpty && !hasControlCharacter options.serverHeader &&
    response.lacks "Server") "Server" options.serverHeader ++
  fieldIf (response.lacks "Cache-Control") "Cache-Control" (ascii "no-store") ++
  fieldIf (response.lacks "X-Content-Type-Options") "X-Content-Type-Options" (ascii "nosniff") ++
  fieldIf (response.lacks "Referrer-Policy") "Referrer-Policy" (ascii "no-referrer") ++
  fieldIf ((ascii "text/html").isPrefixOf response.contentType &&
    response.lacks "Content-Security-Policy") "Content-Security-Policy"
    kHtmlContentSecurityPolicy ++
  fieldIf (options.secure && options.strictTransportSecurity &&
    response.lacks "Strict-Transport-Security") "Strict-Transport-Security"
    (ascii "max-age=" ++ toChars options.hstsMaxAgeSeconds.toNat) ++
  fieldIf (!response.isStream && !response.status.isBodiless) "Content-Length"
    (toChars (response.encodedBody deflate request).length) ++
  fieldIf true "Connection" (connectionToken (!response.isStream && options.keepAlive))

/-- All fields of a head, in order. -/
def headFields : List (Bytes × Bytes) :=
  response.handlerFields ++ addedFields deflate now request response options

/-! ### The head is the rendering of its fields -/

theorem appendField_if (guard : Bool) (buffer : Bytes) (name : String) (value : Bytes) :
    (if guard then appendField buffer (ascii name) value else buffer) =
      buffer ++ (fieldIf guard name value).flatMap fun f => fieldLine f ++ crlf := by
  cases guard <;> simp [fieldIf, appendField, fieldLine]

theorem foldl_appendField (skipVary : Bool) (entries : List (Bytes × Bytes)) (buffer : Bytes) :
    entries.foldl (fun head field =>
      if isFramingField field.1 then head
      else if skipVary && equalsIgnoreCase field.1 (ascii "Vary") then head
      else appendField head field.1 field.2) buffer =
    buffer ++ (entries.filter fun field => !isFramingField field.1 &&
      !(skipVary && equalsIgnoreCase field.1 (ascii "Vary"))).flatMap
        fun f => fieldLine f ++ crlf := by
  induction entries generalizing buffer with
  | nil => simp
  | cons field entries ih =>
    rw [List.foldl_cons, ih, List.filter_cons]
    cases hf : isFramingField field.1 with
    | true => simp
    | false =>
      cases hv : (skipVary && equalsIgnoreCase field.1 (ascii "Vary")) with
      | true => simp
      | false => simp [appendField, fieldLine]

/-- The three endings of the head: `Content-Length`, when there is one, comes before `Connection`. -/
theorem append_framing (streaming bodiless keepAlive : Bool) (buffer length : Bytes) :
    (if streaming then appendField buffer (ascii "Connection") (ascii "close")
      else if bodiless then
        appendField buffer (ascii "Connection") (connectionToken keepAlive)
      else appendField (appendField buffer (ascii "Content-Length") length) (ascii "Connection")
        (connectionToken keepAlive)) =
      buffer ++ (fieldIf (!streaming && !bodiless) "Content-Length" length ++
        fieldIf true "Connection" (connectionToken (!streaming && keepAlive))).flatMap
          fun f => fieldLine f ++ crlf := by
  cases streaming <;> cases bodiless <;>
    simp [fieldIf, appendField, fieldLine, connectionToken]

theorem encodeResponse_head :
    (encodeResponse deflate now request response options).head =
      renderLines (statusLine response.status ::
        (headFields deflate now request response options).map fieldLine) := by
  have hlines : ∀ fields : List (Bytes × Bytes),
      (fields.map fieldLine).flatMap (· ++ crlf) = fields.flatMap fun f => fieldLine f ++ crlf :=
    fun fields => List.flatMap_map _ _ _
  unfold encodeResponse
  simp only [appendField_if, foldl_appendField, append_framing]
  simp only [renderLines, List.flatMap_cons, hlines, headFields, addedFields, List.flatMap_append,
    List.append_assoc, statusLine]
  rfl

theorem encodeResponse_body : (encodeResponse deflate now request response options).body =
    response.encodedBody deflate request := rfl

theorem encodeResponse_suppressBody :
    (encodeResponse deflate now request response options).suppressBody =
      (response.isStream || request.method == .head || response.status.isBodiless) := rfl

/-! ### The fields are plain -/

theorem lacks_eq_true_iff {response : Response} {name : String} : response.lacks name = true ↔
    ∀ e ∈ response.headers.entries, equalsIgnoreCase e.1 (ascii name) = false := by
  simp [Response.lacks, Response.findHeader, HeaderMap.find]

theorem isValidFieldValue_of_isPrintable {value : Bytes} (h : IsPrintable value) :
    isValidFieldValue value = true := by
  refine List.all_eq_true.2 fun b hb => ?_
  obtain ⟨hlow, hdelete⟩ := h b hb
  simp [isValidFieldValueByte, hlow, hdelete]

theorem isValidFieldValue_append {s t : Bytes} (hs : isValidFieldValue s = true)
    (ht : isValidFieldValue t = true) : isValidFieldValue (s ++ t) = true := by
  rw [isValidFieldValue, List.all_append, Bool.and_eq_true]
  exact ⟨hs, ht⟩

theorem isValidFieldValue_find {headers : HeaderMap} {name value : Bytes}
    (h : headers.find name = some value) : isValidFieldValue value = true := by
  obtain ⟨e, he, rfl⟩ := Option.map_eq_some_iff.1 h
  exact headers.validValues e (List.mem_of_find?_eq_some he)

theorem isValidFieldValue_acceptEncodingVary {declared : Bytes}
    (h : isValidFieldValue declared = true) :
    isValidFieldValue (acceptEncodingVary declared) = true := by
  unfold acceptEncodingVary
  split_ifs
  · decide
  · exact h
  · exact isValidFieldValue_append (isValidFieldValue_append h (by decide)) (by decide)

theorem isValidFieldValue_serverHeader {value : Bytes} (h : hasControlCharacter value = false) :
    isValidFieldValue value = true := by
  refine isValidFieldValue_of_isPrintable fun b hb => ?_
  have := List.any_eq_false.1 h b hb
  simpa using this

/-- A field whose line is plain. -/
def FieldValid (field : Bytes × Bytes) : Prop :=
  isValidFieldName field.1 = true ∧ isValidFieldValue field.2 = true

theorem fieldIf_valid {guard : Bool} {name : String} {value : Bytes}
    (hname : isValidFieldName (ascii name) = true)
    (hvalue : guard = true → isValidFieldValue value = true) :
    ∀ field ∈ fieldIf guard name value, FieldValid field := by
  intro field hfield
  unfold fieldIf at hfield
  split_ifs at hfield with hguard
  · rw [List.mem_singleton.1 hfield]
    exact ⟨hname, hvalue hguard⟩
  · exact absurd hfield List.not_mem_nil

theorem addedFields_valid :
    ∀ field ∈ addedFields deflate now request response options, FieldValid field := by
  have happend : ∀ {s t : List (Bytes × Bytes)}, (∀ f ∈ s, FieldValid f) → (∀ f ∈ t, FieldValid f) →
      ∀ f ∈ s ++ t, FieldValid f := fun hs ht f hf => (List.mem_append.1 hf).elim (hs f) (ht f)
  unfold addedFields
  refine happend (happend (happend (happend (happend (happend (happend (happend (happend (happend
    ?_ ?_) ?_) ?_) ?_) ?_) ?_) ?_) ?_) ?_) ?_
  all_goals refine fieldIf_valid (by decide) fun hguard => ?_
  · decide
  · refine isValidFieldValue_acceptEncodingVary ?_
    cases hvary : response.findHeader (ascii "Vary") with
    | none => rfl
    | some value => exact isValidFieldValue_find hvary
  · exact isValidFieldValue_of_isPrintable (isPrintable_httpDate now)
  · simp only [Bool.and_eq_true, Bool.not_eq_true'] at hguard
    exact isValidFieldValue_serverHeader hguard.1.2
  · decide
  · decide
  · decide
  · decide +kernel
  · exact isValidFieldValue_append (by decide)
      (isValidFieldValue_of_isPrintable (isPrintable_toChars _))
  · exact isValidFieldValue_of_isPrintable (isPrintable_toChars _)
  · unfold connectionToken
    split_ifs <;> decide

theorem headFields_valid :
    ∀ field ∈ headFields deflate now request response options, FieldValid field := by
  intro field hfield
  rcases List.mem_append.1 hfield with hhandler | hadded
  · have hentry := (List.mem_filter.1 hhandler).1
    exact ⟨response.headers.validNames field hentry, response.headers.validValues field hentry⟩
  · exact addedFields_valid deflate now request response options field hadded

/-! ### Reading the lines back -/

theorem fieldLine_plain {field : Bytes × Bytes} (h : FieldValid field) :
    fieldLine field ≠ [] ∧ CR ∉ fieldLine field ∧ LF ∉ fieldLine field := by
  obtain ⟨hname, hvalue⟩ := h
  have hplain : ∀ b ∈ fieldLine field, b ≠ CR ∧ b ≠ LF := by
    intro b hb
    simp only [fieldLine, List.mem_append] at hb
    rcases hb with (hb | hb) | hb
    · have htoken : isTokenCharacter b = true :=
        List.all_eq_true.1 (Bool.and_eq_true_iff.1 hname).2 b hb
      have := (isTokenCharacter_spec b htoken).1
      exact ⟨fun h => absurd (h ▸ this) (by decide), fun h => absurd (h ▸ this) (by decide)⟩
    · revert b
      decide +kernel
    · have := isValidFieldValueByte_spec b (List.all_eq_true.1 hvalue b hb)
      exact ⟨this.1, this.2.1⟩
  refine ⟨?_, fun h => (hplain CR h).1 rfl, fun h => (hplain LF h).2 rfl⟩
  rw [fieldLine, List.append_assoc]
  exact List.append_ne_nil_of_right_ne_nil _ (by simp [ascii])

theorem statusLine_plain (status : Status) :
    statusLine status ≠ [] ∧ CR ∉ statusLine status ∧ LF ∉ statusLine status := by
  cases status <;> decide +kernel

/-- The lines of the head. -/
def headLines : List Bytes :=
  statusLine response.status :: (headFields deflate now request response options).map fieldLine

theorem headLines_plain :
    ∀ l ∈ headLines deflate now request response options, l ≠ [] ∧ CR ∉ l ∧ LF ∉ l := by
  intro l hl
  rcases List.mem_cons.1 hl with rfl | hl
  · exact statusLine_plain response.status
  · obtain ⟨field, hfield, rfl⟩ := List.mem_map.1 hl
    exact fieldLine_plain (headFields_valid deflate now request response options field hfield)

/-- Every reader that cuts plain lines right reads the head back, and stops at its end. -/
theorem readLines_head {cut : Bytes → Option (Bytes × Bytes)} (hcut : CutsPlainLines CR LF cut)
    {fuel : ℕ} (hfuel : (headLines deflate now request response options).length < fuel)
    (rest : Bytes) :
    readLines cut fuel ((encodeResponse deflate now request response options).head ++ rest) =
      some (headLines deflate now request response options, rest) := by
  rw [encodeResponse_head]
  exact readLines_eq hcut (headLines_plain deflate now request response options) hfuel rest

theorem length_headLines_lt : (headLines deflate now request response options).length <
    (encodeResponse deflate now request response options).head.length := by
  rw [encodeResponse_head]
  show _ < (renderLines (headLines deflate now request response options)).length
  rw [renderLines, List.length_append, length_crlf]
  exact lt_of_le_of_lt (length_le_length_flatMap _) (Nat.lt_add_of_pos_right (by decide))

/-- The name of a field line: what stands before its colon. -/
def lineName (line : Bytes) : Bytes := line.takeWhile (· != byte ':')

/-- The names of the field lines of a head, as they stand in its bytes. -/
def fieldNames (head : Bytes) : List Bytes :=
  match readLines (cutStrict CR LF) head.length head with
  | some (_ :: lines, _) => lines.map lineName
  | _ => []

theorem lineName_fieldLine {field : Bytes × Bytes} (h : FieldValid field) :
    lineName (fieldLine field) = field.1 := by
  have hname : ∀ b ∈ field.1, (b != byte ':') = true := by
    intro b hb
    have htoken : isTokenCharacter b = true :=
      List.all_eq_true.1 (Bool.and_eq_true_iff.1 h.1).2 b hb
    simpa using (isTokenCharacter_spec b htoken).2.2
  rw [lineName, fieldLine, List.append_assoc, List.takeWhile_append_of_pos hname]
  simp [ascii]

theorem fieldNames_head :
    fieldNames (encodeResponse deflate now request response options).head =
      (headFields deflate now request response options).map Prod.fst := by
  have hread := readLines_head deflate now request response options
    (cutsPlainLines_strict CR LF) (length_headLines_lt deflate now request response options) []
  rw [List.append_nil] at hread
  rw [fieldNames, hread]
  show ((headFields deflate now request response options).map fieldLine).map lineName = _
  rw [List.map_map]
  refine List.map_congr_left fun field hfield => ?_
  exact lineName_fieldLine (headFields_valid deflate now request response options field hfield)

/-! ### No field is repeated -/

/-- The names of the fields the encoder adds, in order. -/
def encoderFieldNames : List Bytes :=
  ["Content-Encoding", "Vary", "Date", "Server", "Cache-Control", "X-Content-Type-Options",
    "Referrer-Policy", "Content-Security-Policy", "Strict-Transport-Security", "Content-Length",
    "Connection"].map ascii

theorem names_fieldIf_sublist (guard : Bool) (name : String) (value : Bytes) :
    ((fieldIf guard name value).map Prod.fst).Sublist [ascii name] := by
  cases guard <;> simp [fieldIf]

theorem names_addedFields_sublist :
    ((addedFields deflate now request response options).map Prod.fst).Sublist
      encoderFieldNames := by
  simp only [addedFields, List.map_append, encoderFieldNames, List.append_assoc]
  repeat' refine (names_fieldIf_sublist _ _ _).append ?_
  exact names_fieldIf_sublist _ _ _

theorem names_addedFields_distinct :
    ((addedFields deflate now request response options).map Prod.fst).Pairwise
      fun a b => equalsIgnoreCase a b = false :=
  List.Pairwise.sublist (names_addedFields_sublist deflate now request response options)
    (by decide +kernel)

theorem names_handlerFields_distinct :
    (response.handlerFields.map Prod.fst).Pairwise fun a b => equalsIgnoreCase a b = false :=
  List.Pairwise.sublist (List.filter_sublist.map Prod.fst) response.headers.distinct

/-- No field of the handler has the name of a field that is written under a guard. -/
def Clear (fields : List (Bytes × Bytes)) (added : List (Bytes × Bytes)) : Prop :=
  ∀ f ∈ fields, ∀ g ∈ added, equalsIgnoreCase f.1 g.1 = false

theorem Clear.append {fields s t : List (Bytes × Bytes)} (hs : Clear fields s)
    (ht : Clear fields t) : Clear fields (s ++ t) := fun f hf g hg =>
  (List.mem_append.1 hg).elim (hs f hf g) (ht f hf g)

theorem clear_fieldIf {fields : List (Bytes × Bytes)} {guard : Bool} {name : String} {value : Bytes}
    (h : guard = true → ∀ f ∈ fields, equalsIgnoreCase f.1 (ascii name) = false) :
    Clear fields (fieldIf guard name value) := by
  intro f hf g hg
  unfold fieldIf at hg
  split_ifs at hg with hguard
  · rw [List.mem_singleton.1 hg]
    exact h hguard f hf
  · exact absurd hg List.not_mem_nil

theorem clear_of_lacks {response : Response} {name : String} (h : response.lacks name = true) :
    ∀ f ∈ response.handlerFields, equalsIgnoreCase f.1 (ascii name) = false := fun f hf =>
  lacks_eq_true_iff.1 h f (List.mem_filter.1 hf).1

theorem handlerFields_spec {f : Bytes × Bytes} (hf : f ∈ response.handlerFields) :
    equalsIgnoreCase f.1 (ascii "Content-Length") = false ∧
      equalsIgnoreCase f.1 (ascii "Connection") = false ∧
      equalsIgnoreCase f.1 (ascii "Transfer-Encoding") = false ∧
      (response.varies = true → equalsIgnoreCase f.1 (ascii "Vary") = false) := by
  have hkeep := (List.mem_filter.1 hf).2
  simp only [isFramingField, Bool.and_eq_true, Bool.not_eq_true', Bool.or_eq_false_iff] at hkeep
  obtain ⟨⟨⟨hlength, hconnection⟩, htransfer⟩, hvary⟩ := hkeep
  refine ⟨hlength, hconnection, htransfer, fun hvaries => ?_⟩
  rwa [hvaries, Bool.true_and] at hvary

/-- The encoder's fields are clear of the handler's, except perhaps for its content coding. -/
theorem clear_addedFields_iff :
    Clear response.handlerFields (addedFields deflate now request response options) ↔
      ((response.compressedBody deflate request).isSome = true →
        response.lacks "Content-Encoding" = true) := by
  constructor
  · intro hclear hcompressed
    refine lacks_eq_true_iff.2 fun e he => ?_
    by_contra hname
    rw [Bool.not_eq_false] at hname
    -- a handler's content coding is neither a framing field nor `Vary`
    have hother : ∀ name : String, equalsIgnoreCase (ascii "Content-Encoding") (ascii name) = false →
        equalsIgnoreCase e.1 (ascii name) = false := by
      intro name hne
      by_contra heq
      rw [Bool.not_eq_false] at heq
      rw [equalsIgnoreCase_trans (equalsIgnoreCase_symm hname) heq] at hne
      exact Bool.noConfusion hne
    have hmem : e ∈ response.handlerFields := by
      refine List.mem_filter.2 ⟨he, ?_⟩
      simp [isFramingField, hother "Content-Length" (by decide +kernel),
        hother "Connection" (by decide +kernel), hother "Transfer-Encoding" (by decide +kernel),
        hother "Vary" (by decide +kernel)]
    have hadded : (ascii "Content-Encoding", ascii "gzip") ∈
        addedFields deflate now request response options := by
      simp [addedFields, fieldIf, hcompressed]
    have := hclear e hmem _ hadded
    rw [hname] at this
    exact Bool.noConfusion this
  · intro hcoding
    unfold addedFields
    refine (((((((((Clear.append ?_ ?_).append ?_).append ?_).append ?_).append ?_).append
      ?_).append ?_).append ?_).append ?_).append ?_
    all_goals refine clear_fieldIf fun hguard => ?_
    all_goals try simp only [Bool.and_eq_true, Bool.not_eq_true'] at hguard
    · exact clear_of_lacks (hcoding hguard)
    · exact fun f hf => (handlerFields_spec response hf).2.2.2 hguard
    · exact clear_of_lacks hguard
    · exact clear_of_lacks hguard.2
    · exact clear_of_lacks hguard
    · exact clear_of_lacks hguard
    · exact clear_of_lacks hguard
    · exact clear_of_lacks hguard.2
    · exact clear_of_lacks hguard.2
    · exact fun f hf => (handlerFields_spec response hf).1
    · exact fun f hf => (handlerFields_spec response hf).2.1

/-- The handler declared a content coding without naming one, and the body is compressed. -/
structure CompressedUnderEmptyCoding : Prop where
  /-- The response has an empty `Content-Encoding`. -/
  empty_coding : response.findHeader (ascii "Content-Encoding") = some []
  not_stream : response.isStream = false
  not_bodiless : response.status.isBodiless = false
  size_ge : kMinimumCompressibleBodyBytes ≤ response.body.length
  size_le : response.body.length ≤ kMaximumCompressibleBodyBytes
  compressible : mediaTypeIsCompressible response.contentType = true
  wanted : request.wantsGzip = true
  /-- What deflate makes of the body is shorter. -/
  shrinks : ∃ out, deflate response.body = some out ∧ out.length < response.body.length

theorem gzipCompress_isSome_iff {deflate : Deflate} {body : Bytes} :
    (gzipCompress deflate body).isSome = true ↔
      kMinimumCompressibleBodyBytes ≤ body.length ∧ body.length ≤ kMaximumCompressibleBodyBytes ∧
        ∃ out, deflate body = some out ∧ out.length < body.length := by
  unfold gzipCompress
  split_ifs with hsize
  · simp only [Bool.or_eq_true, decide_eq_true_eq] at hsize
    simp only [Option.isSome_none, Bool.false_eq_true, false_iff]
    rintro ⟨hge, hle, -⟩
    omega
  · simp only [Bool.or_eq_true, decide_eq_true_eq, not_or, not_lt] at hsize
    cases hout : deflate body with
    | none => simp
    | some out =>
      simp only [Option.some.injEq, exists_eq_left', hsize.1, hsize.2, true_and]
      split_ifs with hlen
      · simpa using hlen
      · simpa using hlen

theorem varies_iff {response : Response} : response.varies = true ↔
    response.status.isBodiless = false ∧
      (response.findHeader (ascii "Content-Encoding")).getD [] = [] ∧
      kMinimumCompressibleBodyBytes ≤ response.handlerBody.length ∧
      response.handlerBody.length ≤ kMaximumCompressibleBodyBytes ∧
      mediaTypeIsCompressible response.contentType = true := by
  unfold Response.varies responseVariesOnAcceptEncoding
  split_ifs with hcoding hsize
  · have : (response.findHeader (ascii "Content-Encoding")).getD [] ≠ [] := by
      simpa [List.isEmpty_iff] using hcoding
    simp [this]
  · simp only [Bool.or_eq_true, decide_eq_true_eq] at hsize
    simp only [Bool.and_false, Bool.false_eq_true, false_iff]
    rintro ⟨-, -, hge, hle, -⟩
    omega
  · have hempty : (response.findHeader (ascii "Content-Encoding")).getD [] = [] := by
      simpa [List.isEmpty_iff] using hcoding
    simp only [Bool.or_eq_true, decide_eq_true_eq, not_or, not_lt] at hsize
    simp [hempty, hsize]

theorem compressedBody_isSome_iff :
    (response.compressedBody deflate request).isSome = true ↔
      response.varies = true ∧ request.wantsGzip = true ∧
        (gzipCompress deflate response.handlerBody).isSome = true := by
  unfold Response.compressedBody
  split_ifs with h
  · simp only [Bool.and_eq_true] at h
    simp [h]
  · simp only [Bool.and_eq_true] at h
    simp only [Option.isSome_none, Bool.false_eq_true, false_iff]
    exact fun ⟨hvaries, hwants, _⟩ => h ⟨hvaries, hwants⟩

theorem compressedUnderEmptyCoding_iff : CompressedUnderEmptyCoding deflate request response ↔
    (response.compressedBody deflate request).isSome = true ∧
      response.lacks "Content-Encoding" = false := by
  rw [compressedBody_isSome_iff, varies_iff, gzipCompress_isSome_iff]
  constructor
  · intro h
    have hbody : response.handlerBody = response.body := by
      rw [Response.handlerBody, h.not_stream]
      rfl
    rw [hbody, h.empty_coding, Response.lacks, h.empty_coding]
    exact ⟨⟨⟨h.not_bodiless, rfl, h.size_ge, h.size_le, h.compressible⟩, h.wanted,
      h.size_ge, h.size_le, h.shrinks⟩, rfl⟩
  · rintro ⟨⟨⟨hbodiless, hcoding, hge, hle, hmedia⟩, hwanted, -, -, hshrinks⟩, hlacks⟩
    have hstream : response.isStream = false := by
      by_contra hstream
      -- a stream has no body of its own to compress
      rw [Response.handlerBody, if_pos (Bool.not_eq_false _ ▸ hstream)] at hge
      exact absurd hge (by decide)
    have hbody : response.handlerBody = response.body := by
      rw [Response.handlerBody, hstream]
      rfl
    rw [hbody] at hge hle hshrinks
    refine ⟨?_, hstream, hbodiless, hge, hle, hmedia, hwanted, hshrinks⟩
    simp only [Response.lacks, Bool.not_eq_false', Option.isSome_iff_exists] at hlacks
    obtain ⟨value, hvalue⟩ := hlacks
    rw [hvalue, Option.getD_some] at hcoding
    rw [hvalue, hcoding]

/-- **One line per field.**  No two field lines of the head have the same name, in any letter case,
exactly if no body is compressed under an empty content coding. -/
theorem head_fields_are_distinct_iff :
    (fieldNames (encodeResponse deflate now request response options).head).Pairwise
        (fun a b => equalsIgnoreCase a b = false) ↔
      ¬ CompressedUnderEmptyCoding deflate request response := by
  have hclear : (∀ a ∈ response.handlerFields.map Prod.fst,
      ∀ b ∈ (addedFields deflate now request response options).map Prod.fst,
        equalsIgnoreCase a b = false) ↔
      Clear response.handlerFields (addedFields deflate now request response options) := by
    simp only [List.mem_map, forall_exists_index, and_imp, forall_apply_eq_imp_iff₂, Clear]
  rw [fieldNames_head, headFields, List.map_append, List.pairwise_append, hclear,
    clear_addedFields_iff, compressedUnderEmptyCoding_iff]
  simp only [names_handlerFields_distinct, names_addedFields_distinct, true_and, not_and,
    Bool.not_eq_false]

end Fields

/-- A body that is just long enough to be compressed. -/
def lettersBody : Bytes := List.replicate 1024 (byte 'a')

/-- What zlib makes of `lettersBody`, and nothing of other bodies. -/
def zlibOnLetters : Deflate := fun body =>
  if body = lettersBody then
    some [31, 139, 8, 0, 0, 0, 0, 0, 0, 3, 75, 76, 28, 5, 163, 96, 20, 140, 84, 0, 0, 185, 151, 85,
      124, 0, 4, 0, 0]
  else none

/-- A retrieval that wants gzip. -/
def gzipGet : Request Bytes := { Request.init with method := .get, wantsGzip := true }

/-- The handler clears the content coding, and the encoder writes a second one. -/
theorem content_encoding_is_repeated :
    ¬ (fieldNames (encodeResponse zlibOnLetters 0 gzipGet
        ((Response.text lettersBody).contentEncoding []) { serverHeader := [] }).head).Pairwise
      fun a b => equalsIgnoreCase a b = false := by
  decide +kernel

end ErikslundHttp
