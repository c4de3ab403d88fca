import ErikslundHttp.Response.Negotiation

/-!
# Strong validators

A handler sets a tag before it is known what the request accepts, and the encoder writes it as it
was set.  Two retrievals of one response are compared here that are both answered with the response
itself and with its strong tag.

* `EncodesAlike` is what the two runs share: zlib makes the same bytes of the same body, but it may
  fail in one of them.
* `encodedBody_eq_iff`: then the tag and the content coding together name one body.  The coding
  alone decides: what is compressed is shorter than what is not (`compressedBody_eq_some`).
* `strong_tag_names_one_body_per_coding`: bodies that differ come with a `Vary` that tells a cache
  to ask for the coding.
-/

namespace ErikslundHttp

open Lines

/-- Two runs of zlib make the same bytes, unless one of them fails. -/
def EncodesAlike (deflate deflate' : Deflate) : Prop :=
  ∀ body out out', deflate body = some out → deflate' body = some out' → out = out'

/-- What goes out for a response of a handler. -/
def answer (deflate : Deflate) (now : SystemTime) (options : ResponseEncodingOptions)
    (request : Request Bytes) (response : Response) : EncodedResponse :=
  encodeResponse deflate now request (applyConditionalRequest request response) options

/-- A head with status 200 and the strong tag. -/
structure CarriesStrongTag (tag : Bytes) (e : EncodedResponse) : Prop where
  /-- The answer is a `200`. -/
  status : (readHead e.head).map (fun head => lineStatus head.1) = some 200
  /-- The head has the tag as its only one. -/
  carries : valuesNamed "ETag" e.head = [tag]
  /-- The tag is not marked as weak. -/
  strong : ¬ ascii "W/" <+: tag

section

variable {deflate deflate' : Deflate} {now now' : SystemTime}
  {options options' : ResponseEncodingOptions} {r r' : Request Bytes} {response : Response}

/-- A response that is not replaced is encoded as it is. -/
theorem answer_eq {tag : Bytes}
    (h : CarriesStrongTag tag (answer deflate now options r response)) :
    answer deflate now options r response = encodeResponse deflate now r response options := by
  have hstatus := h.status
  unfold answer at hstatus ⊢
  rw [applyConditionalRequest_eq] at hstatus ⊢
  split_ifs at hstatus ⊢ with hrevalidates
  · obtain ⟨headers, hreplaced⟩ := exists_notModifiedFrom_eq response
    rw [readHead_encodeResponse, Option.map_some, lineStatus_statusLine, hreplaced] at hstatus
    cases hstatus
  · rfl

/-- The encoder leaves the tag to the handler. -/
theorem carriesStrongTag {tag : Bytes} (hstatus : response.status = .ok)
    (htag : response.findHeader (ascii "ETag") = some tag) (hstrong : ¬ ascii "W/" <+: tag)
    (hrevalidates : revalidates r response = false) :
    CarriesStrongTag tag (answer deflate now options r response) := by
  unfold answer
  rw [applyConditionalRequest_eq, hrevalidates, if_neg Bool.false_ne_true]
  refine ⟨?_, ?_, hstrong⟩
  · rw [readHead_encodeResponse, Option.map_some, lineStatus_statusLine, hstatus]
    rfl
  · rw [valuesNamed_of_handler _ _ _ _ _ (by decide) (by decide), htag]
    rfl

theorem compressedBody_eq_some {out : Bytes} (h : response.compressedBody deflate r = some out) :
    response.varies = true ∧ deflate response.handlerBody = some out ∧
      out.length < response.handlerBody.length := by
  unfold Response.compressedBody at h
  split_ifs at h with hgate
  unfold gzipCompress at h
  split_ifs at h
  cases hout : deflate response.handlerBody with
  | none =>
    rw [hout] at h
    cases h
  | some made =>
    rw [hout] at h
    dsimp only at h
    split_ifs at h with hlength
    obtain rfl := Option.some.inj h
    exact ⟨(Bool.and_eq_true_iff.1 hgate).1, rfl, not_le.1 hlength⟩

theorem valuesNamed_contentEncoding :
    valuesNamed "Content-Encoding" (encodeResponse deflate now r response options).head =
      (response.findHeader (ascii "Content-Encoding")).toList ++
        if (response.compressedBody deflate r).isSome then [ascii "gzip"] else [] := by
  have hadded : (addedFields deflate now r response options).filter (named "Content-Encoding") =
      fieldIf (response.compressedBody deflate r).isSome "Content-Encoding" (ascii "gzip") := by
    simp +decide only [addedFields, List.filter_append, filter_named_fieldIf, if_true, if_false,
      List.append_nil]
  rw [valuesNamed_encodeResponse deflate now r response options (by decide) (by decide) hadded]
  cases (response.compressedBody deflate r).isSome <;> rfl

/-- Of the two runs, the same field of the coding is written if both bodies are compressed or
none is. -/
theorem contentEncoding_eq_iff :
    valuesNamed "Content-Encoding" (encodeResponse deflate now r response options).head =
        valuesNamed "Content-Encoding" (encodeResponse deflate' now' r' response options').head ↔
      (response.compressedBody deflate r).isSome = (response.compressedBody deflate' r').isSome := by
  rw [valuesNamed_contentEncoding, valuesNamed_contentEncoding, List.append_cancel_left_eq]
  cases (response.compressedBody deflate r).isSome <;>
    cases (response.compressedBody deflate' r').isSome <;> decide

/-- What is compressed is shorter than what is not. -/
theorem encodedBody_eq_iff (hzlib : EncodesAlike deflate deflate') :
    response.encodedBody deflate r = response.encodedBody deflate' r' ↔
      (response.compressedBody deflate r).isSome = (response.compressedBody deflate' r').isSome := by
  unfold Response.encodedBody
  cases hout : response.compressedBody deflate r with
  | none =>
    cases hout' : response.compressedBody deflate' r' with
    | none => exact iff_of_true rfl rfl
    | some out' =>
      obtain ⟨-, -, hlength⟩ := compressedBody_eq_some hout'
      refine iff_of_false (fun heq => ?_) Bool.false_ne_true
      rw [Option.getD_none, Option.getD_some] at heq
      exact absurd (congrArg List.length heq) hlength.ne'
  | some out =>
    obtain ⟨-, hmade, hlength⟩ := compressedBody_eq_some hout
    cases hout' : response.compressedBody deflate' r' with
    | none =>
      refine iff_of_false (fun heq => ?_) Bool.false_ne_true.symm
      rw [Option.getD_none, Option.getD_some] at heq
      exact absurd (congrArg List.length heq) hlength.ne
    | some out' =>
      obtain ⟨-, hmade', -⟩ := compressedBody_eq_some hout'
      exact iff_of_true (hzlib _ out out' hmade hmade') rfl

end

/-- **A strong tag names one body per coding.**  Two retrievals that are answered with a response
and its strong tag get the same body exactly if they get the same `Content-Encoding`.  If they do
not, both get the same `Vary`, which lists `Accept-Encoding`. -/
theorem strong_tag_names_one_body_per_coding {deflate deflate' : Deflate}
    (hzlib : EncodesAlike deflate deflate') (now now' : SystemTime)
    (options options' : ResponseEncodingOptions) {response : Response}
    (hstatus : response.status = .ok) (hstream : response.isStream = false)
    {r r' : Request Bytes} (hget : r.method = .get) (hget' : r'.method = .get) {tag : Bytes}
    (h : CarriesStrongTag tag (answer deflate now options r response))
    (h' : CarriesStrongTag tag (answer deflate' now' options' r' response)) :
    let e := answer deflate now options r response
    let e' := answer deflate' now' options' r' response
    (e.wireBody = e'.wireBody ↔
      valuesNamed "Content-Encoding" e.head = valuesNamed "Content-Encoding" e'.head) ∧
    (e.wireBody ≠ e'.wireBody → valuesNamed "Vary" e.head = valuesNamed "Vary" e'.head ∧
      ∃ vary, valuesNamed "Vary" e.head = [vary] ∧
        Lists vary (ascii "Accept-Encoding")) := by
  have hbody {deflate : Deflate} {now : SystemTime} {options : ResponseEncodingOptions}
      {r : Request Bytes} (hget : r.method = .get) :
      (encodeResponse deflate now r response options).wireBody = response.encodedBody deflate r :=
    wireBody_of_ne_head (by rw [hget]; decide) hstream (by rw [hstatus]; rfl)
  dsimp only
  rw [answer_eq h, answer_eq h', hbody hget, hbody hget', contentEncoding_eq_iff]
  refine ⟨encodedBody_eq_iff hzlib, fun hdiffer => ?_⟩
  have hvaries : response.varies = true := by
    by_contra hvaries
    rw [Bool.not_eq_true] at hvaries
    refine hdiffer ((encodedBody_eq_iff hzlib).2 ?_)
    rw [compressedBody_eq_none hvaries, compressedBody_eq_none hvaries]
  rw [valuesNamed_vary, valuesNamed_vary, hvaries, if_pos rfl]
  exact ⟨rfl, _, rfl, lists_acceptEncodingVary _⟩

/-- The letters under a strong tag. -/
def stronglyTaggedLetters : Response := (Response.text lettersBody).etag (ascii "\"v1\"")

/-- A retrieval that does not want gzip. -/
def identityGet : Request Bytes := { Request.init with method := .get }

theorem strong_v1 : ¬ ascii "W/" <+: ascii "\"v1\"" := by decide

theorem strong_tag_of_letters_names_one_body_per_coding :
    let e := answer zlibOnLetters 0 { serverHeader := [] } gzipGet stronglyTaggedLetters
    let e' := answer zlibOnLetters 0 { serverHeader := [] } identityGet stronglyTaggedLetters
    (e.wireBody = e'.wireBody ↔
      valuesNamed "Content-Encoding" e.head = valuesNamed "Content-Encoding" e'.head) ∧
    (e.wireBody ≠ e'.wireBody → valuesNamed "Vary" e.head = valuesNamed "Vary" e'.head ∧
      ∃ vary, valuesNamed "Vary" e.head = [vary] ∧
        Lists vary (ascii "Accept-Encoding")) := by
  have hzlib : EncodesAlike zlibOnLetters zlibOnLetters := fun _ _ _ h h' =>
    Option.some.inj (h.symm.trans h')
  exact strong_tag_names_one_body_per_coding hzlib 0 0 { serverHeader := [] }
    { serverHeader := [] } rfl rfl rfl rfl (carriesStrongTag rfl rfl strong_v1 rfl)
    (carriesStrongTag rfl rfl strong_v1 rfl)

/-- One retrieval gets the letters and the other what zlib makes of them, under one strong tag. -/
theorem strong_tag_names_two_bodies :
    let e := answer zlibOnLetters 0 { serverHeader := [] } gzipGet stronglyTaggedLetters
    let e' := answer zlibOnLetters 0 { serverHeader := [] } identityGet stronglyTaggedLetters
    CarriesStrongTag (ascii "\"v1\"") e ∧ CarriesStrongTag (ascii "\"v1\"") e' ∧
      e.wireBody ≠ e'.wireBody := by
  refine ⟨carriesStrongTag rfl rfl strong_v1 rfl, carriesStrongTag rfl rfl strong_v1 rfl, ?_⟩
  decide +kernel

end ErikslundHttp
