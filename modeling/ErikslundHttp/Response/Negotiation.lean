import ErikslundHttp.Router.Assets

/-!
# Content negotiation

What a request accepts decides whether the encoder compresses a body and whether a precompressed
asset is sent at all.  A cache between client and server goes by `Vary`: it may answer a request
with what it kept for another one unless the fields that `Vary` lists differ.

Two retrievals of one resource that differ only in their method and their `Accept-Encoding` fields
are compared here (`Retrievals`).

* `cacheSafe_encodeResponse`: of the request, a head depends on whether gzip is wanted, and on that
  only under a `Vary` that has `Accept-Encoding` among its members (`Lists`).
* `field_vary_assetResponse`: an asset that is refused and one that is sent have the same `Vary`.
* `content_negotiation_is_cache_safe` puts them together.
-/

namespace ErikslundHttp

open Scan Lines

/-! ### One response, two requests -/

/-- The `Vary` that the encoder writes lists `Accept-Encoding`. -/
theorem listNames_acceptEncodingVary (declared : Bytes) :
    listNames (acceptEncodingVary declared) (ascii "Accept-Encoding") = true := by
  unfold acceptEncodingVary
  split_ifs with hempty hlists
  · decide +kernel
  · exact hlists
  · have hsplit : (declared ++ ascii ", " ++ ascii "Accept-Encoding").splitOn (byte ',') =
        declared.splitOn (byte ',') ++ [ascii " Accept-Encoding"] := by
      rw [List.append_assoc]
      exact List.splitOn_append_cons_self declared (ascii " Accept-Encoding")
    have hmem : ascii " Accept-Encoding" ∈
        listEntries (declared ++ ascii ", " ++ ascii "Accept-Encoding") := by
      rw [listEntries, hsplit, if_neg (by rw [List.getLast?_concat]; decide)]
      exact List.mem_append_right _ (List.mem_singleton_self _)
    exact List.any_eq_true.2 ⟨_, hmem, by decide +kernel⟩

/-- The value of a field has the name among its members, in any letter case. -/
def Lists (value name : Bytes) : Prop :=
  ∃ member ∈ listMembers value (byte ','), equalsIgnoreCase member name = true

/-- What the encoder finds in a list is one of its members. -/
theorem lists_of_listNames {value name : Bytes} (hname : name ≠ [])
    (h : listNames value name = true) : Lists value name := by
  obtain ⟨entry, hentry, hsame⟩ := List.any_eq_true.1 h
  have hsplit : entry ∈ value.splitOn (byte ',') := by
    rw [listEntries] at hentry
    split_ifs at hentry
    · exact List.mem_of_mem_dropLast hentry
    · exact hentry
  refine ⟨trimBytes entry, List.mem_filter.2 ⟨List.mem_map_of_mem hsplit, ?_⟩, hsame⟩
  -- an empty entry is no name
  have hne : trimBytes entry ≠ [] := by
    intro hnil
    rw [hnil] at hsame
    have hlength := (Bool.and_eq_true _ _ ▸ hsame).1
    exact hname (List.length_eq_zero_iff.1 (beq_iff_eq.1 hlength).symm)
  simpa using hne

theorem lists_acceptEncodingVary (declared : Bytes) :
    Lists (acceptEncodingVary declared) (ascii "Accept-Encoding") :=
  lists_of_listNames (by decide) (listNames_acceptEncodingVary declared)

/-- The same fields other than `Vary`, status line and body. -/
def SameRepresentation (e e' : EncodedResponse) : Prop :=
  (readHead e.head).map (Prod.map id (List.filter fun field => !named "Vary" field)) =
    (readHead e'.head).map (Prod.map id (List.filter fun field => !named "Vary" field)) ∧
  e.body = e'.body

/-- What a cache needs of the answers to two requests for one resource. -/
structure CacheSafe (agree : Prop) (e e' : EncodedResponse) : Prop where
  /-- Requests that agree on what they accept get one head. -/
  head : agree → e.head = e'.head
  /-- Both answers vary on the same fields. -/
  vary : fieldsNamed "Vary" e.head = fieldsNamed "Vary" e'.head
  /-- Answers that differ tell the cache why. -/
  lists : ¬ SameRepresentation e e' → ∃ field, fieldsNamed "Vary" e.head = [field] ∧
    Lists field.2 (ascii "Accept-Encoding")

section

variable {deflate deflate' : Deflate} {now : SystemTime} {options : ResponseEncodingOptions}
  {r r' : Request Bytes}

/-- Of the request, the head and the body depend on the accepted coding only, and not even on that
when the response does not vary. -/
theorem compressedBody_eq_none {response : Response} (h : response.varies = false) :
    response.compressedBody deflate r = none := by
  rw [Response.compressedBody, h]
  rfl

theorem headFields_congr {response : Response}
    (h : response.compressedBody deflate r = response.compressedBody deflate' r') :
    headFields deflate now r response options = headFields deflate' now r' response options := by
  simp only [headFields, addedFields, Response.encodedBody, h]

theorem cacheSafe_encodeResponse {agree : Prop} (hagree : agree → deflate = deflate')
    (hgzip : agree → r.wantsGzip = r'.wantsGzip) (response : Response) :
    CacheSafe agree (encodeResponse deflate now r response options)
      (encodeResponse deflate' now r' response options) where
  head h := by
    rw [encodeResponse_head, encodeResponse_head, headFields_congr]
    rw [Response.compressedBody, Response.compressedBody, hagree h, hgzip h]
  vary := by
    rw [fieldsNamed_encodeResponse, fieldsNamed_encodeResponse, field_vary, field_vary]
  lists hdiffer := by
    rw [fieldsNamed_encodeResponse, field_vary]
    cases hvaries : response.varies with
    | true => exact ⟨_, rfl, lists_acceptEncodingVary _⟩
    | false =>
      have hnone : response.compressedBody deflate r = response.compressedBody deflate' r' := by
        rw [compressedBody_eq_none hvaries, compressedBody_eq_none hvaries]
      refine absurd ⟨?_, ?_⟩ hdiffer
      · rw [readHead_encodeResponse, readHead_encodeResponse, headFields_congr hnone]
      · rw [encodeResponse_body, encodeResponse_body, Response.encodedBody, Response.encodedBody,
          hnone]

end

/-! ### Retrievals -/

/-- The field says what the client accepts. -/
def isAcceptEncoding (field : Header) : Bool :=
  equalsIgnoreCase field.name (ascii "Accept-Encoding")

/-- Two `GET` or `HEAD` requests, as the parser makes them, that differ only in their methods and
in their `Accept-Encoding` fields. -/
structure Retrievals (r r' : Request Bytes) : Prop where
  method : r.method = .get ∨ r.method = .head
  method' : r'.method = .get ∨ r'.method = .head
  wantsGzip : r.wantsGzip = resolveWantsGzip r.headers
  wantsGzip' : r'.wantsGzip = resolveWantsGzip r'.headers
  /-- All other fields are the same. -/
  others : (r.headers.filter fun field => !isAcceptEncoding field) =
    r'.headers.filter fun field => !isAcceptEncoding field
  /-- All other members are the same. -/
  rest : r' = { r with method := r'.method, headers := r'.headers, wantsGzip := r'.wantsGzip }

/-- The values of the `Accept-Encoding` fields. -/
def acceptedCodings (r : Request Bytes) : List Bytes :=
  fieldValues (ascii "Accept-Encoding") r.headers

namespace Retrievals

variable {r r' : Request Bytes}

theorem wantsGzip_eq (h : Retrievals r r') (hcodings : acceptedCodings r = acceptedCodings r') :
    r.wantsGzip = r'.wantsGzip := by
  rw [h.wantsGzip, h.wantsGzip', resolveWantsGzip, resolveWantsGzip]
  unfold acceptedCodings at hcodings
  rw [hcodings]

theorem header_eq (h : Retrievals r r') {name : Bytes}
    (hname : equalsIgnoreCase (ascii "Accept-Encoding") name = false) :
    r.header name = r'.header name := by
  rw [Request.header, Request.header, ← find?_filter_name hname r.headers,
    ← find?_filter_name hname r'.headers]
  exact congrArg (fun headers => (List.find? _ headers).map HeaderView.value) h.others

theorem acceptEncoding_eq (hcodings : acceptedCodings r = acceptedCodings r') :
    r.header (ascii "Accept-Encoding") = r'.header (ascii "Accept-Encoding") := by
  have hhead : ∀ r : Request Bytes, r.header (ascii "Accept-Encoding") =
      (acceptedCodings r).head? := by
    intro r
    rw [Request.header, acceptedCodings, fieldValues, List.head?_map, List.head?_filter]
  rw [hhead, hhead, hcodings]

theorem applyConditionalRequest_eq (h : Retrievals r r') (response : Response) :
    applyConditionalRequest r response = applyConditionalRequest r' response := by
  have hretrieval : ∀ {m : Method}, m = .get ∨ m = .head → (m == .get || m == .head) = true := by
    rintro m (rfl | rfl) <;> rfl
  unfold applyConditionalRequest
  rw [hretrieval h.method, hretrieval h.method', h.header_eq (by decide)]

theorem matchesEtag_eq (h : Retrievals r r') (asset : Asset) :
    asset.matchesEtag r = asset.matchesEtag r' := by
  rw [Asset.matchesEtag, Asset.matchesEtag, h.header_eq (by decide)]

theorem assetResponse_eq_of_codings (h : Retrievals r r')
    (hcodings : acceptedCodings r = acceptedCodings r') (asset : Asset) :
    assetResponse asset r = assetResponse asset r' := by
  rw [assetResponse_eq, assetResponse_eq, h.matchesEtag_eq, Asset.refusedTo, Asset.refusedTo,
    acceptEncoding_eq hcodings, h.wantsGzip_eq hcodings]

/-- The coding that is accepted matters to a precompressed asset only. -/
theorem assetResponse_eq_of_identity (h : Retrievals r r') {asset : Asset}
    (hasset : asset.isPrecompressed = false) : assetResponse asset r = assetResponse asset r' := by
  rw [assetResponse_eq, assetResponse_eq, h.matchesEtag_eq, Asset.refusedTo, Asset.refusedTo,
    hasset]
  rfl

end Retrievals

/-! ### Assets and responses -/

section

variable {deflate deflate' : Deflate} {now : SystemTime} {options : ResponseEncodingOptions}
  {r r' : Request Bytes}

theorem fieldsNamed_vary_precompressed {asset : Asset} (hasset : asset.isPrecompressed = true)
    (deflate : Deflate) (request : Request Bytes) :
    fieldsNamed "Vary"
        (encodeResponse deflate now request (assetResponse asset request) options).head =
      [(ascii "Vary", ascii "Accept-Encoding")] := by
  have hfield := field_vary_assetResponse hasset request
  have hfind : (assetResponse asset request).findHeader (ascii "Vary") =
      some (ascii "Accept-Encoding") := by
    rw [Response.findHeader, HeaderMap.find_eq_map_field, hfield]
    rfl
  rw [fieldsNamed_encodeResponse, field_vary, hfield, hfind]
  split_ifs
  · decide +kernel
  · rfl

theorem cacheSafe_assetResponse (h : Retrievals r r') (asset : Asset) :
    CacheSafe (deflate = deflate' ∧ acceptedCodings r = acceptedCodings r')
      (encodeResponse deflate now r (assetResponse asset r) options)
      (encodeResponse deflate' now r' (assetResponse asset r') options) := by
  have hsame := @cacheSafe_encodeResponse deflate deflate' now options r r'
    (deflate = deflate' ∧ acceptedCodings r = acceptedCodings r') And.left
    fun hagree => h.wantsGzip_eq hagree.2
  cases hasset : asset.isPrecompressed with
  | false =>
    rw [← h.assetResponse_eq_of_identity hasset]
    exact hsame _
  | true =>
    refine ⟨fun hagree => ?_, ?_, fun _ => ?_⟩
    · rw [← h.assetResponse_eq_of_codings hagree.2]
      exact (hsame _).head hagree
    · rw [fieldsNamed_vary_precompressed hasset, fieldsNamed_vary_precompressed hasset]
    · exact ⟨_, fieldsNamed_vary_precompressed hasset deflate r,
        lists_of_listNames (by decide) (by decide +kernel)⟩

end

/-- **Content negotiation is safe for caches.**  Two retrievals that differ only in their methods
and their `Accept-Encoding` fields get one head if they accept the same codings, the same `Vary` in
any case, and a `Vary` that lists `Accept-Encoding` if anything else differs; also when zlib fails
for one of them.  This holds of every response a handler can make and of every asset, before and
after the condition of the request is applied. -/
theorem content_negotiation_is_cache_safe {r r' : Request Bytes} (h : Retrievals r r')
    (deflate deflate' : Deflate) (now : SystemTime) (options : ResponseEncodingOptions) :
    let Safe (answer : Request Bytes → Response) : Prop :=
      CacheSafe (deflate = deflate' ∧ acceptedCodings r = acceptedCodings r')
        (encodeResponse deflate now r (answer r) options)
        (encodeResponse deflate' now r' (answer r') options)
    (∀ response, Safe fun _ => response) ∧
    (∀ response, Safe fun request => applyConditionalRequest request response) ∧
    (∀ asset, Safe (assetResponse asset)) ∧
    ∀ asset, Safe fun request => applyConditionalRequest request (assetResponse asset request) := by
  intro Safe
  have hresponse : ∀ response, Safe fun _ => response := fun response =>
    cacheSafe_encodeResponse And.left (fun hagree => h.wantsGzip_eq hagree.2) response
  refine ⟨hresponse, fun response => ?_, cacheSafe_assetResponse h, fun asset => ?_⟩
  · have heq := h.applyConditionalRequest_eq response
    have hsafe := hresponse (applyConditionalRequest r response)
    simp only [Safe] at hsafe ⊢
    rwa [← heq]
  · simp only [Safe, applyConditionalRequest_assetResponse]
    exact cacheSafe_assetResponse h asset

/-- A retrieval that wants gzip. -/
def gzipRetrieval : Request Bytes :=
  { Request.init with
    method := .get, headers := [⟨ascii "accept-encoding", ascii "gzip"⟩], wantsGzip := true }

/-- A retrieval that accepts what there is. -/
def plainRetrieval : Request Bytes := { Request.init with method := .head }

/-- The letters are compressed for the one and not for the other. -/
theorem letters_are_negotiated_safely :
    Retrievals gzipRetrieval plainRetrieval ∧
    CacheSafe (zlibOnLetters = zlibOnLetters ∧
        acceptedCodings gzipRetrieval = acceptedCodings plainRetrieval)
      (encodeResponse zlibOnLetters 0 gzipRetrieval (Response.text lettersBody)
        { serverHeader := [] })
      (encodeResponse zlibOnLetters 0 plainRetrieval (Response.text lettersBody)
        { serverHeader := [] }) := by
  have h : Retrievals gzipRetrieval plainRetrieval :=
    ⟨.inl rfl, .inr rfl, by decide +kernel, by decide +kernel, by decide, rfl⟩
  exact ⟨h, (content_negotiation_is_cache_safe h zlibOnLetters zlibOnLetters 0
    { serverHeader := [] }).1 (Response.text lettersBody)⟩

end ErikslundHttp
