import ErikslundHttp.Response.Conditional
import ErikslundHttp.Router.Basic

/-!
# The answers of an asset

An asset is refused (`406`), known to the client already (`304`) or sent (`200`).  The `304` is
written twice in the program: by `asset_response`, and by `apply_conditional_request` for any
response.

* `full_eq`: the `200` is a chain of fields that are set under guards.
* `findHeader_full`: what it finds under a name is known for every asset.
* `asset_not_modified_agrees_iff`: the two ways to a `304` agree unless the asset is compressed on the
  way, where the first leaves out `Vary`, or its tag cannot stand in a head.
-/

namespace ErikslundHttp

namespace Asset

variable (asset : Asset)

/-- The bytes of the asset are in a content coding. -/
def isPrecompressed : Bool := !asset.contentEncoding.isEmpty

/-- A precompressed asset is refused to a request that says what it accepts, and not gzip. -/
def refusedTo (request : Request Bytes) : Bool :=
  asset.isPrecompressed && (request.header (ascii "Accept-Encoding")).isSome && !request.wantsGzip

/-- The request has the asset already. -/
def matchesEtag (request : Request Bytes) : Bool :=
  !asset.etag.isEmpty &&
    ((request.header (ascii "If-None-Match")).any fun field => ifNoneMatchMatches field asset.etag)

/-- The `304` of an asset. -/
def notModified : Response :=
  let notModified := (Response.empty .notModified).etag asset.etag
  let notModified := notModified.header (ascii "Cache-Control") immutableCacheControl
  if asset.isPrecompressed then notModified.header (ascii "Vary") (ascii "Accept-Encoding")
  else notModified

/-- The `200` of an asset. -/
def full : Response :=
  let response := Response.borrowed asset.bytes asset.contentType
  let response := if !asset.etag.isEmpty then response.etag asset.etag else response
  let response := if !asset.contentEncoding.isEmpty then
    response.contentEncoding asset.contentEncoding else response
  let response := if asset.isPrecompressed then
    response.header (ascii "Vary") (ascii "Accept-Encoding") else response
  response.header (ascii "Cache-Control") immutableCacheControl

end Asset

theorem assetResponse_eq (asset : Asset) (request : Request Bytes) :
    assetResponse asset request =
      if asset.refusedTo request then precompressedAssetNotAcceptable
      else if asset.matchesEtag request then asset.notModified
      else asset.full := rfl

theorem notModified_status (asset : Asset) : asset.notModified.status = .notModified := by
  unfold Asset.notModified
  dsimp only
  split_ifs <;> rfl

/-! ### The fields of the `200` -/

/-- A field that is set under a guard. -/
def Response.setIf (r : Response) (guard : Bool) (name value : Bytes) : Response :=
  if guard then r.setHeader name value else r

theorem Response.findHeader_setIf {r : Response} {guard : Bool} {name value : Bytes}
    (hname : isValidFieldName name = true) (wanted : Bytes) :
    (r.setIf guard name value).findHeader wanted =
      if guard && isValidFieldValue value && equalsIgnoreCase name wanted then some value
      else r.findHeader wanted := by
  unfold Response.setIf
  cases guard with
  | false => rfl
  | true =>
    cases hvalue : isValidFieldValue value with
    | false =>
      rw [if_pos rfl, Response.setHeader, HeaderMap.set_of_invalid hvalue]
      rfl
    | true => exact Response.findHeader_header hname hvalue wanted

theorem Response.field_setIf_of_ne {r : Response} {guard : Bool} {name value wanted : Bytes}
    (hname : isValidFieldName name = true) (hne : equalsIgnoreCase name wanted = false) :
    (r.setIf guard name value).headers.field wanted = r.headers.field wanted := by
  cases guard with
  | false => rfl
  | true => exact Response.field_setHeader_of_ne hname hne

@[simp] theorem Response.setIf_status (r : Response) (guard : Bool) (name value : Bytes) :
    (r.setIf guard name value).status = r.status := by
  cases guard <;> rfl

@[simp] theorem Response.setIf_body (r : Response) (guard : Bool) (name value : Bytes) :
    (r.setIf guard name value).body = r.body := by
  cases guard <;> rfl

@[simp] theorem Response.setIf_stream (r : Response) (guard : Bool) (name value : Bytes) :
    (r.setIf guard name value).stream = r.stream := by
  cases guard <;> rfl

section

variable (asset : Asset)

theorem full_eq : asset.full =
    (((({ body := asset.bytes : Response }.setIf (!asset.contentType.isEmpty)
      (ascii "Content-Type") asset.contentType).setIf (!asset.etag.isEmpty)
      (ascii "ETag") asset.etag).setIf asset.isPrecompressed
      (ascii "Content-Encoding") asset.contentEncoding).setIf asset.isPrecompressed
      (ascii "Vary") (ascii "Accept-Encoding")).setIf true
      (ascii "Cache-Control") immutableCacheControl := by
  have hborrowed : Response.borrowed asset.bytes asset.contentType =
      { body := asset.bytes : Response }.setIf (!asset.contentType.isEmpty)
        (ascii "Content-Type") asset.contentType := by
    unfold Response.borrowed Response.setIf
    cases asset.contentType.isEmpty <;> rfl
  unfold Asset.full
  rw [hborrowed]
  rfl

theorem findHeader_full (wanted : Bytes) : asset.full.findHeader wanted =
    if equalsIgnoreCase (ascii "Cache-Control") wanted then some immutableCacheControl
    else if asset.isPrecompressed && equalsIgnoreCase (ascii "Vary") wanted then
      some (ascii "Accept-Encoding")
    else if asset.isPrecompressed && isValidFieldValue asset.contentEncoding &&
        equalsIgnoreCase (ascii "Content-Encoding") wanted then some asset.contentEncoding
    else if !asset.etag.isEmpty && isValidFieldValue asset.etag &&
        equalsIgnoreCase (ascii "ETag") wanted then some asset.etag
    else if !asset.contentType.isEmpty && isValidFieldValue asset.contentType &&
        equalsIgnoreCase (ascii "Content-Type") wanted then some asset.contentType
    else none := by
  have hcache : isValidFieldValue immutableCacheControl = true := by decide +kernel
  have hvary : isValidFieldValue (ascii "Accept-Encoding") = true := by decide
  rw [full_eq]
  simp (disch := decide) only [Response.findHeader_setIf, hcache, hvary, Bool.and_true,
    Bool.true_and]
  rfl

theorem findHeader_etag_full : asset.full.findHeader (ascii "ETag") =
    if !asset.etag.isEmpty && isValidFieldValue asset.etag then some asset.etag else none := by
  rw [findHeader_full]
  simp +decide

@[simp] theorem full_status : asset.full.status = .ok := by simp [full_eq]

@[simp] theorem full_body : asset.full.body = asset.bytes := by simp [full_eq]

@[simp] theorem full_isStream : asset.full.isStream = false := by
  simp [full_eq, Response.isStream]

/-- The encoder would compress the bytes of the asset for a request that wants gzip. -/
def Asset.isCompressible : Bool :=
  isValidFieldValue asset.contentType &&
    responseVariesOnAcceptEncoding asset.contentType [] asset.bytes.length

theorem mergedVary_full : asset.full.mergedVary =
    if asset.isPrecompressed || asset.isCompressible then some (ascii "Accept-Encoding")
    else none := by
  have hvary : asset.full.findHeader (ascii "Vary") =
      if asset.isPrecompressed then some (ascii "Accept-Encoding") else none := by
    rw [findHeader_full]
    cases asset.isPrecompressed <;> simp +decide
  have hkept : acceptEncodingVary (ascii "Accept-Encoding") = ascii "Accept-Encoding" := by
    decide +kernel
  unfold Response.mergedVary
  rw [hvary]
  cases hpre : asset.isPrecompressed with
  | true =>
    simp only [if_true, Option.getD_some, hkept, ite_self, Bool.true_or]
  | false =>
    have hcoding : asset.full.findHeader (ascii "Content-Encoding") = none := by
      rw [findHeader_full]
      simp +decide [hpre]
    have htype : asset.full.contentType =
        if isValidFieldValue asset.contentType then asset.contentType else [] := by
      rw [Response.contentType, findHeader_full]
      cases hct : asset.contentType with
      | nil => simp +decide [hpre]
      | cons b rest =>
        cases isValidFieldValue (b :: rest) <;> simp +decide [hpre]
    rw [hcoding, htype, full_body, Asset.isCompressible, Bool.false_or, Option.getD_none]
    cases isValidFieldValue asset.contentType with
    | false =>
      have hnever : responseVariesOnAcceptEncoding [] [] asset.bytes.length = false := by
        unfold responseVariesOnAcceptEncoding
        split_ifs <;> rfl
      simp [hnever]
    | true =>
      simp only [if_true, Bool.true_and, Option.getD_none, Bool.false_eq_true, if_false]
      rfl

end

/-! ### Every answer of a precompressed asset varies -/

section

variable {asset : Asset} (hasset : asset.isPrecompressed = true)
include hasset

theorem field_vary_full : asset.full.headers.field (ascii "Vary") =
    some (ascii "Vary", ascii "Accept-Encoding") := by
  rw [full_eq, Response.field_setIf_of_ne (by decide) (by decide), hasset]
  refine Response.field_setHeader_of_new (by decide) (by decide) ?_
  simp (disch := decide) only [Response.field_setIf_of_ne]
  rfl

theorem field_vary_notModified : asset.notModified.headers.field (ascii "Vary") =
    some (ascii "Vary", ascii "Accept-Encoding") := by
  unfold Asset.notModified
  rw [if_pos hasset]
  refine Response.field_setHeader_of_new (by decide) (by decide) ?_
  simp (disch := decide) only [Response.header, Response.etag, Response.field_setHeader_of_ne]
  rfl

/-- The `Vary` of a precompressed asset is the same in all its answers. -/
theorem field_vary_assetResponse (request : Request Bytes) :
    (assetResponse asset request).headers.field (ascii "Vary") =
      some (ascii "Vary", ascii "Accept-Encoding") := by
  rw [assetResponse_eq]
  split_ifs
  · decide +kernel
  · exact field_vary_notModified hasset
  · exact field_vary_full hasset

end

/-! ### Two ways to a `304` -/

section

variable {asset : Asset} {request : Request Bytes}

/-- The `304` that is derived from the `200` of an asset, when its tag can stand in a head. -/
theorem notModifiedFrom_full (hetag : asset.etag.isEmpty = false)
    (hvalid : isValidFieldValue asset.etag = true) :
    notModifiedFrom asset.full =
      let notModified := ((Response.empty .notModified).etag asset.etag).header
        (ascii "Cache-Control") immutableCacheControl
      if asset.isPrecompressed || asset.isCompressible then
        notModified.header (ascii "Vary") (ascii "Accept-Encoding")
      else notModified := by
  have hcache : asset.full.findHeader (ascii "Cache-Control") = some immutableCacheControl := by
    rw [findHeader_full, if_pos (by decide)]
  have htag : asset.full.findHeader (ascii "ETag") = some asset.etag := by
    rw [findHeader_etag_full, hetag, hvalid]
    rfl
  have hlocation : asset.full.findHeader (ascii "Content-Location") = none := by
    rw [findHeader_full]
    simp +decide
  have hdate : asset.full.findHeader (ascii "Date") = none := by
    rw [findHeader_full]
    simp +decide
  have hexpires : asset.full.findHeader (ascii "Expires") = none := by
    rw [findHeader_full]
    simp +decide
  have hcopy : preservedFrom asset.full =
      ((Response.empty .notModified).header (ascii "Cache-Control") immutableCacheControl).header
        (ascii "ETag") asset.etag := by
    unfold preservedFrom preservedFields
    simp only [List.map, List.foldl, hcache, htag, hlocation, hdate, hexpires]
  have hcomm : ((Response.empty .notModified).header (ascii "Cache-Control")
      immutableCacheControl).header (ascii "ETag") asset.etag =
      ((Response.empty .notModified).etag asset.etag).header (ascii "Cache-Control")
        immutableCacheControl := by
    unfold Response.header Response.etag
    rw [Response.setHeader_comm _ _ _ (by decide) (by decide) (by decide)]
  rw [notModifiedFrom_eq, mergedVary_full, hcopy, hcomm]
  split_ifs <;> rfl

/-- The headers of other names are found as before when those of one name are dropped. -/
theorem find?_filter_name {dropped name : Bytes} (h : equalsIgnoreCase dropped name = false)
    (headers : List Header) :
    (headers.filter fun field => !equalsIgnoreCase field.name dropped).find?
        (fun field => equalsIgnoreCase field.name name) =
      headers.find? fun field => equalsIgnoreCase field.name name := by
  rw [List.find?_filter]
  refine congrArg (List.find? · headers) (funext fun field => ?_)
  cases hname : equalsIgnoreCase field.name dropped with
  | false => simp
  | true => simp [equalsIgnoreCase_congr_left hname, h]

/-- The request without its condition. -/
def Request.unconditional (r : Request Bytes) : Request Bytes :=
  { r with headers :=
      r.headers.filter fun field => !equalsIgnoreCase field.name (ascii "If-None-Match") }

theorem assetResponse_unconditional (hserved : asset.refusedTo request = false) :
    assetResponse asset request.unconditional = asset.full := by
  have haccept : request.unconditional.header (ascii "Accept-Encoding") =
      request.header (ascii "Accept-Encoding") := by
    rw [Request.header, Request.unconditional, find?_filter_name (by decide)]
    rfl
  have hcondition : request.unconditional.header (ascii "If-None-Match") = none := by
    rw [Request.header, Request.unconditional, Option.map_eq_none_iff, List.find?_eq_none]
    intro field hfield
    simpa using (List.mem_filter.1 hfield).2
  have hrefused : asset.refusedTo request.unconditional = false := by
    rw [← hserved, Asset.refusedTo, Asset.refusedTo, haccept]
    rfl
  rw [assetResponse_eq, hrefused, Asset.matchesEtag, hcondition]
  simp

/-- The condition of the request holds for the `200` exactly if the asset's tag is in it. -/
theorem revalidates_full (hmethod : request.method = .get ∨ request.method = .head)
    (hmatches : asset.matchesEtag request = true) :
    revalidates request asset.full = isValidFieldValue asset.etag := by
  simp only [Asset.matchesEtag, Bool.and_eq_true, Bool.not_eq_true'] at hmatches
  have hretrieval : (request.method == .get || request.method == .head) = true := by
    rcases hmethod with h | h <;> rw [h] <;> rfl
  rw [revalidates, hretrieval, full_status, full_isStream, findHeader_etag_full, hmatches.1]
  cases isValidFieldValue asset.etag with
  | false => rfl
  | true => simpa [hmatches.1] using hmatches.2

/-- An asset's answer has taken the condition of the request into account already. -/
theorem applyConditionalRequest_assetResponse (asset : Asset) (request : Request Bytes) :
    applyConditionalRequest request (assetResponse asset request) =
      assetResponse asset request := by
  rw [applyConditionalRequest_eq, assetResponse_eq]
  refine if_neg (Bool.not_eq_true _ ▸ ?_)
  unfold revalidates
  split_ifs with hrefused hmatches
  · have hstatus : (precompressedAssetNotAcceptable.status == .ok) = false := by decide
    simp [hstatus]
  · rw [notModified_status]
    simp [(by decide : (Status.notModified == .ok) = false)]
  · have htag : (asset.full.findHeader (ascii "ETag")).any (fun etag =>
        (request.header (ascii "If-None-Match")).any fun condition =>
          !etag.isEmpty && ifNoneMatchMatches condition etag) = false := by
      rw [findHeader_etag_full]
      simp only [Asset.matchesEtag, Bool.not_eq_true] at hmatches
      cases hempty : asset.etag.isEmpty with
      | true => rfl
      | false =>
        rw [hempty, Bool.not_false, Bool.true_and] at hmatches
        cases isValidFieldValue asset.etag with
        | false => rfl
        | true => simpa [hempty] using hmatches
    rw [htag, Bool.and_false]

/-- The `304` of the router has no `Vary` unless the asset is precompressed. -/
theorem findHeader_vary_notModified (hpre : asset.isPrecompressed = false) :
    asset.notModified.findHeader (ascii "Vary") = none := by
  unfold Asset.notModified
  dsimp only
  rw [hpre, if_neg Bool.false_ne_true, Response.findHeader, HeaderMap.find_eq_map_field]
  unfold Response.header Response.etag
  rw [Response.field_setHeader_of_ne (by decide) (by decide),
    Response.field_setHeader_of_ne (by decide) (by decide)]
  rfl

/-- A `304` has the `Vary` of its response, and none of the encoder's. -/
theorem valuesNamed_vary_notModified (deflate : Deflate) (now : SystemTime)
    (request : Request Bytes) (options : ResponseEncodingOptions) {r : Response}
    (hstatus : r.status = .notModified) :
    valuesNamed "Vary" (encodeResponse deflate now request r options).head =
      (r.findHeader (ascii "Vary")).toList := by
  rw [valuesNamed_vary, Response.varies, hstatus]
  rfl

/-- A `200` has a length, and a `304` has none. -/
theorem full_length_ne_notModified_length (deflate : Deflate) (now : SystemTime)
    (request : Request Bytes) (options : ResponseEncodingOptions) :
    valuesNamed "Content-Length" (encodeResponse deflate now request asset.notModified
        options).head ≠
      valuesNamed "Content-Length" (encodeResponse deflate now request asset.full
        options).head := by
  intro hlength
  rw [valuesNamed, valuesNamed, fieldsNamed_encodeResponse, fieldsNamed_encodeResponse,
    filter_contentLength, filter_contentLength, notModified_status, full_status,
    full_isStream] at hlength
  have hnone : Status.notModified.isBodiless = true := rfl
  have hsome : Status.ok.isBodiless = false := rfl
  simp [fieldIf, hnone, hsome] at hlength

/-- **The two ways to a `304` agree** exactly if the tag can stand in a head, and `Vary` is sent by
both (a precompressed asset) or by neither (one that is not compressed on the way).  The `304` of
the router leaves out the `Vary` that the `200` of a compressible asset has. -/
theorem asset_not_modified_agrees_iff (deflate : Deflate) (now : SystemTime)
    (options : ResponseEncodingOptions)
    (hmethod : request.method = .get ∨ request.method = .head)
    (hmatches : asset.matchesEtag request = true) (hserved : asset.refusedTo request = false) :
    (∀ name, valuesNamed name
        (encodeResponse deflate now request (assetResponse asset request) options).head =
      valuesNamed name (encodeResponse deflate now request
        (applyConditionalRequest request (assetResponse asset request.unconditional))
        options).head) ↔
      isValidFieldValue asset.etag = true ∧
        (asset.isPrecompressed = true ∨ asset.isCompressible = false) := by
  have hetag : asset.etag.isEmpty = false := by
    simp only [Asset.matchesEtag, Bool.and_eq_true, Bool.not_eq_true'] at hmatches
    exact hmatches.1
  have hdirect : assetResponse asset request = asset.notModified := by
    rw [assetResponse_eq, hserved, hmatches]
    rfl
  rw [hdirect, assetResponse_unconditional hserved, applyConditionalRequest_eq,
    revalidates_full hmethod hmatches]
  cases hvalid : isValidFieldValue asset.etag with
  | false =>
    -- the response stays a `200`, with a length
    simp only [Bool.false_eq_true, if_false, false_and, iff_false]
    intro hsame
    exact full_length_ne_notModified_length deflate now request options (hsame "Content-Length")
  | true =>
    rw [if_pos rfl, notModifiedFrom_full hetag hvalid]
    cases hpre : asset.isPrecompressed with
    | true => simp [Asset.notModified, hpre]
    | false =>
      cases hcompressible : asset.isCompressible with
      | false => simp [Asset.notModified, hpre]
      | true =>
        simp only [Bool.or_true, if_true, Bool.false_eq_true, reduceCtorEq, or_self, and_false,
          iff_false]
        intro hsame
        have hvary := hsame "Vary"
        rw [valuesNamed_vary_notModified _ _ _ _ (notModified_status asset),
          valuesNamed_vary_notModified _ _ _ _ rfl, findHeader_vary_notModified hpre,
          Response.findHeader_header (by decide) (by decide)] at hvary
        cases hvary

end

/-- A request that has the entity of a tag. -/
def taggedGet : Request Bytes :=
  { Request.init with
    method := .get, headers := [⟨ascii "If-None-Match", ascii "\"v1\""⟩] }

/-- The letters as an asset that the encoder would compress. -/
def lettersAsset : Asset where
  path := ascii "/letters.txt"
  contentType := ascii "text/plain; charset=utf-8"
  bytes := lettersBody
  etag := ascii "\"v1\""

/-- The same asset, compressed when the program was built. -/
def gzipLettersAsset : Asset where
  path := ascii "/letters.txt"
  contentType := ascii "text/plain; charset=utf-8"
  bytes := (zlibOnLetters lettersBody).getD []
  etag := ascii "\"v1\""
  contentEncoding := ascii "gzip"

theorem gzip_letters_not_modified_agrees :
    gzipLettersAsset.matchesEtag taggedGet = true ∧ gzipLettersAsset.refusedTo taggedGet = false ∧
    ∀ name, valuesNamed name (encodeResponse zlibOnLetters 0 taggedGet
        (assetResponse gzipLettersAsset taggedGet) { serverHeader := [] }).head =
      valuesNamed name (encodeResponse zlibOnLetters 0 taggedGet
        (applyConditionalRequest taggedGet
          (assetResponse gzipLettersAsset taggedGet.unconditional)) { serverHeader := [] }).head := by
  have hmatches : gzipLettersAsset.matchesEtag taggedGet = true := by decide +kernel
  have hserved : gzipLettersAsset.refusedTo taggedGet = false := by decide +kernel
  have hagrees := asset_not_modified_agrees_iff zlibOnLetters 0 { serverHeader := [] }
    (.inl rfl : taggedGet.method = .get ∨ _) hmatches hserved
  exact ⟨hmatches, hserved, hagrees.2 ⟨by decide +kernel, .inl (by decide)⟩⟩

/-- The `304` of the router says nothing of `Accept-Encoding`. -/
theorem letters_not_modified_lacks_vary :
    lettersAsset.matchesEtag taggedGet = true ∧ lettersAsset.refusedTo taggedGet = false ∧
    ¬ ∀ name, valuesNamed name (encodeResponse zlibOnLetters 0 taggedGet
        (assetResponse lettersAsset taggedGet) { serverHeader := [] }).head =
      valuesNamed name (encodeResponse zlibOnLetters 0 taggedGet
        (applyConditionalRequest taggedGet
          (assetResponse lettersAsset taggedGet.unconditional)) { serverHeader := [] }).head := by
  refine ⟨by decide +kernel, by decide +kernel, fun hsame => ?_⟩
  have hvary := hsame "Vary"
  revert hvary
  decide +kernel

end ErikslundHttp
