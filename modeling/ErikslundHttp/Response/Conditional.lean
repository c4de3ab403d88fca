import ErikslundHttp.Response.Framing
import ErikslundHttp.Response.Headers

/-!
# Conditional requests

A `304` must carry what the `200` it stands for would have: the fields that let a cache refresh what
it keeps.  `notModifiedFrom` copies some of them, the encoder adds others to both, and `Vary` is
merged in the one and in the other.

Fields are compared as they stand in the bytes of the two heads (`readHead`).
-/

namespace ErikslundHttp

open Scan Lines

/-! ### Reading a head -/

/-- A field line cut after its colon and the space that the encoder writes. -/
def cutFieldLine (line : Bytes) : Bytes × Bytes :=
  (lineName line, line.drop ((lineName line).length + 2))

theorem cutFieldLine_fieldLine {field : Bytes × Bytes} (h : FieldValid field) :
    cutFieldLine (fieldLine field) = field := by
  have hlength : (field.1 ++ ascii ": ").length = field.1.length + 2 := List.length_append
  rw [cutFieldLine, lineName_fieldLine h, fieldLine, List.drop_left' hlength]

/-- The status line and the fields of a head, as they stand in its bytes. -/
def readHead (head : Bytes) : Option (Bytes × List (Bytes × Bytes)) :=
  match readLines (cutStrict CR LF) head.length head with
  | some (first :: lines, _) => some (first, lines.map cutFieldLine)
  | _ => none

theorem readHead_encodeResponse (deflate : Deflate) (now : SystemTime) (request : Request Bytes)
    (response : Response) (options : ResponseEncodingOptions) :
    readHead (encodeResponse deflate now request response options).head =
      some (statusLine response.status, headFields deflate now request response options) := by
  have hread := readLines_head deflate now request response options
    (cutsPlainLines_strict CR LF) (length_headLines_lt deflate now request response options) []
  rw [List.append_nil] at hread
  rw [readHead, hread]
  show some (statusLine response.status,
    ((headFields deflate now request response options).map fieldLine).map cutFieldLine) = _
  rw [List.map_map]
  refine congrArg (fun fields => some (statusLine response.status, fields)) ?_
  refine (List.map_congr_left fun field hfield => ?_).trans (List.map_id _)
  exact cutFieldLine_fieldLine (headFields_valid deflate now request response options field hfield)

/-- The fields of a name in a head. -/
def fieldsNamed (name : String) (head : Bytes) : List (Bytes × Bytes) :=
  ((readHead head).map Prod.snd).getD [] |>.filter (named name)

section

variable (deflate : Deflate) (now : SystemTime) (request : Request Bytes) (response : Response)
  (options : ResponseEncodingOptions)

theorem fieldsNamed_encodeResponse (name : String) :
    fieldsNamed name (encodeResponse deflate now request response options).head =
      (headFields deflate now request response options).filter (named name) := by
  rw [fieldsNamed, readHead_encodeResponse]
  rfl

/-- The handler's field of a name that the encoder leaves to it. -/
theorem filter_handlerFields {name : String} (hframing : isFramingField (ascii name) = false)
    (hvary : response.varies = true → equalsIgnoreCase (ascii name) (ascii "Vary") = false) :
    response.handlerFields.filter (named name) = (response.headers.field (ascii name)).toList := by
  rw [← HeaderMap.filter_equalsIgnoreCase, Response.handlerFields, List.filter_filter]
  refine List.filter_congr fun e _ => ?_
  unfold named
  cases hname : equalsIgnoreCase e.1 (ascii name) with
  | false => exact Bool.false_and _
  | true =>
    have hframing' : isFramingField e.1 = false := by
      rw [← hframing]
      simp only [isFramingField, equalsIgnoreCase_congr_left hname]
    rw [Bool.true_and, hframing', equalsIgnoreCase_congr_left hname]
    cases hvaries : response.varies with
    | false => rfl
    | true =>
      rw [hvary hvaries]
      rfl

theorem field_vary : (headFields deflate now request response options).filter (named "Vary") =
    if response.varies then
      [(ascii "Vary", acceptEncodingVary ((response.findHeader (ascii "Vary")).getD []))]
    else (response.headers.field (ascii "Vary")).toList := by
  rw [headFields, List.filter_append]
  have hadded : (addedFields deflate now request response options).filter (named "Vary") =
      fieldIf response.varies "Vary"
        (acceptEncodingVary ((response.findHeader (ascii "Vary")).getD [])) := by
    simp +decide only [addedFields, List.filter_append, filter_named_fieldIf, if_true, if_false,
      List.nil_append, List.append_nil]
  rw [hadded]
  cases hvaries : response.varies with
  | false =>
    rw [filter_handlerFields response (by decide) (by simp [hvaries])]
    exact List.append_nil _
  | true =>
    rw [filter_named_handlerFields response fun f hf =>
      (handlerFields_spec response hf).2.2.2 hvaries]
    rfl

end

section

variable (deflate : Deflate) (now : SystemTime) (request : Request Bytes) (response : Response)
  (options : ResponseEncodingOptions)

/-- The values of the fields of a name in a head. -/
def valuesNamed (name : String) (head : Bytes) : List Bytes := (fieldsNamed name head).map Prod.snd

/-- A field that the encoder leaves to the handler, or adds when the handler has none. -/
theorem valuesNamed_encodeResponse {name : String} {added : List (Bytes × Bytes)}
    (hframing : isFramingField (ascii name) = false)
    (hvary : equalsIgnoreCase (ascii name) (ascii "Vary") = false)
    (hadded : (addedFields deflate now request response options).filter (named name) = added) :
    valuesNamed name (encodeResponse deflate now request response options).head =
      (response.findHeader (ascii name)).toList ++ added.map Prod.snd := by
  rw [valuesNamed, fieldsNamed_encodeResponse, headFields, List.filter_append, hadded,
    filter_handlerFields response hframing fun _ => hvary, List.map_append, ← Option.toList_map]
  rfl

/-- A field that the encoder never adds. -/
theorem valuesNamed_of_handler {name : String} (hframing : isFramingField (ascii name) = false)
    (hnone : ∀ added ∈ encoderFieldNames, equalsIgnoreCase added (ascii name) = false) :
    valuesNamed name (encodeResponse deflate now request response options).head =
      (response.findHeader (ascii name)).toList := by
  have hvary : equalsIgnoreCase (ascii name) (ascii "Vary") = false := by
    refine Bool.eq_false_of_not_eq_true fun hvary => ?_
    have := hnone (ascii "Vary") (by decide)
    rw [equalsIgnoreCase_symm hvary] at this
    cases this
  have hadded : (addedFields deflate now request response options).filter (named name) = [] := by
    refine List.filter_eq_nil_iff.2 fun field hfield => ?_
    have hmem := (names_addedFields_sublist deflate now request response options).subset
      (List.mem_map_of_mem hfield)
    rw [named, hnone _ hmem]
    exact Bool.false_ne_true
  rw [valuesNamed_encodeResponse deflate now request response options hframing hvary hadded]
  exact List.append_nil _

/-- The value that the encoder adds when the handler has none. -/
theorem valuesNamed_of_lacks {name : String} {value : Bytes}
    (hframing : isFramingField (ascii name) = false)
    (hvary : equalsIgnoreCase (ascii name) (ascii "Vary") = false)
    (hadded : (addedFields deflate now request response options).filter (named name) =
      fieldIf (response.lacks name) name value) :
    valuesNamed name (encodeResponse deflate now request response options).head =
      [(response.findHeader (ascii name)).getD value] := by
  rw [valuesNamed_encodeResponse deflate now request response options hframing hvary hadded]
  unfold Response.lacks
  cases response.findHeader (ascii name) <;> rfl

theorem valuesNamed_date :
    valuesNamed "Date" (encodeResponse deflate now request response options).head =
      [(response.findHeader (ascii "Date")).getD (httpDate now)] := by
  refine valuesNamed_of_lacks deflate now request response options (by decide) (by decide) ?_
  simp +decide only [addedFields, List.filter_append, filter_named_fieldIf, if_true, if_false,
    List.nil_append, List.append_nil]

theorem valuesNamed_cacheControl :
    valuesNamed "Cache-Control" (encodeResponse deflate now request response options).head =
      [(response.findHeader (ascii "Cache-Control")).getD (ascii "no-store")] := by
  refine valuesNamed_of_lacks deflate now request response options (by decide) (by decide) ?_
  simp +decide only [addedFields, List.filter_append, filter_named_fieldIf, if_true, if_false,
    List.nil_append, List.append_nil]

theorem valuesNamed_vary :
    valuesNamed "Vary" (encodeResponse deflate now request response options).head =
      if response.varies then
        [acceptEncodingVary ((response.findHeader (ascii "Vary")).getD [])]
      else (response.findHeader (ascii "Vary")).toList := by
  rw [valuesNamed, fieldsNamed_encodeResponse, field_vary]
  split_ifs
  · rfl
  · exact Option.toList_map.symm

end

/-! ### When a response is replaced -/

/-- The condition of a request holds for a response. -/
def revalidates (request : Request Bytes) (response : Response) : Bool :=
  (request.method == .get || request.method == .head) && response.status == .ok &&
    !response.isStream && (response.findHeader (ascii "ETag")).any fun etag =>
      (request.header (ascii "If-None-Match")).any fun condition =>
        !etag.isEmpty && ifNoneMatchMatches condition etag

theorem applyConditionalRequest_eq (request : Request Bytes) (response : Response) :
    applyConditionalRequest request response =
      if revalidates request response then notModifiedFrom response else response := by
  unfold applyConditionalRequest revalidates
  cases (request.method == .get || request.method == .head) with
  | false => rfl
  | true =>
    cases hstatus : response.status == .ok with
    | false => simp [bne, hstatus]
    | true =>
      cases response.isStream with
      | true => simp
      | false =>
        cases response.findHeader (ascii "ETag") with
        | none => simp
        | some etag =>
          cases request.header (ascii "If-None-Match") with
          | none => simp
          | some condition => simp [bne, hstatus]

/-! ### The fields of the replacement -/

/-- A field of `source`, in any letter case, is the one that a copy of some fields finds. -/
theorem findHeader_copy (source : Response) (names : List Bytes)
    (hnames : ∀ name ∈ names, isValidFieldName name = true) (r : Response) (wanted : Bytes) :
    (names.foldl (fun response field =>
      match source.findHeader field with
      | some value => response.header field value
      | none => response) r).findHeader wanted =
      if names.any (equalsIgnoreCase · wanted) then
        (source.findHeader wanted).or (r.findHeader wanted)
      else r.findHeader wanted := by
  induction names generalizing r with
  | nil => rfl
  | cons name names ih =>
    obtain ⟨hname, hnames⟩ := List.forall_mem_cons.1 hnames
    rw [List.foldl_cons, ih hnames, List.any_cons]
    have hcopy : (match source.findHeader name with
        | some value => r.header name value
        | none => r).findHeader wanted =
        if equalsIgnoreCase name wanted then
          (source.findHeader wanted).or (r.findHeader wanted)
        else r.findHeader wanted := by
      have hfind : equalsIgnoreCase name wanted = true →
          source.findHeader wanted = source.findHeader name := by
        intro hsame
        rw [Response.findHeader, Response.findHeader, HeaderMap.find_eq_map_field,
          HeaderMap.find_eq_map_field, HeaderMap.field_congr hsame]
      cases hsource : source.findHeader name with
      | none =>
        split_ifs with hsame
        · rw [hfind hsame, hsource, Option.none_or]
        · rfl
      | some value =>
        rw [Response.findHeader_header hname (isValidFieldValue_find hsource)]
        split_ifs with hsame
        · rw [hfind hsame, hsource, Option.some_or]
        · rfl
    rw [hcopy]
    cases equalsIgnoreCase name wanted with
    | false => rfl
    | true => cases source.findHeader wanted <;> simp

/-- The `Vary` of the response that `notModifiedFrom` makes. -/
def Response.mergedVary (r : Response) : Option Bytes :=
  if responseVariesOnAcceptEncoding r.contentType
      ((r.findHeader (ascii "Content-Encoding")).getD []) r.body.length then
    some (acceptEncodingVary ((r.findHeader (ascii "Vary")).getD []))
  else r.findHeader (ascii "Vary")

theorem isValidFieldValue_mergedVary {r : Response} {value : Bytes}
    (h : r.mergedVary = some value) : isValidFieldValue value = true := by
  unfold Response.mergedVary at h
  split_ifs at h
  · cases h
    refine isValidFieldValue_acceptEncodingVary ?_
    cases hvary : r.findHeader (ascii "Vary") with
    | none => rfl
    | some declared => exact isValidFieldValue_find hvary
  · exact isValidFieldValue_find h

/-- The preserved fields of a response, on a bodiless one. -/
def preservedFrom (source : Response) : Response :=
  preservedFields.foldl (fun response field =>
    match source.findHeader field with
    | some value => response.header field value
    | none => response) (Response.empty .notModified)

theorem notModifiedFrom_eq (source : Response) : notModifiedFrom source =
    match source.mergedVary with
    | some value => (preservedFrom source).header (ascii "Vary") value
    | none => preservedFrom source := by
  unfold notModifiedFrom Response.mergedVary Response.contentType
  dsimp only
  split_ifs <;> rfl

theorem findHeader_preservedFrom (source : Response) (wanted : Bytes) :
    (preservedFrom source).findHeader wanted =
      if preservedFields.any (equalsIgnoreCase · wanted) then source.findHeader wanted
      else none := by
  refine (findHeader_copy source preservedFields (by decide) _ wanted).trans ?_
  split_ifs
  · exact Option.or_none
  · rfl

theorem findHeader_vary_notModifiedFrom (source : Response) :
    (notModifiedFrom source).findHeader (ascii "Vary") = source.mergedVary := by
  rw [notModifiedFrom_eq]
  cases hvary : source.mergedVary with
  | none => exact (findHeader_preservedFrom source _).trans (if_neg (by decide))
  | some value =>
    exact (Response.findHeader_header (by decide) (isValidFieldValue_mergedVary hvary) _).trans
      (if_pos (by decide))

theorem findHeader_notModifiedFrom (source : Response) {name : Bytes} (h : name ∈ preservedFields) :
    (notModifiedFrom source).findHeader name = source.findHeader name := by
  have hpreserved : (preservedFrom source).findHeader name = source.findHeader name := by
    have hany : preservedFields.any (fun field => equalsIgnoreCase field name) = true :=
      List.any_eq_true.2 ⟨name, h, equalsIgnoreCase_refl name⟩
    rw [findHeader_preservedFrom, hany, if_pos rfl]
  have hne : equalsIgnoreCase (ascii "Vary") name = false :=
    (by decide : ∀ name ∈ preservedFields, equalsIgnoreCase (ascii "Vary") name = false) name h
  rw [notModifiedFrom_eq]
  cases hvary : source.mergedVary with
  | none => exact hpreserved
  | some value =>
    dsimp only
    rw [Response.findHeader_header (by decide) (isValidFieldValue_mergedVary hvary), hne,
      hpreserved]
    rfl

theorem exists_notModifiedFrom_eq (source : Response) :
    ∃ headers, notModifiedFrom source = { status := .notModified, headers := headers } := by
  have hcopy : ∀ (names : List Bytes) (r : Response), ∃ headers,
      names.foldl (fun response field =>
        match source.findHeader field with
        | some value => response.header field value
        | none => response) r = { r with headers := headers } := by
    intro names
    induction names with
    | nil => exact fun r => ⟨r.headers, rfl⟩
    | cons name names ih =>
      intro r
      rw [List.foldl_cons]
      cases source.findHeader name with
      | none => exact ih r
      | some value => exact ih (r.header name value)
  obtain ⟨headers, hpreserved⟩ := hcopy preservedFields (Response.empty .notModified)
  rw [notModifiedFrom_eq, preservedFrom, hpreserved]
  cases source.mergedVary with
  | none => exact ⟨headers, rfl⟩
  | some value => exact ⟨_, rfl⟩

theorem varies_notModifiedFrom (source : Response) : (notModifiedFrom source).varies = false := by
  obtain ⟨headers, heq⟩ := exists_notModifiedFrom_eq source
  rw [heq]
  rfl

/-- `Vary` is merged in the replacement as the encoder merges it in the original. -/
theorem toList_mergedVary {r : Response} (hstatus : r.status = .ok) (hstream : r.isStream = false) :
    r.mergedVary.toList =
      if r.varies then [acceptEncodingVary ((r.findHeader (ascii "Vary")).getD [])]
      else (r.findHeader (ascii "Vary")).toList := by
  have hvaries : r.varies = responseVariesOnAcceptEncoding r.contentType
      ((r.findHeader (ascii "Content-Encoding")).getD []) r.body.length := by
    rw [Response.varies, Response.handlerBody, hstatus, hstream]
    rfl
  rw [hvaries, Response.mergedVary]
  split_ifs <;> rfl

/-- The fields that a `304` must carry when the `200` would have. -/
def retainedFields : List String :=
  ["Cache-Control", "Content-Location", "Date", "ETag", "Expires", "Vary"]

/-- **A `304` carries what the `200` would have.**  Whatever the handler put into the response, and
whatever the encoder adds. -/
theorem not_modified_carries_the_fields_of_ok (deflate : Deflate) (now : SystemTime)
    (request : Request Bytes) (response : Response) (options : ResponseEncodingOptions)
    (hstatus : response.status = .ok)
    (hreplaced : (applyConditionalRequest request response).status = .notModified) :
    ∀ name ∈ retainedFields,
      valuesNamed name (encodeResponse deflate now request
        (applyConditionalRequest request response) options).head =
      valuesNamed name (encodeResponse deflate now request response options).head := by
  rw [applyConditionalRequest_eq] at hreplaced ⊢
  split_ifs at hreplaced ⊢ with hrevalidates
  · have hstream : response.isStream = false := by
      simp only [revalidates, Bool.and_eq_true, Bool.not_eq_true'] at hrevalidates
      exact hrevalidates.1.2
    intro name hname
    simp only [retainedFields, List.mem_cons, List.not_mem_nil, or_false] at hname
    rcases hname with rfl | rfl | rfl | rfl | rfl | rfl
    · rw [valuesNamed_cacheControl, valuesNamed_cacheControl,
        findHeader_notModifiedFrom response (by decide)]
    · rw [valuesNamed_of_handler _ _ _ _ _ (by decide) (by decide),
        valuesNamed_of_handler _ _ _ _ _ (by decide) (by decide),
        findHeader_notModifiedFrom response (by decide)]
    · rw [valuesNamed_date, valuesNamed_date, findHeader_notModifiedFrom response (by decide)]
    · rw [valuesNamed_of_handler _ _ _ _ _ (by decide) (by decide),
        valuesNamed_of_handler _ _ _ _ _ (by decide) (by decide),
        findHeader_notModifiedFrom response (by decide)]
    · rw [valuesNamed_of_handler _ _ _ _ _ (by decide) (by decide),
        valuesNamed_of_handler _ _ _ _ _ (by decide) (by decide),
        findHeader_notModifiedFrom response (by decide)]
    · rw [valuesNamed_vary, valuesNamed_vary, varies_notModifiedFrom,
        findHeader_vary_notModifiedFrom, ← toList_mergedVary hstatus hstream]
      rfl
  · rw [hstatus] at hreplaced
    cases hreplaced

/-- A request that takes any entity it has. -/
def anyEntityGet : Request Bytes :=
  { Request.init with
    method := .get, headers := [⟨ascii "If-None-Match", ascii "*"⟩] }

/-- A body that is worth compressing, under a tag and a `Vary` of the handler's own. -/
def taggedLetters : Response :=
  ((Response.text lettersBody).header (ascii "vary") (ascii "Origin")).etag (ascii "\"v1\"")

theorem not_modified_letters :
    (applyConditionalRequest anyEntityGet taggedLetters).status = .notModified ∧
    ∀ name ∈ retainedFields,
      valuesNamed name (encodeResponse zlibOnLetters 0 anyEntityGet
        (applyConditionalRequest anyEntityGet taggedLetters) { serverHeader := [] }).head =
      valuesNamed name (encodeResponse zlibOnLetters 0 anyEntityGet taggedLetters
        { serverHeader := [] }).head :=
  ⟨by decide +kernel, not_modified_carries_the_fields_of_ok zlibOnLetters 0 anyEntityGet
    taggedLetters { serverHeader := [] } rfl (by decide +kernel)⟩

end ErikslundHttp
