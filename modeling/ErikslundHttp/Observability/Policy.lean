import ErikslundHttp.Lib.Csp
import ErikslundHttp.Observability.ScriptHash
import ErikslundHttp.Observability.StatusPage
import ErikslundHttp.Response.Conditional

/-!
# The policy of a status page

A page with live updates has an inline script, and is sent with a policy that names the hash of it
(`csp_hash_source_of` of `status_page.cpp`, `live_content_security_policy` and `render_status_page`
of `observability.cpp`).  Every other page has the policy of the encoder.

* `scripts_tokens`: the script that a reader finds in the page that is sent.
* `html_policy_allows`, `live_policy_allows_iff`: what the policies allow.
* `status_page_policy` puts the two sides together.
-/

namespace ErikslundHttp

/-- What stands before a hash in a policy. -/
def kCspHashSourcePrefix : Bytes := ascii "'sha256-"

/-- What stands behind it. -/
def kCspHashSourceSuffix : Bytes := ascii "'"

/-- `csp_hash_source_of`. -/
def cspHashSourceOf (scriptText : Bytes) : Bytes :=
  kCspHashSourcePrefix ++ base64OfDigest (sha256 scriptText) ++ kCspHashSourceSuffix

/-- `live_update_script_csp_source`. -/
def liveUpdateScriptCspSource : Bytes := cspHashSourceOf kLiveUpdateScriptText

/-- The policy of the live page up to its script. -/
def kLivePolicyBeforeScriptSource : Bytes :=
  ascii "default-src 'self'; style-src 'unsafe-inline'; script-src "

/-- The rest of it. -/
def kLivePolicyAfterScriptSource : Bytes :=
  ascii ("; connect-src 'self'; base-uri 'none'; frame-ancestors 'none'; form-action 'none'; " ++
    "object-src 'none'")

/-- `live_content_security_policy`. -/
def liveContentSecurityPolicy : Bytes :=
  kLivePolicyBeforeScriptSource ++ liveUpdateScriptCspSource ++ kLivePolicyAfterScriptSource

/-- `render_status_page`, of the page that the application or the default builds. -/
def renderStatusPage (liveUpdates : Bool) (page : StatusPage) : Response :=
  let page := if liveUpdates then { page with liveUpdates := true } else page
  let response := Response.html page.render
  if liveUpdates then
    response.header (ascii "Content-Security-Policy") liveContentSecurityPolicy
  else response

/-! ### The scripts of a page -/

namespace StatusPage

open Html (Token)

/-- No tag of these opens a script. -/
def Scriptless (tokens : List Token) : Prop := ∀ token ∈ tokens, token.opensScript = false

@[simp] theorem scriptless_nil : Scriptless [] := List.forall_mem_nil _

@[simp] theorem scriptless_cons_iff {token : Token} {tokens : List Token} :
    Scriptless (token :: tokens) ↔ token.opensScript = false ∧ Scriptless tokens :=
  List.forall_mem_cons

@[simp] theorem scriptless_append_iff {tokens tokens' : List Token} :
    Scriptless (tokens ++ tokens') ↔ Scriptless tokens ∧ Scriptless tokens' :=
  List.forall_mem_append

@[simp] theorem scriptless_flatMap_iff {α : Type*} {items : List α} {tokens : α → List Token} :
    Scriptless (items.flatMap tokens) ↔ ∀ item ∈ items, Scriptless (tokens item) :=
  List.forall_mem_flatMap

@[simp] theorem scriptless_chars (text : Bytes) : Scriptless (chars text) := by
  intro token htoken
  obtain ⟨b, -, rfl⟩ := List.mem_map.1 htoken
  rfl

@[simp] theorem scriptless_openTag_iff {name : String} {attributes : List (String × Bytes)} :
    Scriptless (openTag name attributes) ↔ (ascii name == Html.bytes "script") = false :=
  List.forall_mem_singleton

@[simp] theorem scriptless_closeTag (name : String) : Scriptless (closeTag name) :=
  List.forall_mem_singleton.2 rfl

theorem scriptless_prologue : Scriptless prologueTokens := by
  simp +decide [prologueTokens]

theorem scriptless_element (element : Element) : Scriptless element.tokens := by
  unfold Element.tokens
  cases element.kind <;> simp +decide

theorem scriptless_link (entry : Link) : Scriptless entry.tokens := by
  unfold Link.tokens
  split_ifs <;> simp +decide

theorem scriptless_links (links : List Link) : Scriptless (linksTokens links) := by
  cases links with
  | nil => exact scriptless_nil
  | cons entry links => simp +decide [linksTokens, scriptless_link]

section

variable (page : StatusPage)

theorem scriptless_refresh : Scriptless page.refreshTokens := by
  unfold refreshTokens
  split_ifs <;> simp +decide

theorem scriptless_title : Scriptless page.titleTokens := by
  simp +decide [titleTokens]

theorem scriptless_heading : Scriptless page.headingTokens := by
  simp +decide [headingTokens]

theorem scriptless_state : Scriptless page.stateTokens := by
  unfold stateTokens
  split_ifs <;> simp +decide

theorem scriptless_table : Scriptless page.tableTokens := by
  unfold tableTokens
  split_ifs <;> simp +decide [scriptless_element]

/-- A page with live updates has one script, and no other page has any. -/
theorem scripts_tokens : Html.scripts page.tokens =
    if page.liveUpdates then [kLiveUpdateScriptText] else [] := by
  have hbefore : Scriptless (prologueTokens ++ page.refreshTokens ++ page.titleTokens ++
      page.headingTokens ++ page.stateTokens ++ page.tableTokens ++ linksTokens page.links) := by
    simp only [scriptless_append_iff, scriptless_prologue, scriptless_refresh, scriptless_title,
      scriptless_heading, scriptless_state, scriptless_table, scriptless_links, and_self]
  have hepilogue : Scriptless (closeTag "body" ++ closeTag "html" ++ chars (ascii "\n")) := by simp
  rw [tokens, List.append_assoc, Html.scripts_append hbefore]
  unfold scriptTokens
  split_ifs
  · have hafter : Scriptless (chars kLiveUpdateScriptText ++ (closeTag "script" ++
        (chars (ascii "\n") ++ (closeTag "body" ++ closeTag "html" ++ chars (ascii "\n"))))) := by
      simp
    have htext := Html.leadingText_append kLiveUpdateScriptText
      (.tag ⟨true, ascii "script", []⟩) (fun b => by rintro ⟨⟩)
      (chars (ascii "\n") ++ (closeTag "body" ++ closeTag "html" ++ chars (ascii "\n")))
    rw [List.append_assoc, List.append_assoc, List.append_assoc, openTag, List.singleton_append,
      Html.scripts, if_pos (by decide), Html.scripts_eq_nil hafter]
    exact congrArg (fun text => [text]) htext
  · rw [List.nil_append, Html.scripts_eq_nil hepilogue]

end

end StatusPage

/-! ### The policies -/

theorem cspHashSourceOf_eq (scriptText : Bytes) :
    cspHashSourceOf scriptText = Csp.hashSource (Sha256.hash scriptText) := by
  rw [cspHashSourceOf, base64OfDigest_eq, toList_sha256]
  rfl

/-- What both policies have after the directives about scripts and styles. -/
def lockdown : List Csp.Directive :=
  ["base-uri", "frame-ancestors", "form-action", "object-src"].map fun name =>
    ⟨Csp.bytes name, [Csp.bytes "'none'"]⟩

/-- The directives before that of the scripts. -/
def styleDirectives : List Csp.Directive :=
  [⟨Csp.bytes "default-src", [Csp.bytes "'self'"]⟩,
    ⟨Csp.bytes "style-src", [Csp.bytes "'unsafe-inline'"]⟩]

/-- The directives of a policy with a source for scripts. -/
def scriptDirectives (source : Bytes) : List Csp.Directive :=
  styleDirectives ++ ⟨Csp.bytes "script-src", [source]⟩ ::
    ⟨Csp.bytes "connect-src", [Csp.bytes "'self'"]⟩ :: lockdown

theorem render_scriptDirectives (source : Bytes) : Csp.render (scriptDirectives source) =
    kLivePolicyBeforeScriptSource ++ source ++ kLivePolicyAfterScriptSource := by
  have hbefore : kLivePolicyBeforeScriptSource =
      (styleDirectives.flatMap fun directive => directive.render ++ [Csp.semicolon, 0x20]) ++
        Csp.bytes "script-src" ++ [0x20] := by
    decide +kernel
  have hafter : kLivePolicyAfterScriptSource = Csp.semicolon :: 0x20 ::
      Csp.render (⟨Csp.bytes "connect-src", [Csp.bytes "'self'"]⟩ :: lockdown) := by
    decide +kernel
  rw [hbefore, hafter]
  simp [scriptDirectives, styleDirectives, lockdown, Csp.render, Csp.Directive.render]

theorem render_htmlDirectives :
    Csp.render (styleDirectives ++ lockdown) = kHtmlContentSecurityPolicy := by
  decide +kernel

theorem scriptSources_scriptDirectives (source : Bytes) :
    Csp.scriptSources (scriptDirectives source) = some [source] := rfl

theorem wellFormed_of_all {directives : List Csp.Directive}
    (h : directives.all Csp.Directive.isProper = true) :
    ∀ directive ∈ directives, directive.WellFormed := fun directive hdirective =>
  Csp.wellFormed_of_isProper (List.all_eq_true.1 h directive hdirective)

theorem parse_kHtmlContentSecurityPolicy :
    Csp.parse kHtmlContentSecurityPolicy = styleDirectives ++ lockdown := by
  rw [← render_htmlDirectives]
  exact Csp.parse_render (wellFormed_of_all (by decide +kernel))

theorem isWord_liveUpdateScriptCspSource : Csp.IsWord liveUpdateScriptCspSource := by
  rw [liveUpdateScriptCspSource, cspHashSourceOf_eq]
  exact Csp.isWord_hashSource _

theorem parse_liveContentSecurityPolicy :
    Csp.parse liveContentSecurityPolicy = scriptDirectives liveUpdateScriptCspSource := by
  rw [liveContentSecurityPolicy, ← render_scriptDirectives]
  refine Csp.parse_render fun directive hdirective => ?_
  obtain hstyle | hdirective := List.mem_append.1 hdirective
  · exact wellFormed_of_all (by decide +kernel) directive hstyle
  obtain rfl | hdirective := List.mem_cons.1 hdirective
  · have hscript : (⟨Csp.bytes "script-src", []⟩ : Csp.Directive).WellFormed :=
      Csp.wellFormed_of_isProper rfl
    exact ⟨hscript.name, hscript.lower, List.forall_mem_singleton.2 isWord_liveUpdateScriptCspSource⟩
  · exact wellFormed_of_all (by decide +kernel) directive hdirective

/-- The policy of the encoder allows no inline script. -/
theorem html_policy_allows (hash : Bytes → Bytes) (script : Bytes) :
    Csp.allowsInlineScript hash kHtmlContentSecurityPolicy script = false := by
  have hsources : Csp.scriptSources (styleDirectives ++ lockdown) = some [Csp.bytes "'self'"] := rfl
  simp only [Csp.allowsInlineScript, parse_kHtmlContentSecurityPolicy, hsources]
  rfl

/-- A source with a hash turns the inline scripts without that hash off. -/
theorem allowsAllInline_hashSource (digest : Bytes) :
    Csp.allowsAllInline [Csp.hashSource digest] = false := by
  have hhash : [Csp.hashSource digest].any Csp.isNonceOrHash = true := by
    rw [List.any_cons, Csp.isNonceOrHash_hashSource, Bool.true_or]
  rw [Csp.allowsAllInline, hhash, Bool.not_true, Bool.and_false]

/-- The policy of a live page allows the scripts with the hash of the live-update script. -/
theorem live_policy_allows_iff (script : Bytes) :
    Csp.allowsInlineScript Sha256.hash liveContentSecurityPolicy script = true ↔
      Sha256.hash script = Sha256.hash kLiveUpdateScriptText := by
  rw [Csp.allowsInlineScript, parse_liveContentSecurityPolicy, scriptSources_scriptDirectives,
    liveUpdateScriptCspSource, cspHashSourceOf_eq]
  simp only [allowsAllInline_hashSource, Bool.false_or, List.any_cons, List.any_nil, Bool.or_false]
  exact Csp.hasHash_hashSource_iff

/-! ### What is sent -/

theorem valuesNamed_policy (deflate : Deflate) (now : SystemTime) (request : Request Bytes)
    {response : Response} (options : ResponseEncodingOptions)
    (hhtml : (ascii "text/html").isPrefixOf response.contentType = true) :
    valuesNamed "Content-Security-Policy"
        (encodeResponse deflate now request response options).head =
      [(response.findHeader (ascii "Content-Security-Policy")).getD kHtmlContentSecurityPolicy] := by
  refine valuesNamed_of_lacks deflate now request response options (by decide) (by decide) ?_
  simp +decide only [addedFields, List.filter_append, filter_named_fieldIf, if_true, if_false,
    List.nil_append, List.append_nil, hhtml, Bool.true_and]

theorem findHeader_html (body name : Bytes) : (Response.html body).findHeader name =
    if equalsIgnoreCase (ascii "Content-Type") name then some (ascii "text/html; charset=utf-8")
    else none :=
  Response.findHeader_header (by decide) (by decide) name

theorem isValidFieldValue_encode (data : Bytes) : isValidFieldValue (Base64.encode data) = true := by
  have hchar : ∀ sextet < 64, isValidFieldValueByte (Base64.char sextet) = true := by decide
  refine List.all_eq_true.2 fun b hb => ?_
  obtain ⟨sextet, hlt, rfl⟩ | rfl := Base64.mem_encode hb
  · exact hchar sextet hlt
  · rfl

theorem isValidFieldValue_livePolicy : isValidFieldValue liveContentSecurityPolicy = true := by
  have hsource : isValidFieldValue liveUpdateScriptCspSource = true := by
    rw [liveUpdateScriptCspSource, cspHashSourceOf, base64OfDigest_eq]
    exact isValidFieldValue_append (isValidFieldValue_append rfl (isValidFieldValue_encode _)) rfl
  exact isValidFieldValue_append (isValidFieldValue_append (by decide +kernel) hsource)
    (by decide +kernel)

theorem findHeader_renderStatusPage (page : StatusPage) (liveUpdates : Bool) (name : Bytes) :
    (renderStatusPage liveUpdates page).findHeader name =
      if liveUpdates && equalsIgnoreCase (ascii "Content-Security-Policy") name then
        some liveContentSecurityPolicy
      else if equalsIgnoreCase (ascii "Content-Type") name then
        some (ascii "text/html; charset=utf-8")
      else none := by
  unfold renderStatusPage
  cases liveUpdates with
  | false => exact findHeader_html _ name
  | true =>
    rw [if_pos rfl, Response.findHeader_header (by decide) isValidFieldValue_livePolicy,
      findHeader_html]
    rfl

/-- **A status page is sent with one policy.  An inline script is allowed by it if the page is live
and the script has the hash of a script that a reader finds in the page.** -/
theorem status_page_policy (liveUpdates : Bool) (page : StatusPage) (deflate : Deflate)
    (now : SystemTime) (request : Request Bytes) (options : ResponseEncodingOptions) :
    ∃ policy, valuesNamed "Content-Security-Policy" (encodeResponse deflate now request
        (renderStatusPage liveUpdates page) options).head = [policy] ∧
      ∀ script, Csp.allowsInlineScript Sha256.hash policy script = true ↔
        liveUpdates = true ∧
          ∃ own ∈ Html.scripts (Html.run Html.start (renderStatusPage liveUpdates page).body).1,
            Sha256.hash script = Sha256.hash own := by
  have hhtml : (ascii "text/html").isPrefixOf (renderStatusPage liveUpdates page).contentType =
      true := by
    rw [Response.contentType, findHeader_renderStatusPage, if_neg (by simp +decide)]
    decide
  refine ⟨_, valuesNamed_policy deflate now request options hhtml, fun script => ?_⟩
  rw [findHeader_renderStatusPage]
  cases liveUpdates with
  | false => simp +decide [html_policy_allows]
  | true =>
    have hbody : (renderStatusPage true page).body = { page with liveUpdates := true }.render := rfl
    have hscripts : Html.scripts (Html.run Html.start (renderStatusPage true page).body).1 =
        [kLiveUpdateScriptText] := by
      rw [hbody, show Html.run Html.start _ = _ from StatusPage.reads_render _,
        StatusPage.scripts_tokens]
      rfl
    rw [hscripts, if_pos (by decide), Option.getD_some, live_policy_allows_iff]
    simp

end ErikslundHttp
