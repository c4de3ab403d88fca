import ErikslundHttp.Escape
import ErikslundHttp.Lib.Html
import ErikslundHttp.Response.Encoder

/-!
# Status pages

`StatusPage::render` (`status_page.cpp`) writes a page of literal markup with texts of the
application in it: the name and the version of the service, a headline, rows, sections and links.
Every text is escaped.

* `StatusPage.tokens` says what the page is: the tags, and the texts as they were given.
* `StatusPage.reads_render`: it is what a reader of HTML finds.
* `render_cannot_be_injected`: a text stays where it was put, and the tags are those of every page of
  the same shape.
-/

namespace ErikslundHttp

/-! ### The literals -/

/-- How every page begins. -/
def kDocumentPrologue : Bytes :=
  ascii "<!doctype html><html lang=\"en\"><head><meta charset=\"utf-8\">\n"

/-- An icon without a request for one. -/
def kInlineIconLink : Bytes := ascii "<link rel=\"icon\" href=\"data:,\">\n"

/-- The page is as wide as the device. -/
def kViewportMeta : Bytes :=
  ascii "<meta name=\"viewport\" content=\"width=device-width,initial-scale=1\">\n"

/-- What stands between the style sheet and the heading. -/
def kBodyOpening : Bytes := ascii "</style></head><body>\n"

/-- How every page ends. -/
def kDocumentEpilogue : Bytes := ascii "</body></html>\n"

/-- The element whose rows the script replaces. -/
def kLiveRowsElementId : Bytes := ascii "status-rows"

/-- The start tag before the script of a live page. -/
def kScriptElementOpening : Bytes := ascii "<script>"

/-- The end tag after it. -/
def kScriptElementClosing : Bytes := ascii "</script>\n"

/-- Lines of a literal. -/
def asciiLines (lines : List String) : Bytes := lines.flatMap fun line => ascii line ++ [LF]

/-- The script of a live page, which gets its rows from `/events`. -/
def kLiveUpdateScriptText : Bytes := asciiLines
  [ "",
    "(() => \x7b",
    "  const rows = document.getElementById(\"status-rows\");",
    "  if (!rows || !window.EventSource) return;",
    "  const source = new EventSource(\"/events\");",
    "  source.addEventListener(\"status\", event => \x7b",
    "    let updates;",
    "    try \x7b updates = JSON.parse(event.data); \x7d catch \x7b return; \x7d",
    "    if (!Array.isArray(updates)) return;",
    "    const nextRows = document.createDocumentFragment();",
    "    for (const update of updates) \x7b",
    "      if (!update || typeof update.label !== \"string\" ||",
    "          typeof update.value !== \"string\") return;",
    "      const row = document.createElement(\"tr\");",
    "      const label = document.createElement(\"td\");",
    "      const value = document.createElement(\"td\");",
    "      label.textContent = update.label;",
    "      value.textContent = update.value;",
    "      if ([\"ok\", \"warn\", \"bad\"].includes(update.state))",
    "        value.className = update.state;",
    "      row.append(label, value);",
    "      nextRows.append(row);",
    "    \x7d",
    "    rows.replaceChildren(nextRows);",
    "  \x7d);",
    "\x7d)();" ]

/-- The style sheet of every page. -/
def kStatusPageStyle : Bytes := asciiLines
  [ "body\x7bfont-family:system-ui,sans-serif;margin:2rem auto;max-width:46rem;color:#222\x7d",
    "h1\x7bfont-size:1.4rem;margin-bottom:.2rem\x7d small\x7bcolor:#888;font-weight:400\x7d",
    "table\x7bborder-collapse:collapse;width:100%;margin-top:1rem\x7d",
    "td\x7bpadding:.3rem .8rem;border-bottom:1px solid #e5e5e5;vertical-align:top\x7d",
    "td:first-child\x7bcolor:#777;width:14rem\x7d .ok\x7bcolor:#0a7d28\x7d " ++
      ".bad\x7bcolor:#c0392b\x7d" ] ++
  ascii ".warn\x7bcolor:#b8860b\x7d a\x7bcolor:#2563eb;text-decoration:none\x7d"

/-- What a link is put in whose address is not allowed. -/
def kRefusedLinkOpening : Bytes := ascii "<span class=\"bad\">"

/-- The end of it. -/
def kRefusedLinkClosing : Bytes := ascii "</span>"

/-! ### Links -/

/-- One of the two schemes that a link may have. -/
def kHttpSchemePrefix : Bytes := ascii "http://"

/-- The other one. -/
def kHttpsSchemePrefix : Bytes := ascii "https://"

/-- No blank and no control character. -/
def hasOnlyUrlBytes (href : Bytes) : Bool := href.all fun b => !(b ≤ space || b == 0x7F)

/-- Behind the scheme there is a host. -/
def hasAuthorityAfter (href scheme : Bytes) : Bool :=
  let authority := href.drop scheme.length
  !authority.isEmpty && authority.head? != some (byte '/')

/-- A link goes to `http`, `https` or a path of this server. -/
def isAllowedLinkHref (href : Bytes) : Bool :=
  if href.isEmpty || !hasOnlyUrlBytes href then false
  else if href.contains (byte '\\') then false
  else if startsWithIgnoreCase href kHttpSchemePrefix then hasAuthorityAfter href kHttpSchemePrefix
  else if startsWithIgnoreCase href kHttpsSchemePrefix then
    hasAuthorityAfter href kHttpsSchemePrefix
  else if href.head? != some (byte '/') then false
  else href.length == 1 || href[1]? != some (byte '/')

/-! ### The page -/

namespace StatusPage

/-- How well a service, or one of its values, is. -/
inductive State where
  | ok
  | warn
  | bad
  deriving DecidableEq

/-- `state_class`. -/
def State.stateClass : State → Bytes
  | .ok => ascii "ok"
  | .warn => ascii "warn"
  | .bad => ascii "bad"

/-- Whether an element is a value or the heading of a section. -/
inductive ElementKind where
  | row
  | sectionHeading
  deriving DecidableEq

/-- A line of the table. -/
structure Element where
  kind : ElementKind := .row
  /-- What the row is about, or the title of a section. -/
  label : Bytes
  value : Bytes
  /-- How the value is coloured. -/
  level : State := .ok
  /-- The value is coloured by its level. -/
  showLevelColor : Bool := false
  deriving DecidableEq

/-- A link below the table. -/
structure Link where
  /-- Shown only if it is allowed. -/
  href : Bytes
  text : Bytes

end StatusPage

/-- The members of `StatusPage`. -/
structure StatusPage where
  serviceName : Bytes
  version : Bytes
  /-- Left out if it is empty. -/
  stateHeadline : Bytes := []
  stateLevel : StatusPage.State := .ok
  elements : List StatusPage.Element := []
  links : List StatusPage.Link := []
  /-- Left out if it is zero. -/
  processId : ℤ := 0
  /-- After this time the page loads itself again. -/
  refreshSeconds : ℤ := 5
  /-- The page has the script that fetches new values. -/
  liveUpdates : Bool := false

namespace StatusPage

/-! ### Rendering -/

/-- The row of an element. -/
def Element.render (element : Element) : Bytes :=
  match element.kind with
  | .sectionHeading =>
    ascii "  <tr><td colspan=\"2\"><strong>" ++ htmlEscape element.label ++
      ascii "</strong></td></tr>\n"
  | .row =>
    ascii "  <tr><td>" ++ htmlEscape element.label ++ ascii "</td><td" ++
      (if element.showLevelColor then
        ascii " class=\"" ++ element.level.stateClass ++ ascii "\""
      else []) ++
      ascii ">" ++ htmlEscape element.value ++ ascii "</td></tr>\n"

/-- An anchor, or what stands for one that is refused. -/
def Link.render (entry : Link) : Bytes :=
  if !isAllowedLinkHref entry.href then
    kRefusedLinkOpening ++ htmlEscape entry.text ++ kRefusedLinkClosing
  else
    ascii "<a href=\"" ++ htmlEscape entry.href ++ ascii "\">" ++ htmlEscape entry.text ++
      ascii "</a>"

/-- The links, with a bar before each but the first. -/
def renderLinks : List Link → Bytes
  | [] => []
  | entry :: links =>
    ascii "<p>" ++ entry.render ++ links.flatMap (fun entry => ascii " | " ++ entry.render) ++
      ascii "</p>\n"

variable (page : StatusPage)

/-- A page that refreshes itself says so; a live one only to browsers without scripts. -/
def renderRefresh : Bytes :=
  if 0 < page.refreshSeconds then
    let refreshMeta := ascii "<meta http-equiv=\"refresh\" content=\"" ++
      signedChars page.refreshSeconds ++ ascii "\">"
    (if page.liveUpdates then ascii "<noscript>" ++ refreshMeta ++ ascii "</noscript>"
      else refreshMeta) ++ ascii "\n"
  else []

/-- From the title to the opening of the body, with the style sheet between them. -/
def renderTitle : Bytes :=
  ascii "<title>" ++ htmlEscape page.serviceName ++ ascii " v" ++ htmlEscape page.version ++
    ascii "</title>\n<style>\n" ++ kStatusPageStyle ++ ascii "\n" ++ kBodyOpening

/-- The name, the version and the process. -/
def renderHeading : Bytes :=
  ascii "<h1>" ++ htmlEscape page.serviceName ++ ascii " <small>v" ++ htmlEscape page.version ++
    (if page.processId ≠ 0 then ascii " | pid " ++ signedChars page.processId else []) ++
    ascii "</small></h1>\n"

/-- The headline, if there is one. -/
def renderState : Bytes :=
  if !page.stateHeadline.isEmpty then
    ascii "<p class=\"" ++ page.stateLevel.stateClass ++ ascii "\"><strong>" ++
      htmlEscape page.stateHeadline ++ ascii "</strong></p>\n"
  else []

/-- The table with the rows of all elements. -/
def renderTable : Bytes :=
  ascii "<table>\n" ++
    (if page.liveUpdates then ascii "<tbody id=\"" ++ kLiveRowsElementId ++ ascii "\">\n" else []) ++
    page.elements.flatMap Element.render ++
    (if page.liveUpdates then ascii "</tbody>\n" else []) ++ ascii "</table>\n"

/-- The script of a live page. -/
def renderScript : Bytes :=
  if page.liveUpdates then kScriptElementOpening ++ kLiveUpdateScriptText ++ kScriptElementClosing
  else []

/-- `StatusPage::render`. -/
def render : Bytes :=
  kDocumentPrologue ++ kInlineIconLink ++ page.renderRefresh ++ kViewportMeta ++ page.renderTitle ++
    page.renderHeading ++ page.renderState ++ page.renderTable ++ renderLinks page.links ++
    page.renderScript ++ kDocumentEpilogue

/-! ### What a page is -/

open Html (Token Reads)

/-- The characters of a text. -/
def chars (text : Bytes) : List Token := text.map .character

/-- The token of a start tag. -/
def openTag (name : String) (attributes : List (String × Bytes) := []) : List Token :=
  [.tag ⟨false, ascii name, attributes.map fun (name, value) => (ascii name, value)⟩]

/-- The token of an end tag. -/
def closeTag (name : String) : List Token := [.tag ⟨true, ascii name, []⟩]

/-- What a browser should read of an element. -/
def Element.tokens (element : Element) : List Token :=
  match element.kind with
  | .sectionHeading =>
    chars (ascii "  ") ++ openTag "tr" ++ openTag "td" [("colspan", ascii "2")] ++
      openTag "strong" ++ chars element.label ++ closeTag "strong" ++ closeTag "td" ++
      closeTag "tr" ++ chars (ascii "\n")
  | .row =>
    chars (ascii "  ") ++ openTag "tr" ++ openTag "td" ++ chars element.label ++ closeTag "td" ++
      openTag "td" (if element.showLevelColor then [("class", element.level.stateClass)] else []) ++
      chars element.value ++ closeTag "td" ++ closeTag "tr" ++ chars (ascii "\n")

/-- What it should read of a link. -/
def Link.tokens (entry : Link) : List Token :=
  if isAllowedLinkHref entry.href then
    openTag "a" [("href", entry.href)] ++ chars entry.text ++ closeTag "a"
  else openTag "span" [("class", ascii "bad")] ++ chars entry.text ++ closeTag "span"

/-- What it should read of the paragraph of links. -/
def linksTokens : List Link → List Token
  | [] => []
  | entry :: links =>
    openTag "p" ++ entry.tokens ++ links.flatMap (fun entry => chars (ascii " | ") ++ entry.tokens) ++
      closeTag "p" ++ chars (ascii "\n")

/-- What it should read of the beginning. -/
def prologueTokens : List Token :=
  [.declaration (ascii "doctype html")] ++ openTag "html" [("lang", ascii "en")] ++ openTag "head" ++
    openTag "meta" [("charset", ascii "utf-8")] ++ chars (ascii "\n") ++
    openTag "link" [("rel", ascii "icon"), ("href", ascii "data:,")] ++ chars (ascii "\n")

/-- What it should read of the refresh. -/
def refreshTokens : List Token :=
  if 0 < page.refreshSeconds then
    let refreshMeta := openTag "meta"
      [("http-equiv", ascii "refresh"), ("content", signedChars page.refreshSeconds)]
    (if page.liveUpdates then openTag "noscript" ++ refreshMeta ++ closeTag "noscript"
      else refreshMeta) ++ chars (ascii "\n")
  else []

/-- What it should read from the viewport to the opening of the body. -/
def titleTokens : List Token :=
  openTag "meta" [("name", ascii "viewport"),
      ("content", ascii "width=device-width,initial-scale=1")] ++ chars (ascii "\n") ++
    openTag "title" ++ chars page.serviceName ++ chars (ascii " v") ++ chars page.version ++
    closeTag "title" ++ chars (ascii "\n") ++ openTag "style" ++
    chars (ascii "\n" ++ kStatusPageStyle ++ ascii "\n") ++ closeTag "style" ++ closeTag "head" ++
    openTag "body" ++ chars (ascii "\n")

/-- What it should read of the heading. -/
def headingTokens : List Token :=
  openTag "h1" ++ chars page.serviceName ++ chars (ascii " ") ++ openTag "small" ++
    chars (ascii "v") ++ chars page.version ++
    chars (if page.processId ≠ 0 then ascii " | pid " ++ signedChars page.processId else []) ++
    closeTag "small" ++ closeTag "h1" ++ chars (ascii "\n")

/-- What it should read of the headline. -/
def stateTokens : List Token :=
  if !page.stateHeadline.isEmpty then
    openTag "p" [("class", page.stateLevel.stateClass)] ++ openTag "strong" ++
      chars page.stateHeadline ++ closeTag "strong" ++ closeTag "p" ++ chars (ascii "\n")
  else []

/-- What it should read of the table. -/
def tableTokens : List Token :=
  openTag "table" ++ chars (ascii "\n") ++
    (if page.liveUpdates then openTag "tbody" [("id", kLiveRowsElementId)] ++ chars (ascii "\n")
      else []) ++
    page.elements.flatMap Element.tokens ++
    (if page.liveUpdates then closeTag "tbody" ++ chars (ascii "\n") else []) ++
    closeTag "table" ++ chars (ascii "\n")

/-- What it should read of the script: one text between two tags. -/
def scriptTokens : List Token :=
  if page.liveUpdates then
    openTag "script" ++ chars kLiveUpdateScriptText ++ closeTag "script" ++ chars (ascii "\n")
  else []

/-- The page as a reader of HTML finds it. -/
def tokens : List Token :=
  prologueTokens ++ page.refreshTokens ++ page.titleTokens ++ page.headingTokens ++
    page.stateTokens ++ page.tableTokens ++ linksTokens page.links ++ page.scriptTokens ++
    (closeTag "body" ++ closeTag "html" ++ chars (ascii "\n"))

/-! ### Escaped texts -/

theorem escapes_escapeHtmlByte : Html.Escapes escapeHtmlByte := by
  intro b place hplace
  unfold escapeHtmlByte
  split_ifs with hamp hlt hgt hquot hapos
  · obtain rfl | ⟨element, rfl⟩ | ⟨tag, name, value, rfl⟩ := hplace <;> rw [hamp] <;> rfl
  · obtain rfl | ⟨element, rfl⟩ | ⟨tag, name, value, rfl⟩ := hplace <;> rw [hlt] <;> rfl
  · obtain rfl | ⟨element, rfl⟩ | ⟨tag, name, value, rfl⟩ := hplace <;> rw [hgt] <;> rfl
  · obtain rfl | ⟨element, rfl⟩ | ⟨tag, name, value, rfl⟩ := hplace <;> rw [hquot] <;> rfl
  · obtain rfl | ⟨element, rfl⟩ | ⟨tag, name, value, rfl⟩ := hplace <;> rw [hapos] <;> rfl
  · exact Html.reads_plain hamp hlt hquot hplace

theorem reads_htmlEscape (text : Bytes) :
    Reads Html.start (htmlEscape text) (chars text) Html.start :=
  escapes_escapeHtmlByte.reads text (.inl rfl)

theorem reads_htmlEscape_title (text : Bytes) :
    Reads (.inside (.title (ascii "title"))) (htmlEscape text) (chars text)
      (.inside (.title (ascii "title"))) :=
  escapes_escapeHtmlByte.reads text (.inr (.inl ⟨_, rfl⟩))

/-! ### The parts of the page -/

/-- The style and the script hold no `<`, so that they end where the page ends them. -/
theorem notMem_kStatusPageStyle : 0x3C ∉ kStatusPageStyle := by
  simp only [kStatusPageStyle, asciiLines, List.flatMap_cons, List.flatMap_nil, List.mem_append,
    not_or, String.reduceAppend]
  and_intros
  all_goals first | rw [ascii_ofList]; decide | decide

theorem notMem_kLiveUpdateScriptText : 0x3C ∉ kLiveUpdateScriptText := by
  simp only [kLiveUpdateScriptText, asciiLines, List.flatMap_cons, List.flatMap_nil,
    List.mem_append, not_or]
  and_intros
  all_goals first | rw [ascii_ofList]; decide | decide

theorem reads_element (element : Element) :
    Reads Html.start element.render element.tokens Html.start := by
  have hlabel := reads_htmlEscape element.label
  unfold Element.render Element.tokens
  cases element.kind with
  | sectionHeading =>
    have hbefore : Reads Html.start (ascii "  <tr><td colspan=\"2\"><strong>")
        (chars (ascii "  ") ++ openTag "tr" ++ openTag "td" [("colspan", ascii "2")] ++
          openTag "strong") Html.start := rfl
    have hafter : Reads Html.start (ascii "</strong></td></tr>\n")
        (closeTag "strong" ++ closeTag "td" ++ closeTag "tr" ++ chars (ascii "\n"))
        Html.start := rfl
    simpa using (hbefore.append hlabel).append hafter
  | row =>
    have hbefore : Reads Html.start (ascii "  <tr><td>")
        (chars (ascii "  ") ++ openTag "tr" ++ openTag "td") Html.start := rfl
    have hcolor : Reads Html.start
        (ascii "</td><td" ++ (if element.showLevelColor then
          ascii " class=\"" ++ element.level.stateClass ++ ascii "\"" else []) ++ ascii ">")
        (closeTag "td" ++ openTag "td" (if element.showLevelColor then
          [("class", element.level.stateClass)] else [])) Html.start := by
      cases element.showLevelColor <;> cases element.level <;> rfl
    have hvalue := reads_htmlEscape element.value
    have hafter : Reads Html.start (ascii "</td></tr>\n")
        (closeTag "td" ++ closeTag "tr" ++ chars (ascii "\n")) Html.start := rfl
    simpa using (((hbefore.append hlabel).append hcolor).append hvalue).append hafter

theorem reads_link (entry : Link) : Reads Html.start entry.render entry.tokens Html.start := by
  have htext := reads_htmlEscape entry.text
  unfold Link.render Link.tokens
  cases isAllowedLinkHref entry.href with
  | false =>
    have hbefore : Reads Html.start kRefusedLinkOpening
        (openTag "span" [("class", ascii "bad")]) Html.start := rfl
    have hafter : Reads Html.start kRefusedLinkClosing (closeTag "span") Html.start := rfl
    simpa using (hbefore.append htext).append hafter
  | true =>
    have hbefore : Reads Html.start (ascii "<a href=\"") []
        (.inside (.quoted (byte '"') ⟨false, ascii "a", []⟩ (ascii "href") [])) := rfl
    have hhref := escapes_escapeHtmlByte.reads entry.href (.inr (.inr ⟨_, _, _, rfl⟩) :
      Html.Place.IsEscapable (.quoted (byte '"') ⟨false, ascii "a", []⟩ (ascii "href") []))
    have hclose : Reads (.inside (.quoted (byte '"') ⟨false, ascii "a", []⟩ (ascii "href")
        entry.href)) (ascii "\">") (openTag "a" [("href", entry.href)]) Html.start := rfl
    have hafter : Reads Html.start (ascii "</a>") (closeTag "a") Html.start := rfl
    simpa [htmlEscape, Html.Place.put] using
      (((hbefore.append hhref).append hclose).append htext).append hafter

theorem reads_links (links : List Link) :
    Reads Html.start (renderLinks links) (linksTokens links) Html.start := by
  cases links with
  | nil => exact Html.reads_nil _
  | cons entry links =>
    have hbefore : Reads Html.start (ascii "<p>") (openTag "p") Html.start := rfl
    have hbar : Reads Html.start (ascii " | ") (chars (ascii " | ")) Html.start := rfl
    have hafter : Reads Html.start (ascii "</p>\n") (closeTag "p" ++ chars (ascii "\n"))
        Html.start := rfl
    have hrest := Reads.flatMap fun entry (_ : entry ∈ links) => hbar.append (reads_link entry)
    simpa [renderLinks, linksTokens] using
      ((hbefore.append (reads_link entry)).append hrest).append hafter

/-- A number is a text without markup. -/
theorem reads_signedChars (value : ℤ) {place : Html.Place} (h : place.IsEscapable) :
    Reads (.inside place) (signedChars value) (place.put (signedChars value)).1
      (.inside (place.put (signedChars value)).2) := by
  have hdigit : ∀ b, isDecimalDigit b = true → b ≠ 0x26 ∧ b ≠ 0x3C ∧ b ≠ 0x22 := by
    refine fun b hb => ⟨?_, ?_, ?_⟩ <;> rintro rfl <;> cases hb
  have hnumeral : ∀ n, ∀ b ∈ toChars n, b ≠ 0x26 ∧ b ≠ 0x3C ∧ b ≠ 0x22 := fun n b hb =>
    hdigit b (isDecimalDigit_of_mem_toChars hb)
  refine Html.reads_text ?_ h
  unfold signedChars
  split_ifs
  · exact List.forall_mem_cons.2 ⟨by decide, hnumeral _⟩
  · exact hnumeral _

theorem reads_refresh : Reads Html.start page.renderRefresh page.refreshTokens Html.start := by
  have hbefore : Reads Html.start (ascii "<meta http-equiv=\"refresh\" content=\"") []
      (.inside (.quoted (byte '"') ⟨false, ascii "meta", [(ascii "http-equiv", ascii "refresh")]⟩
        (ascii "content") [])) := rfl
  have hseconds := reads_signedChars page.refreshSeconds (.inr (.inr ⟨_, _, _, rfl⟩) :
    Html.Place.IsEscapable (.quoted (byte '"')
      ⟨false, ascii "meta", [(ascii "http-equiv", ascii "refresh")]⟩ (ascii "content") []))
  have hclose : Reads (.inside (.quoted (byte '"')
      ⟨false, ascii "meta", [(ascii "http-equiv", ascii "refresh")]⟩ (ascii "content")
      (signedChars page.refreshSeconds))) (ascii "\">")
      (openTag "meta" [("http-equiv", ascii "refresh"),
        ("content", signedChars page.refreshSeconds)]) Html.start := rfl
  have hmeta := (hbefore.append hseconds).append hclose
  have hline : Reads Html.start (ascii "\n") (chars (ascii "\n")) Html.start := rfl
  unfold renderRefresh refreshTokens
  split_ifs with hrefresh hlive
  · have hopen : Reads Html.start (ascii "<noscript>") (openTag "noscript") Html.start := rfl
    have hend : Reads Html.start (ascii "</noscript>") (closeTag "noscript") Html.start := rfl
    simpa [Html.Place.put] using ((hopen.append hmeta).append hend).append hline
  · simpa [Html.Place.put] using hmeta.append hline
  · exact Html.reads_nil _

theorem reads_title : Reads Html.start (kViewportMeta ++ page.renderTitle) page.titleTokens
    Html.start := by
  have hbefore : Reads Html.start (kViewportMeta ++ ascii "<title>")
      (openTag "meta" [("name", ascii "viewport"),
        ("content", ascii "width=device-width,initial-scale=1")] ++ chars (ascii "\n") ++
        openTag "title") (.inside (.title (ascii "title"))) := by
    rw [kViewportMeta, ascii_ofList]
    decide +kernel
  have hname := reads_htmlEscape_title page.serviceName
  have hbetween : Reads (.inside (.title (ascii "title"))) (ascii " v") (chars (ascii " v"))
      (.inside (.title (ascii "title"))) := rfl
  have hversion := reads_htmlEscape_title page.version
  have hclose : Reads (.inside (.title (ascii "title"))) (ascii "</title>\n<style>\n")
      (closeTag "title" ++ chars (ascii "\n") ++ openTag "style" ++ chars (ascii "\n"))
      (.inside (.raw (ascii "style"))) := rfl
  have hstyle := Html.reads_raw notMem_kStatusPageStyle (ascii "style")
  have hafter : Reads (.inside (.raw (ascii "style"))) (ascii "\n" ++ kBodyOpening)
      (chars (ascii "\n") ++ closeTag "style" ++ closeTag "head" ++ openTag "body" ++
        chars (ascii "\n")) Html.start := rfl
  simpa [renderTitle, titleTokens, chars] using
    (((((hbefore.append hname).append hbetween).append hversion).append hclose).append
      hstyle).append hafter

theorem reads_heading : Reads Html.start page.renderHeading page.headingTokens Html.start := by
  have hname := reads_htmlEscape page.serviceName
  have hversion := reads_htmlEscape page.version
  have hbefore : Reads Html.start (ascii "<h1>") (openTag "h1") Html.start := rfl
  have hsmall : Reads Html.start (ascii " <small>v")
      (chars (ascii " ") ++ openTag "small" ++ chars (ascii "v")) Html.start := rfl
  have hpid : Reads Html.start
      (if page.processId ≠ 0 then ascii " | pid " ++ signedChars page.processId else [])
      (chars (if page.processId ≠ 0 then ascii " | pid " ++ signedChars page.processId else []))
      Html.start := by
    split_ifs
    · have hlabel : Reads Html.start (ascii " | pid ") (chars (ascii " | pid ")) Html.start := rfl
      have hnumber := reads_signedChars page.processId (.inl rfl)
      simpa [chars, Html.Place.put, Html.start] using hlabel.append hnumber
    · exact Html.reads_nil _
  have hafter : Reads Html.start (ascii "</small></h1>\n")
      (closeTag "small" ++ closeTag "h1" ++ chars (ascii "\n")) Html.start := rfl
  simpa [renderHeading, headingTokens] using
    ((((hbefore.append hname).append hsmall).append hversion).append hpid).append hafter

theorem reads_state : Reads Html.start page.renderState page.stateTokens Html.start := by
  unfold renderState stateTokens
  split_ifs with hheadline
  · have hbefore : Reads Html.start
        (ascii "<p class=\"" ++ page.stateLevel.stateClass ++ ascii "\"><strong>")
        (openTag "p" [("class", page.stateLevel.stateClass)] ++ openTag "strong") Html.start := by
      cases page.stateLevel <;> rfl
    have hafter : Reads Html.start (ascii "</strong></p>\n")
        (closeTag "strong" ++ closeTag "p" ++ chars (ascii "\n")) Html.start := rfl
    simpa using (hbefore.append (reads_htmlEscape page.stateHeadline)).append hafter
  · exact Html.reads_nil _

theorem reads_table : Reads Html.start page.renderTable page.tableTokens Html.start := by
  have hbefore : Reads Html.start (ascii "<table>\n" ++
      (if page.liveUpdates then ascii "<tbody id=\"" ++ kLiveRowsElementId ++ ascii "\">\n" else []))
      (openTag "table" ++ chars (ascii "\n") ++ (if page.liveUpdates then
        openTag "tbody" [("id", kLiveRowsElementId)] ++ chars (ascii "\n") else []))
      Html.start := by
    cases page.liveUpdates <;> rfl
  have hafter : Reads Html.start
      ((if page.liveUpdates then ascii "</tbody>\n" else []) ++ ascii "</table>\n")
      ((if page.liveUpdates then closeTag "tbody" ++ chars (ascii "\n") else []) ++
        closeTag "table" ++ chars (ascii "\n")) Html.start := by
    cases page.liveUpdates <;> rfl
  have helements := Reads.flatMap fun element (_ : element ∈ page.elements) => reads_element element
  simpa [renderTable, tableTokens] using (hbefore.append helements).append hafter

theorem reads_script : Reads Html.start page.renderScript page.scriptTokens Html.start := by
  unfold renderScript scriptTokens
  split_ifs
  · have hbefore : Reads Html.start kScriptElementOpening (openTag "script")
        (.inside (.raw (ascii "script"))) := rfl
    have hscript := Html.reads_raw notMem_kLiveUpdateScriptText (ascii "script")
    have hafter : Reads (.inside (.raw (ascii "script"))) kScriptElementClosing
        (closeTag "script" ++ chars (ascii "\n")) Html.start := rfl
    simpa [chars] using (hbefore.append hscript).append hafter
  · exact Html.reads_nil _

/-- The page is read as what it is. -/
theorem reads_render : Reads Html.start page.render page.tokens Html.start := by
  have hprologue : Reads Html.start (kDocumentPrologue ++ kInlineIconLink) prologueTokens
      Html.start := by
    rw [kDocumentPrologue, kInlineIconLink, ascii_ofList, ascii_ofList]
    decide +kernel
  have hepilogue : Reads Html.start kDocumentEpilogue
      (closeTag "body" ++ closeTag "html" ++ chars (ascii "\n")) Html.start := rfl
  have hpage := (((((((hprologue.append page.reads_refresh).append page.reads_title).append
    page.reads_heading).append page.reads_state).append page.reads_table).append
    (reads_links page.links)).append page.reads_script).append hepilogue
  simpa only [render, tokens, List.append_assoc] using hpage

/-! ### Pages of one shape -/

/-- The value of the attribute is a text of the application. -/
def isSlot (element name : Bytes) : Bool := element == ascii "a" && name == ascii "href"

/-- The tags of the page, without the texts in it. -/
def tags (tokens : List Token) : List Token := Html.skeleton isSlot tokens

/-- An element without its texts. -/
def Element.shape (element : Element) : Element := { element with label := [], value := [] }

/-- The pages differ in their texts only. -/
structure SameShape (page page' : StatusPage) : Prop where
  elements : page.elements.map Element.shape = page'.elements.map Element.shape
  /-- The same of them are shown. -/
  links : page.links.map (fun entry => isAllowedLinkHref entry.href) =
    page'.links.map fun entry => isAllowedLinkHref entry.href
  /-- Both have one, or neither. -/
  headline : page.stateHeadline.isEmpty = page'.stateHeadline.isEmpty
  stateLevel : page.stateLevel = page'.stateLevel
  processId : page.processId = page'.processId
  refreshSeconds : page.refreshSeconds = page'.refreshSeconds
  liveUpdates : page.liveUpdates = page'.liveUpdates

@[simp] theorem tags_append (tokens tokens' : List Token) :
    tags (tokens ++ tokens') = tags tokens ++ tags tokens' := Html.skeleton_append tokens tokens'

@[simp] theorem tags_chars (text : Bytes) : tags (chars text) = [] := Html.skeleton_characters text

theorem tags_flatMap {α : Type*} (items : List α) (tokens : α → List Token) :
    tags (items.flatMap tokens) = items.flatMap fun item => tags (tokens item) :=
  Html.skeleton_flatMap items tokens

theorem tags_element (element : Element) : tags element.tokens = tags element.shape.tokens := by
  obtain ⟨kind, label, value, level, showLevelColor⟩ := element
  cases kind with
  | row =>
    simp only [Element.tokens, Element.shape, tags_append, tags_chars]
    rfl
  | sectionHeading => simp only [Element.tokens, Element.shape, tags_append, tags_chars]

/-- The tags of a link, given whether it is one. -/
def linkTags (allowed : Bool) : List Token :=
  if allowed then tags (openTag "a" [("href", [])]) ++ tags (closeTag "a")
  else tags (openTag "span" [("class", ascii "bad")]) ++ tags (closeTag "span")

theorem tags_link (entry : Link) : tags entry.tokens = linkTags (isAllowedLinkHref entry.href) := by
  unfold Link.tokens linkTags
  split_ifs
  · rw [tags_append, tags_append, tags_chars, List.append_nil]
    rfl
  · rw [tags_append, tags_append, tags_chars, List.append_nil]

theorem tags_elements {elements elements' : List Element}
    (h : elements.map Element.shape = elements'.map Element.shape) :
    tags (elements.flatMap Element.tokens) = tags (elements'.flatMap Element.tokens) := by
  have hshape : ∀ elements : List Element, tags (elements.flatMap Element.tokens) =
      (elements.map Element.shape).flatMap fun element => tags element.tokens := by
    intro elements
    rw [tags_flatMap, List.flatMap_map]
    exact List.flatMap_congr fun element _ => tags_element element
  rw [hshape, hshape, h]

theorem tags_links {links links' : List Link}
    (h : links.map (fun entry => isAllowedLinkHref entry.href) =
      links'.map fun entry => isAllowedLinkHref entry.href) :
    tags (linksTokens links) = tags (linksTokens links') := by
  have hrest : ∀ links : List Link,
      tags (links.flatMap fun entry => chars (ascii " | ") ++ entry.tokens) =
        (links.map fun entry => isAllowedLinkHref entry.href).flatMap linkTags := by
    intro links
    rw [tags_flatMap, List.flatMap_map]
    exact List.flatMap_congr fun entry _ => by rw [tags_append, tags_chars, tags_link]; rfl
  cases links with
  | nil =>
    cases links' with
    | nil => rfl
    | cons entry' links' => cases h
  | cons entry links =>
    cases links' with
    | nil => cases h
    | cons entry' links' =>
      obtain ⟨hentry, hlinks⟩ := List.cons.inj h
      simp only [linksTokens, tags_append, tags_link, hrest, hentry, hlinks]

theorem tags_state {page page' : StatusPage} (h : page.SameShape page') :
    tags page.stateTokens = tags page'.stateTokens := by
  unfold stateTokens
  rw [h.headline, h.stateLevel]
  cases page'.stateHeadline.isEmpty <;> simp

theorem tags_tokens {page page' : StatusPage} (h : page.SameShape page') :
    tags page.tokens = tags page'.tokens := by
  have hrefresh : page.refreshTokens = page'.refreshTokens := by
    rw [refreshTokens, refreshTokens, h.refreshSeconds, h.liveUpdates]
  have hscript : page.scriptTokens = page'.scriptTokens := by
    rw [scriptTokens, scriptTokens, h.liveUpdates]
  have htitle : tags page.titleTokens = tags page'.titleTokens := by simp [titleTokens]
  have hheading : tags page.headingTokens = tags page'.headingTokens := by simp [headingTokens]
  have htable : tags page.tableTokens = tags page'.tableTokens := by
    simp only [tableTokens, tags_append, h.liveUpdates, tags_elements h.elements]
  simp only [tokens, tags_append, hrefresh, hscript, htitle, hheading, htable, tags_state h,
    tags_links h.links]

/-- **No text of the application can get out of its place.**  The page is read as the tags and the
texts of `tokens`; the tags of two pages of one shape are the same, whatever the texts are; and what
is written of a text is read as that text. -/
theorem render_cannot_be_injected {page page' : StatusPage} (h : page.SameShape page') :
    Html.run Html.start page.render = (page.tokens, Html.start) ∧
    tags (Html.run Html.start page.render).1 = tags (Html.run Html.start page'.render).1 ∧
    ∀ text, Html.run Html.start (htmlEscape text) = (chars text, Html.start) := by
  have hpage : Html.run Html.start page.render = (page.tokens, Html.start) := page.reads_render
  have hpage' : Html.run Html.start page'.render = (page'.tokens, Html.start) := page'.reads_render
  refine ⟨hpage, ?_, reads_htmlEscape⟩
  rw [hpage, hpage']
  exact tags_tokens h

/-- A page with a row and a link. -/
def plainPage : StatusPage where
  serviceName := ascii "shop"
  version := ascii "1"
  elements := [⟨.row, ascii "orders", ascii "7", .ok, true⟩]
  links := [⟨ascii "/metrics", ascii "metrics"⟩]

/-- The same page with markup for every text. -/
def markupPage : StatusPage where
  serviceName := ascii "</title><script>alert(1)</script>"
  version := ascii "&amp;\"'"
  elements := [⟨.row, ascii "<b>", ascii "</td><td class=\"bad\">", .ok, true⟩]
  links := [⟨ascii "/\"onclick=\"alert(1)", ascii "</a><a href=/>"⟩]

theorem markup_is_text :
    markupPage.links.map Link.tokens =
        [[.tag ⟨false, ascii "a", [(ascii "href", ascii "/\"onclick=\"alert(1)")]⟩] ++
          chars (ascii "</a><a href=/>") ++ [.tag ⟨true, ascii "a", []⟩]] ∧
      Html.run Html.start markupPage.render = (markupPage.tokens, Html.start) ∧
      tags (Html.run Html.start markupPage.render).1 =
        tags (Html.run Html.start plainPage.render).1 := by
  have hshape : markupPage.SameShape plainPage :=
    ⟨by decide +kernel, by decide +kernel, rfl, rfl, rfl, rfl, rfl⟩
  obtain ⟨hread, htags, -⟩ := render_cannot_be_injected hshape
  exact ⟨by decide +kernel, hread, htags⟩

end StatusPage

end ErikslundHttp
