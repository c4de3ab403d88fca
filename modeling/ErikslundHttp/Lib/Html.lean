import Mathlib.Data.List.Basic

/-!
# Reading HTML

A tokenizer for HTML, byte by byte (`step`, `run`): characters, tags with their attributes, and
declarations.  References are decoded in texts, in titles and in attribute values; a style and a
script are text up to their end tag.  What a page makes a browser build is in its tokens, and so a
text that is put into a page stays a text if all that comes of it is characters (`Reads`).

The reader knows the references `&amp;`, `&lt;`, `&gt;`, `&quot;`, `&apos;` and the decimal ones, and
leaves every other `&` as it is.  It does not know that a script may hold a comment, and it reads a
`noscript` as an element.
-/

namespace ErikslundHttp

namespace Html

/-! ### Tokens -/

/-- The bytes of an ASCII literal. -/
def bytes (s : String) : List UInt8 := s.toList.map Char.toUInt8

/-- A tag: a name and attributes, or an end tag. -/
structure Tag where
  /-- It begins with `</`. -/
  closing : Bool
  name : List UInt8
  /-- Names and values, in their order. -/
  attributes : List (List UInt8 × List UInt8) := []
  deriving DecidableEq

/-- What the tokenizer of the standard emits. -/
inductive Token where
  | character (b : UInt8)
  | tag (tag : Tag)
  | declaration (text : List UInt8)
  deriving DecidableEq

/-- Where characters are read: between tags, in an element up to its end tag with references or
without, or in the value of an attribute. -/
inductive Place where
  | data
  | title (element : List UInt8)
  | raw (element : List UInt8)
  | quoted (quote : UInt8) (tag : Tag) (name value : List UInt8)
  | unquoted (tag : Tag) (name value : List UInt8)
  deriving DecidableEq

/-- Where the tokenizer is. -/
inductive State where
  | inside (place : Place)
  | reference (place : Place) (spelled : List UInt8)
  | opened
  | closed
  | declaration (text : List UInt8)
  | tagName (tag : Tag)
  | beforeName (tag : Tag)
  | attributeName (tag : Tag) (name : List UInt8)
  | afterName (tag : Tag) (name : List UInt8)
  | beforeValue (tag : Tag) (name : List UInt8)
  | afterValue (tag : Tag)
  | rawOpened (place : Place)
  | rawClosed (place : Place)
  | rawName (place : Place) (spelled : List UInt8)
  deriving DecidableEq

/-- Between tags. -/
def start : State := .inside .data

/-! ### Characters -/

/-- The whitespace of the standard. -/
def isSpace (b : UInt8) : Bool := b == 0x20 || b == 0x09 || b == 0x0A || b == 0x0C || b == 0x0D

/-- An upper-case letter. -/
def isUpper (b : UInt8) : Bool := 0x41 ≤ b && b ≤ 0x5A

/-- A letter. -/
def isLetter (b : UInt8) : Bool := isUpper b || 0x61 ≤ b && b ≤ 0x7A

/-- A digit. -/
def isDigit (b : UInt8) : Bool := 0x30 ≤ b && b ≤ 0x39

/-- Names are compared in lower case. -/
def lower (b : UInt8) : UInt8 := if isUpper b then b + 0x20 else b

/-- One attribute more. -/
def Tag.push (tag : Tag) (name value : List UInt8) : Tag :=
  { tag with attributes := tag.attributes ++ [(name, value)] }

/-- The elements that are read up to their end tag. -/
def Tag.content (tag : Tag) : Place :=
  if tag.closing then .data
  else if tag.name = bytes "title" ∨ tag.name = bytes "textarea" then .title tag.name
  else if tag.name = bytes "style" ∨ tag.name = bytes "script" then .raw tag.name
  else .data

/-- A text without references at a place. -/
def Place.put (place : Place) (text : List UInt8) : List Token × Place :=
  match place with
  | .quoted quote tag name value => ([], .quoted quote tag name (value ++ text))
  | .unquoted tag name value => ([], .unquoted tag name (value ++ text))
  | place => (text.map .character, place)

/-- What a reference stands for. -/
def referenced (spelled : List UInt8) : Option (List UInt8) :=
  if spelled = bytes "amp" then some (bytes "&")
  else if spelled = bytes "lt" then some (bytes "<")
  else if spelled = bytes "gt" then some (bytes ">")
  else if spelled = bytes "quot" then some (bytes "\"")
  else if spelled = bytes "apos" then some (bytes "'")
  else
    match spelled with
    | 0x23 :: first :: digits =>
      if (first :: digits).all isDigit then
        let code := (first :: digits).foldl (fun code digit => code * 10 + (digit.toNat - 0x30)) 0
        some (String.utf8EncodeChar (Char.ofNat code))
      else none
    | _ => none

/-! ### The tokenizer -/

/-- A tag is complete: what follows it depends on its name. -/
def emit (tag : Tag) : List Token × State := ([.tag tag], .inside tag.content)

/-- The text at the place, and then a byte of it. -/
def insideStep (place : Place) (b : UInt8) : List Token × State :=
  let plain := ((place.put [b]).1, State.inside (place.put [b]).2)
  match place with
  | .data =>
    if b = 0x26 then ([], .reference place []) else if b = 0x3C then ([], .opened) else plain
  | .title _ =>
    if b = 0x26 then ([], .reference place [])
    else if b = 0x3C then ([], .rawOpened place)
    else plain
  | .raw _ => if b = 0x3C then ([], .rawOpened place) else plain
  | .quoted quote tag name value =>
    if b = 0x26 then ([], .reference place [])
    else if b = quote then ([], .afterValue (tag.push name value))
    else plain
  | .unquoted tag name value =>
    if b = 0x26 then ([], .reference place [])
    else if isSpace b then ([], .beforeName (tag.push name value))
    else if b = 0x3E then emit (tag.push name value)
    else plain

/-- What was no markup is text at the place, and the byte comes after it. -/
def flush (place : Place) (text : List UInt8) (b : UInt8) : List Token × State :=
  let (tokens, place) := place.put text
  let (rest, state) := insideStep place b
  (tokens ++ rest, state)

/-- The element that the place ends with. -/
def Place.element : Place → List UInt8
  | .title element => element
  | .raw element => element
  | _ => []

/-- The next byte. -/
def step : State → UInt8 → List Token × State
  | .inside place, b => insideStep place b
  | .reference place spelled, b =>
    if isLetter b || isDigit b || b == 0x23 then ([], .reference place (spelled ++ [b]))
    else if b = 0x3B then
      let text := (referenced spelled).getD (0x26 :: spelled ++ [0x3B])
      ((place.put text).1, .inside (place.put text).2)
    else flush place (0x26 :: spelled) b
  | .opened, b =>
    if isLetter b then ([], .tagName ⟨false, [lower b], []⟩)
    else if b = 0x2F then ([], .closed)
    else if b = 0x21 then ([], .declaration [])
    else if b = 0x3F then ([], .declaration [b])
    else flush .data [0x3C] b
  | .closed, b =>
    if isLetter b then ([], .tagName ⟨true, [lower b], []⟩)
    else if b = 0x3E then ([], start)
    else ([], .declaration [b])
  | .declaration text, b =>
    -- a comment ends at its second pair of dashes
    if b = 0x3E && (text.take 2 != [0x2D, 0x2D] || [0x2D, 0x2D].isSuffixOf (text.drop 2)) then
      ([.declaration text], start)
    else ([], .declaration (text ++ [b]))
  | .tagName tag, b =>
    if isSpace b || b == 0x2F then ([], .beforeName tag)
    else if b = 0x3E then emit tag
    else ([], .tagName { tag with name := tag.name ++ [lower b] })
  | .beforeName tag, b =>
    if isSpace b || b == 0x2F then ([], .beforeName tag)
    else if b = 0x3E then emit tag
    else ([], .attributeName tag [lower b])
  | .attributeName tag name, b =>
    if isSpace b then ([], .afterName tag name)
    else if b = 0x2F then ([], .beforeName (tag.push name []))
    else if b = 0x3E then emit (tag.push name [])
    else if b = 0x3D then ([], .beforeValue tag name)
    else ([], .attributeName tag (name ++ [lower b]))
  | .afterName tag name, b =>
    if isSpace b then ([], .afterName tag name)
    else if b = 0x2F then ([], .beforeName (tag.push name []))
    else if b = 0x3E then emit (tag.push name [])
    else if b = 0x3D then ([], .beforeValue tag name)
    else ([], .attributeName (tag.push name []) [lower b])
  | .beforeValue tag name, b =>
    if isSpace b then ([], .beforeValue tag name)
    else if b = 0x22 || b = 0x27 then ([], .inside (.quoted b tag name []))
    else insideStep (.unquoted tag name []) b
  | .afterValue tag, b =>
    if isSpace b || b == 0x2F then ([], .beforeName tag)
    else if b = 0x3E then emit tag
    else ([], .attributeName tag [lower b])
  | .rawOpened place, b =>
    if b = 0x2F then ([], .rawClosed place) else flush place [0x3C] b
  | .rawClosed place, b =>
    if isLetter b then ([], .rawName place [b]) else flush place [0x3C, 0x2F] b
  | .rawName place spelled, b =>
    if isLetter b then ([], .rawName place (spelled ++ [b]))
    else if spelled.map lower = place.element && (isSpace b || b == 0x2F || b == 0x3E) then
      if b = 0x3E then emit ⟨true, place.element, []⟩
      else ([], .beforeName ⟨true, place.element, []⟩)
    else flush place (0x3C :: 0x2F :: spelled) b

/-- The tokens of a text, and the state after it. -/
def run : State → List UInt8 → List Token × State
  | s, [] => ([], s)
  | s, b :: text =>
    let (tokens, s') := step s b
    let (rest, s'') := run s' text
    (tokens ++ rest, s'')

/-! ### Reading a text in parts -/

/-- The reader goes through the text from one state to another, with these tokens. -/
def Reads (s : State) (text : List UInt8) (tokens : List Token) (s' : State) : Prop :=
  run s text = (tokens, s')

instance (s : State) (text : List UInt8) (tokens : List Token) (s' : State) :
    Decidable (Reads s text tokens s') :=
  inferInstanceAs (Decidable (run s text = (tokens, s')))

variable {s s' s'' : State} {text text' : List UInt8} {tokens tokens' : List Token}

theorem reads_nil (s : State) : Reads s [] [] s := rfl

theorem run_append (s : State) (text text' : List UInt8) :
    run s (text ++ text') =
      ((run s text).1 ++ (run (run s text).2 text').1, (run (run s text).2 text').2) := by
  induction text generalizing s with
  | nil => simp [run]
  | cons b text ih => simp [run, ih]

theorem Reads.append (h : Reads s text tokens s') (h' : Reads s' text' tokens' s'') :
    Reads s (text ++ text') (tokens ++ tokens') s'' := by
  unfold Reads at *
  rw [run_append, h, h']

/-- Parts that each leave the reader where it was. -/
theorem Reads.flatMap {α : Type*} {items : List α} {spell : α → List UInt8}
    {tokens : α → List Token} (h : ∀ item ∈ items, Reads s (spell item) (tokens item) s) :
    Reads s (items.flatMap spell) (items.flatMap tokens) s := by
  induction items with
  | nil => exact reads_nil s
  | cons item items ih =>
    obtain ⟨hitem, hitems⟩ := List.forall_mem_cons.1 h
    rw [List.flatMap_cons, List.flatMap_cons]
    exact hitem.append (ih hitems)

/-! ### Texts that stay texts -/

/-- At the place the characters `<`, `&` and `"` mean something, but references are decoded. -/
def Place.IsEscapable (place : Place) : Prop :=
  place = .data ∨ (∃ element, place = .title element) ∨
    ∃ tag name value, place = .quoted 0x22 tag name value

theorem Place.put_nil (place : Place) : place.put [] = ([], place) := by
  cases place <;> simp [put]

theorem Place.put_append (place : Place) (text text' : List UInt8) :
    place.put (text ++ text') =
      ((place.put text).1 ++ ((place.put text).2.put text').1, ((place.put text).2.put text').2) := by
  cases place <;> simp [put]

theorem Place.IsEscapable.put {place : Place} (h : place.IsEscapable) (text : List UInt8) :
    (place.put text).2.IsEscapable := by
  obtain rfl | ⟨element, rfl⟩ | ⟨tag, name, value, rfl⟩ := h
  · exact .inl rfl
  · exact .inr (.inl ⟨element, rfl⟩)
  · exact .inr (.inr ⟨tag, name, value ++ text, rfl⟩)

/-- A byte is written so that the reader finds it again, wherever references are decoded. -/
def Escapes (spell : UInt8 → List UInt8) : Prop :=
  ∀ b place, place.IsEscapable →
    Reads (.inside place) (spell b) (place.put [b]).1 (.inside (place.put [b]).2)

/-- **A text that is written with escapes is read as a text.** -/
theorem Escapes.reads {spell : UInt8 → List UInt8} (h : Escapes spell) (text : List UInt8)
    {place : Place} (hplace : place.IsEscapable) :
    Reads (.inside place) (text.flatMap spell) (place.put text).1
      (.inside (place.put text).2) := by
  induction text generalizing place with
  | nil =>
    rw [place.put_nil]
    exact reads_nil _
  | cons b text ih =>
    rw [List.flatMap_cons, ← List.singleton_append, place.put_append]
    exact (h b place hplace).append (ih (hplace.put [b]))

/-- A byte that means nothing. -/
theorem reads_plain {b : UInt8} (hreference : b ≠ 0x26) (hopen : b ≠ 0x3C) (hquote : b ≠ 0x22)
    {place : Place} (hplace : place.IsEscapable) :
    Reads (.inside place) [b] (place.put [b]).1 (.inside (place.put [b]).2) := by
  obtain rfl | ⟨element, rfl⟩ | ⟨tag, name, value, rfl⟩ := hplace <;>
    simp [Reads, run, step, insideStep, hreference, hopen, hquote]

theorem reads_text {text : List UInt8} (h : ∀ b ∈ text, b ≠ 0x26 ∧ b ≠ 0x3C ∧ b ≠ 0x22)
    {place : Place} (hplace : place.IsEscapable) :
    Reads (.inside place) text (place.put text).1 (.inside (place.put text).2) := by
  induction text generalizing place with
  | nil =>
    rw [place.put_nil]
    exact reads_nil _
  | cons b text ih =>
    obtain ⟨⟨hreference, hopen, hquote⟩, htext⟩ := List.forall_mem_cons.1 h
    rw [← List.singleton_append, place.put_append]
    exact (reads_plain hreference hopen hquote hplace).append (ih htext (hplace.put [b]))

/-- The text of a style or a script. -/
theorem reads_raw {text : List UInt8} (h : 0x3C ∉ text) (element : List UInt8) :
    Reads (.inside (.raw element)) text (text.map .character) (.inside (.raw element)) := by
  induction text with
  | nil => exact reads_nil _
  | cons b text ih =>
    obtain ⟨hb, htext⟩ := not_or.1 (mt List.mem_cons.2 h)
    have hstep : Reads (.inside (.raw element)) [b] [.character b] (.inside (.raw element)) := by
      simp [Reads, run, step, insideStep, Ne.symm hb, Place.put]
    exact hstep.append (ih htext)

/-! ### Tags -/

/-- The tags and the declarations, without the values of the attributes that are `erased`: those of
an element and with a name. -/
def skeleton (erased : List UInt8 → List UInt8 → Bool) (tokens : List Token) : List Token :=
  tokens.filterMap fun token =>
    match token with
    | .character _ => none
    | .tag tag => some (.tag { tag with
        attributes := tag.attributes.map fun (name, value) =>
          if erased tag.name name then (name, []) else (name, value) })
    | .declaration text => some (.declaration text)

variable {erased : List UInt8 → List UInt8 → Bool}

@[simp] theorem skeleton_append (tokens tokens' : List Token) :
    skeleton erased (tokens ++ tokens') = skeleton erased tokens ++ skeleton erased tokens' :=
  List.filterMap_append

theorem skeleton_flatMap {α : Type*} (items : List α) (tokens : α → List Token) :
    skeleton erased (items.flatMap tokens) = items.flatMap fun item => skeleton erased (tokens item) :=
  List.filterMap_flatMap

@[simp] theorem skeleton_characters (text : List UInt8) :
    skeleton erased (text.map .character) = [] := by
  simp [skeleton, List.filterMap_map]

/-! ### Scripts -/

/-- The start tag of a script. -/
def Token.opensScript : Token → Bool
  | .tag element => !element.closing && element.name == bytes "script"
  | _ => false

/-- The characters up to the next tag. -/
def leadingText : List Token → List UInt8
  | .character b :: rest => b :: leadingText rest
  | _ => []

/-- The texts of the script elements. -/
def scripts : List Token → List (List UInt8)
  | [] => []
  | token :: rest =>
    if token.opensScript then leadingText rest :: scripts rest else scripts rest

theorem scripts_append {tokens : List Token} (h : ∀ token ∈ tokens, token.opensScript = false)
    (rest : List Token) : scripts (tokens ++ rest) = scripts rest := by
  induction tokens with
  | nil => rfl
  | cons token tokens ih =>
    have hfirst : token.opensScript = false := h token (List.mem_cons_self ..)
    rw [List.cons_append, scripts, if_neg (by simp [hfirst]),
      ih fun t ht => h t (List.mem_cons_of_mem _ ht)]

theorem scripts_eq_nil {tokens : List Token} (h : ∀ token ∈ tokens, token.opensScript = false) :
    scripts tokens = [] := by
  rw [← List.append_nil tokens, scripts_append h, scripts]

theorem leadingText_append (text : List UInt8) (token : Token) (h : ∀ b, token ≠ .character b)
    (rest : List Token) : leadingText (text.map .character ++ token :: rest) = text := by
  induction text with
  | nil =>
    cases token with
    | character b => exact absurd rfl (h b)
    | tag | declaration => rfl
  | cons b text ih => rw [List.map_cons, List.cons_append, leadingText, ih]

end Html

end ErikslundHttp
