import ErikslundHttp.Lib.Scan

/-!
# Reading a text from its start

A reader takes a value off the start of a text and gives what is left of it, or fails.

* `expect start` takes a fixed text;
* `readWhile p` takes the elements that satisfy `p`;
* `readEscaped` takes a text in which a mark before an element gives it another meaning;
* `readRest` takes items with a separator before each, up to a closing element.

Each comes with what it reads off a text that was written for it, whatever comes after.
-/

namespace ErikslundHttp

namespace Reader

variable {α β γ : Type*} [DecidableEq α]

/-! ### Fixed texts -/

/-- The text after `start`. -/
def expect (start text : List α) : Option (List α) :=
  if start <+: text then some (text.drop start.length) else none

@[simp] theorem expect_append (start rest : List α) : expect start (start ++ rest) = some rest := by
  rw [expect, if_pos (List.prefix_append start rest), List.drop_left]

theorem expect_cons_of_ne {a b : α} (h : a ≠ b) (start text : List α) :
    expect (a :: start) (b :: text) = none := by
  rw [expect, if_neg (by simp [List.cons_prefix_cons, h])]

/-! ### Words -/

omit [DecidableEq α] in
/-- The elements at the start that satisfy `p`, and the text after them. -/
def readWhile (p : α → Bool) (text : List α) : List α × List α :=
  (text.takeWhile p, text.dropWhile p)

omit [DecidableEq α] in
theorem readWhile_append {p : α → Bool} {word rest : List α} (hword : ∀ a ∈ word, p a = true)
    (hrest : ∀ a, rest.head? = some a → p a = false) : readWhile p (word ++ rest) = (word, rest) := by
  have hnone : rest.takeWhile p = [] := by
    cases rest with
    | nil => rfl
    | cons a rest => simp [hrest a rfl]
  rw [readWhile, Scan.dropWhile_append_of_all hword hrest, List.takeWhile_append_of_pos hword, hnone,
    List.append_nil]

/-! ### Escaped texts -/

/-- The text up to a `stop` that is not escaped, and what comes after it. -/
def readEscaped (mark stop : α) (unescape : α → Option α) : List α → Option (List α × List α)
  | [] => none
  | a :: rest =>
    if a = stop then some ([], rest)
    else if a = mark then
      match rest with
      | [] => none
      | escaped :: rest => do
        let a ← unescape escaped
        let (value, after) ← readEscaped mark stop unescape rest
        some (a :: value, after)
    else do
      let (value, after) ← readEscaped mark stop unescape rest
      some (a :: value, after)

/-- An element is written as it is, or as another one after the mark. -/
def Spells (mark stop : α) (unescape : α → Option α) (spell : α → List α) : Prop :=
  ∀ a, (spell a = [a] ∧ a ≠ stop ∧ a ≠ mark) ∨
    ∃ escaped, spell a = [mark, escaped] ∧ unescape escaped = some a

/-- A text that is written with escapes is read back. -/
theorem readEscaped_flatMap {mark stop : α} {unescape : α → Option α} {spell : α → List α}
    (h : Spells mark stop unescape spell) (hne : mark ≠ stop) (value rest : List α) :
    readEscaped mark stop unescape (value.flatMap spell ++ stop :: rest) = some (value, rest) := by
  induction value with
  | nil =>
    rw [List.flatMap_nil, List.nil_append, readEscaped.eq_def]
    exact if_pos rfl
  | cons a value ih =>
    rw [List.flatMap_cons, List.append_assoc]
    obtain ⟨ha, hstop, hmark⟩ | ⟨escaped, ha, hescaped⟩ := h a
    · rw [ha, List.singleton_append, readEscaped.eq_def]
      dsimp only
      rw [if_neg hstop, if_neg hmark, ih]
      rfl
    · rw [ha, List.cons_append, List.singleton_append, readEscaped.eq_def]
      dsimp only
      rw [if_neg hne, if_pos rfl, hescaped, ih]
      rfl

/-! ### Lists -/

/-- Items, each after a `separator`, up to the `close`; at most `fuel` of them. -/
def readRest (read : List α → Option (β × List α)) (separator close : α) :
    ℕ → List α → Option (List β × List α)
  | 0, _ => none
  | _, [] => none
  | fuel + 1, a :: rest =>
    if a = close then some ([], rest)
    else if a = separator then do
      let (item, rest) ← read rest
      let (items, rest) ← readRest read separator close fuel rest
      some (item :: items, rest)
    else none

/-- What can come after an item. -/
def Follows (separator close : α) (rest : List α) : Prop :=
  rest.head? = some separator ∨ rest.head? = some close

omit [DecidableEq α] in
theorem follows_flatMap (separator close : α) (items : List γ) (spell : γ → List α)
    (rest : List α) : Follows separator close
      (items.flatMap (fun item => separator :: spell item) ++ close :: rest) := by
  cases items with
  | nil => exact .inr rfl
  | cons => exact .inl rfl

/-- Items that are each read back are read back from the list of them. -/
theorem readRest_flatMap {read : List α → Option (β × List α)} {separator close : α}
    (hne : separator ≠ close) {items : List γ} {spell : γ → List α} {value : γ → β}
    (h : ∀ item ∈ items, ∀ rest, Follows separator close rest →
      read (spell item ++ rest) = some (value item, rest))
    {fuel : ℕ} (hfuel : items.length < fuel) (rest : List α) :
    readRest read separator close fuel
        (items.flatMap (fun item => separator :: spell item) ++ close :: rest) =
      some (items.map value, rest) := by
  induction items generalizing fuel with
  | nil =>
    obtain ⟨fuel, rfl⟩ := Nat.exists_eq_add_one_of_ne_zero (Nat.ne_zero_of_lt hfuel)
    rw [List.flatMap_nil, List.nil_append, readRest, if_pos rfl]
    rfl
  | cons item items ih =>
    obtain ⟨fuel, rfl⟩ := Nat.exists_eq_add_one_of_ne_zero (Nat.ne_zero_of_lt hfuel)
    obtain ⟨hitem, hitems⟩ := List.forall_mem_cons.1 h
    rw [List.flatMap_cons, List.append_assoc, List.cons_append, readRest, if_neg hne, if_pos rfl,
      hitem _ (follows_flatMap separator close items spell rest)]
    dsimp only [Option.bind_eq_bind, Option.bind_some]
    rw [ih hitems (by simpa using hfuel)]
    rfl

omit [DecidableEq α] in
theorem intercalate_cons (separator : α) (text : List α) (texts : List (List α)) :
    [separator].intercalate (text :: texts) = text ++ texts.flatMap (separator :: ·) := by
  induction texts generalizing text with
  | nil => simp
  | cons next texts ih => rw [List.intercalate_cons_cons, ih, List.flatMap_cons]; simp

omit [DecidableEq α] in
theorem length_le_length_intercalate {text : List α} {texts : List (List α)} (h : text ∈ texts)
    (separator : α) : text.length ≤ ([separator].intercalate texts).length := by
  cases texts with
  | nil => cases h
  | cons first texts =>
    rw [intercalate_cons, List.length_append]
    rcases List.mem_cons.1 h with rfl | h
    · omega
    · have hmem : separator :: text ∈ texts.map (separator :: ·) := List.mem_map_of_mem h
      have hle := (List.sublist_flatten_of_mem hmem).length_le
      rw [← List.flatMap_def, List.length_cons] at hle
      omega

omit [DecidableEq α] in
/-- There is enough fuel in the text. -/
theorem length_lt_length_flatMap (items : List γ) (spell : γ → List α) (separator close : α)
    (rest : List α) : items.length <
      (items.flatMap (fun item => separator :: spell item) ++ close :: rest).length := by
  induction items with
  | nil => simp
  | cons item items ih =>
    simp only [List.flatMap_cons, List.length_append, List.length_cons] at ih ⊢
    omega

omit [DecidableEq α] in
theorem mapM_map_eq_some {read : List α → Option β} {items : List γ} {spell : γ → List α}
    {value : γ → β} (h : ∀ item ∈ items, read (spell item) = some (value item)) :
    (items.map spell).mapM read = some (items.map value) := by
  induction items with
  | nil => rfl
  | cons item items ih =>
    obtain ⟨hitem, hitems⟩ := List.forall_mem_cons.1 h
    simp [hitem, ih hitems]

/-! ### Lines -/

/-- The lines of a text, each with the `n` that ends it. -/
def cutLines (n : α) : List α → Option (List (List α))
  | [] => some []
  | a :: text => do
    let lines ← cutLines n text
    if a = n then some ([a] :: lines)
    else
      match lines with
      | [] => none
      | line :: lines => some ((a :: line) :: lines)

theorem cutLines_append {n : α} {line text : List α} (h : n ∉ line) :
    cutLines n (line ++ n :: text) = (cutLines n text).map fun lines => (line ++ [n]) :: lines := by
  induction line with
  | nil =>
    rw [List.nil_append, cutLines]
    cases cutLines n text <;> simp
  | cons a line ih =>
    obtain ⟨ha, hline⟩ := not_or.1 (mt List.mem_cons.2 h)
    rw [List.cons_append, cutLines, ih hline]
    cases cutLines n text <;> simp [Ne.symm ha]

/-- Lines that are written one after the other are cut apart. -/
theorem cutLines_flatMap {n : α} {items : List γ} {spell : γ → List α}
    (h : ∀ item ∈ items, ∃ line, spell item = line ++ [n] ∧ n ∉ line) :
    cutLines n (items.flatMap spell) = some (items.map spell) := by
  induction items with
  | nil => rfl
  | cons item items ih =>
    obtain ⟨hitem, hitems⟩ := List.forall_mem_cons.1 h
    obtain ⟨line, hspell, hline⟩ := hitem
    rw [List.flatMap_cons, hspell, List.append_assoc, List.singleton_append, cutLines_append hline,
      ih hitems, List.map_cons, hspell]
    rfl

end Reader

end ErikslundHttp
