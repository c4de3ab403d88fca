import ErikslundHttp.Lib.Base64

/-!
# Content security policies

What a policy says about the inline scripts of a page: the directives are parsed as the standard
says, and a script is allowed by `'unsafe-inline'` or by a source that has its hash.  Of the sources
with a hash the reader knows those of SHA-256 only; one of SHA-384 or SHA-512 turns
`'unsafe-inline'` off and allows nothing.

* `parse_render` reads a policy back that was written directive by directive.
* `hasHash_hashSource_iff` says which scripts a source with a hash allows.
-/

namespace ErikslundHttp

namespace Csp

/-- The bytes of an ASCII literal. -/
def bytes (s : String) : List UInt8 := s.toList.map fun c => UInt8.ofNat c.toNat

/-- The whitespace of the standard. -/
def isSpace (b : UInt8) : Bool := b == 0x20 || b == 0x09 || b == 0x0A || b == 0x0C || b == 0x0D

/-- What stands between two directives. -/
def semicolon : UInt8 := 0x3B

/-- Names and keywords are compared in lower case. -/
def lower (b : UInt8) : UInt8 := if 0x41 ≤ b && b ≤ 0x5A then b + 0x20 else b

/-! ### Policies -/

/-- A directive with its sources. -/
structure Directive where
  name : List UInt8
  /-- What follows the name. -/
  sources : List (List UInt8)
  deriving DecidableEq

/-- What is between the spaces. -/
def words (text : List UInt8) : List (List UInt8) :=
  (text.splitOnP isSpace).filter fun word => !word.isEmpty

/-- The first word of a directive is its name. -/
def readDirective (text : List UInt8) : Option Directive :=
  match words text with
  | [] => none
  | name :: sources => some ⟨name.map lower, sources⟩

/-- The directives of a policy; of two with one name the first one counts. -/
def parse (policy : List UInt8) : List Directive :=
  (policy.splitOn semicolon).filterMap readDirective

/-- The sources of a directive; of two with one name the first counts. -/
def sourcesOf (name : String) (directives : List Directive) : Option (List (List UInt8)) :=
  (directives.find? fun directive => directive.name == bytes name).map Directive.sources

/-- The sources that count for an inline script. -/
def scriptSources (directives : List Directive) : Option (List (List UInt8)) :=
  (sourcesOf "script-src-elem" directives).or
    ((sourcesOf "script-src" directives).or (sourcesOf "default-src" directives))

/-! ### Inline scripts -/

/-- The source starts like that, in any letter case. -/
def startsLike (start : String) (source : List UInt8) : Bool :=
  (bytes start).isPrefixOf (source.map lower)

/-- A source that turns `'unsafe-inline'` off. -/
def isNonceOrHash (source : List UInt8) : Bool :=
  ["'nonce-", "'sha256-", "'sha384-", "'sha512-", "'strict-dynamic'"].any fun start =>
    startsLike start source

/-- The base64 value of a source, with the letters of the other alphabet replaced. -/
def hashValue (source : List UInt8) : List UInt8 :=
  ((source.drop (bytes "'sha256-").length).dropLast).map fun b =>
    if b = 0x2D then 0x2B else if b = 0x5F then 0x2F else b

variable (hash : List UInt8 → List UInt8)

/-- The source has the hash of the script. -/
def hasHash (source script : List UInt8) : Bool :=
  startsLike "'sha256-" source && source.getLast? == some 0x27 &&
    hashValue source == Base64.encode (hash script)

/-- Every inline script is allowed, unless a source names some. -/
def allowsAllInline (sources : List (List UInt8)) : Bool :=
  sources.any (fun source => source.map lower == bytes "'unsafe-inline'") &&
    !sources.any isNonceOrHash

/-- The policy allows the inline script. -/
def allowsInlineScript (policy script : List UInt8) : Bool :=
  match scriptSources (parse policy) with
  | none => true
  | some sources => allowsAllInline sources || sources.any fun source => hasHash hash source script

/-! ### Writing a policy -/

/-- The source of a script with that digest. -/
def hashSource (digest : List UInt8) : List UInt8 :=
  bytes "'sha256-" ++ Base64.encode digest ++ [0x27]

/-- The words of a directive. -/
def Directive.render (directive : Directive) : List UInt8 :=
  directive.name ++ directive.sources.flatMap fun source => 0x20 :: source

/-- The directives in a row. -/
def render : List Directive → List UInt8
  | [] => []
  | [directive] => directive.render
  | directive :: rest => directive.render ++ semicolon :: 0x20 :: render rest

/-- A word does not end before its end. -/
def IsWord (word : List UInt8) : Prop :=
  word ≠ [] ∧ ∀ b ∈ word, isSpace b = false ∧ b ≠ semicolon

/-- A directive that is read as it is written. -/
structure Directive.WellFormed (directive : Directive) : Prop where
  name : IsWord directive.name
  lower : directive.name.map lower = directive.name
  sources : ∀ source ∈ directive.sources, IsWord source

/-- The check of a directive. -/
def Directive.isProper (directive : Directive) : Bool :=
  (directive.name :: directive.sources).all (fun word =>
    !word.isEmpty && word.all fun b => !isSpace b && b != semicolon) &&
    directive.name.map Csp.lower == directive.name

theorem wellFormed_of_isProper {directive : Directive} (h : directive.isProper = true) :
    directive.WellFormed := by
  simp only [Directive.isProper, List.all_cons, Bool.and_eq_true, beq_iff_eq, List.all_eq_true,
    Bool.not_eq_true', List.isEmpty_eq_false_iff, bne_iff_ne] at h
  exact ⟨h.1.1, h.2, h.1.2⟩

theorem words_append {word : List UInt8} (h : IsWord word) (rest : List UInt8) :
    words (word ++ 0x20 :: rest) = word :: words rest := by
  rw [words, List.splitOnP_append_cons_of_forall_mem (fun b hb => (h.2 b hb).1) 0x20 rfl,
    List.filter_cons_of_pos (by simpa using h.1)]
  rfl

theorem words_of_isWord {word : List UInt8} (h : IsWord word) : words word = [word] := by
  rw [words, List.splitOnP_eq_singleton fun b hb => (h.2 b hb).1,
    List.filter_cons_of_pos (by simpa using h.1), List.filter_nil]

@[simp] theorem words_space (text : List UInt8) : words (0x20 :: text) = words text := by
  have h : ([] ++ 0x20 :: text).splitOnP isSpace = _ := List.splitOnP_append_cons [] text rfl
  rw [List.nil_append] at h
  rw [words, h]
  rfl

theorem words_render {word : List UInt8} (hword : IsWord word) {sources : List (List UInt8)}
    (h : ∀ source ∈ sources, IsWord source) :
    words (word ++ sources.flatMap fun source => 0x20 :: source) = word :: sources := by
  induction sources generalizing word with
  | nil => rw [List.flatMap_nil, List.append_nil, words_of_isWord hword]
  | cons source sources ih =>
    rw [List.flatMap_cons, List.cons_append, words_append hword,
      ih (h source (List.mem_cons_self ..)) fun s hs => h s (List.mem_cons_of_mem _ hs)]

theorem readDirective_render {directive : Directive} (h : directive.WellFormed) :
    readDirective directive.render = some directive := by
  rw [readDirective, Directive.render, words_render h.name h.sources]
  simp only [h.lower]

theorem semicolon_notMem_render {directive : Directive} (h : directive.WellFormed) :
    semicolon ∉ directive.render := by
  have hword {word : List UInt8} (hw : IsWord word) : semicolon ∉ word :=
    fun hmem => (hw.2 _ hmem).2 rfl
  rw [Directive.render, List.mem_append, List.mem_flatMap]
  rintro (hname | ⟨source, hsource, hmem⟩)
  · exact hword h.name hname
  · obtain heq | hmem := List.mem_cons.1 hmem
    · exact absurd heq (by decide)
    · exact hword (h.sources source hsource) hmem

@[simp] theorem readDirective_space (text : List UInt8) :
    readDirective (0x20 :: text) = readDirective text := by
  rw [readDirective, words_space, readDirective]

theorem parse_space (policy : List UInt8) : parse (0x20 :: policy) = parse policy := by
  obtain ⟨first, rest, hsplit⟩ := List.exists_cons_of_ne_nil (List.splitOn_ne_nil semicolon policy)
  rw [parse, parse, List.splitOn_cons_eq_if_modifyHead, if_neg (by decide), hsplit,
    List.modifyHead_cons, List.filterMap_cons, List.filterMap_cons, readDirective_space]

/-- **A policy is read back.** -/
theorem parse_render {directives : List Directive}
    (h : ∀ directive ∈ directives, directive.WellFormed) : parse (render directives) = directives := by
  induction directives using render.induct with
  | case1 => rfl
  | case2 directive =>
    have hdirective := h directive (List.mem_singleton_self directive)
    rw [render, parse, List.splitOn_eq_singleton (semicolon_notMem_render hdirective),
      List.filterMap_cons, readDirective_render hdirective]
    rfl
  | case3 directive rest hne ih =>
    have hdirective := h directive (List.mem_cons_self ..)
    have hrest := ih fun d hd => h d (List.mem_cons_of_mem _ hd)
    rw [render, parse, List.splitOn_append_cons_self_of_not_mem (semicolon_notMem_render hdirective),
      List.filterMap_cons, readDirective_render hdirective]
    · exact congrArg (directive :: ·) ((parse_space _).trans hrest)
    · exact hne

/-! ### Sources with a hash -/

theorem char_spec : ∀ sextet < 64, isSpace (Base64.char sextet) = false ∧
    Base64.char sextet ≠ semicolon ∧ Base64.char sextet ≠ 0x2D ∧ Base64.char sextet ≠ 0x5F := by
  decide

theorem encode_spec {data : List UInt8} {b : UInt8} (h : b ∈ Base64.encode data) :
    isSpace b = false ∧ b ≠ semicolon ∧ b ≠ 0x2D ∧ b ≠ 0x5F := by
  obtain ⟨sextet, hlt, rfl⟩ | rfl := Base64.mem_encode h
  · exact char_spec sextet hlt
  · decide

theorem isWord_hashSource (digest : List UInt8) : IsWord (hashSource digest) := by
  refine ⟨by simp [hashSource], fun b hb => ?_⟩
  have hprefix : ((bytes "'sha256-").all fun b => !isSpace b && b != semicolon) = true := by decide
  simp only [hashSource, List.mem_append, List.mem_singleton] at hb
  obtain (hb | hb) | rfl := hb
  · simpa using List.all_eq_true.1 hprefix b hb
  · exact ⟨(encode_spec hb).1, (encode_spec hb).2.1⟩
  · decide

theorem startsLike_hashSource (digest : List UInt8) :
    startsLike "'sha256-" (hashSource digest) = true := by
  rw [startsLike, hashSource, List.append_assoc, List.map_append, List.isPrefixOf_iff_prefix]
  exact List.prefix_append _ _

theorem isNonceOrHash_hashSource (digest : List UInt8) :
    isNonceOrHash (hashSource digest) = true :=
  List.any_eq_true.2 ⟨_, by simp, startsLike_hashSource digest⟩

theorem hashValue_hashSource (digest : List UInt8) :
    hashValue (hashSource digest) = Base64.encode digest := by
  rw [hashValue, hashSource, List.append_assoc, List.drop_left, List.dropLast_concat]
  refine (List.map_congr_left fun b hb => ?_).trans (List.map_id _)
  obtain ⟨-, -, hminus, hunderscore⟩ := encode_spec hb
  rw [if_neg hminus, if_neg hunderscore, id]

/-- **A source with the hash of a script allows the scripts with that hash.** -/
theorem hasHash_hashSource_iff {hash : List UInt8 → List UInt8} {digest script : List UInt8} :
    hasHash hash (hashSource digest) script = true ↔ hash script = digest := by
  have hlast : (hashSource digest).getLast? = some 0x27 := by
    rw [hashSource, List.getLast?_concat]
  simp only [hasHash, startsLike_hashSource, hlast, hashValue_hashSource, BEq.rfl, Bool.true_and,
    beq_iff_eq]
  exact ⟨fun h => (Base64.encode_injective h).symm, fun h => by rw [h]⟩

end Csp

end ErikslundHttp
