import ErikslundHttp.Request.Scanners
import Mathlib.Logic.Relation

/-!
# List fields

`for_each_list_member` (`request.cpp`) visits the members of a list one by one; the visitors keep
their answers in variables of the caller, across all fields of one name.  The loops are written out
here as the source has them.

* `resolveKeepAlive_eq`, `resolveWantsGzip_eq`: they answer what the definitions over all members do.
* `Rewriting`: a list may be spread over several fields, members may be empty, and whitespace may
  stand around them.
* `list_fields_mean_the_same`: no sequence of such changes changes an answer.
-/

namespace ErikslundHttp

open Scan

/-! ### Members -/

@[simp] theorem listMembers_nil (separator : UInt8) : listMembers [] separator = [] := by
  simp [listMembers, trimBytes, Scan.trim]

theorem listMembers_append_cons (first rest : Bytes) (separator : UInt8) :
    listMembers (first ++ separator :: rest) separator =
      listMembers first separator ++ listMembers rest separator := by
  simp [listMembers, List.splitOn_append_cons_self]

theorem listMembers_of_notMem {separator : UInt8} {member : Bytes} (h : separator ∉ member) :
    listMembers member separator =
      if (trimBytes member).isEmpty then [] else [trimBytes member] := by
  rw [listMembers, List.splitOn_eq_singleton h]
  cases hempty : (trimBytes member).isEmpty <;> simp [hempty]

/-- The first member of a list, and the others. -/
theorem listMembers_eq (list : Bytes) (separator : UInt8) :
    listMembers list separator =
      let index := (Scan.find separator list).getD list.length
      (if (trimBytes (list.take index)).isEmpty then [] else [trimBytes (list.take index)]) ++
        listMembers (list.drop (index + 1)) separator := by
  cases hfind : Scan.find separator list with
  | none =>
    simp [listMembers_of_notMem (Scan.find_eq_none_iff.1 hfind), List.drop_eq_nil_of_le]
  | some index =>
    obtain ⟨first, rest, rfl, hnotMem, rfl⟩ := Scan.find_eq_some_iff.1 hfind
    simp only [Option.getD_some, List.take_left, Scan.drop_succ_append_cons]
    rw [listMembers_append_cons, listMembers_of_notMem hnotMem]

/-- The members of joined lists are those of the lists. -/
theorem listMembers_intercalate (separator : UInt8) (values : List Bytes) :
    listMembers (List.intercalate [separator] values) separator =
      values.flatMap (listMembers · separator) := by
  induction values with
  | nil => simp
  | cons value values ih =>
    cases values with
    | nil => simp
    | cons next values =>
      rw [List.intercalate_cons_cons, List.flatMap_cons, ← ih, List.append_assoc,
        List.singleton_append, listMembers_append_cons]

namespace ListFields

/-! ### The loops -/

variable {σ : Type}

/-- `for_each_list_member`; the visitor's variables are a state. -/
def forEachListMember (separator : UInt8) (visit : σ → Bytes → σ) (value : Bytes) (state : σ) : σ :=
  if value = [] then state
  else
    let next := find separator value
    let member := trimBytes (match next with
      | none => value
      | some next => value.take next)
    let state := if member.isEmpty then state else visit state member
    match next with
    | none => state
    | some next => forEachListMember separator visit (value.drop (next + 1)) state
termination_by value.length
decreasing_by
  have := List.length_pos_iff.2 ‹_›
  simp only [List.length_drop]
  omega

/-- The variables of `resolve_keep_alive`. -/
structure ConnectionOptions where
  /-- A member `close` was found. -/
  closeRequested : Bool := false
  /-- A member `keep-alive` was found. -/
  keepAliveRequested : Bool := false

/-- `resolve_keep_alive`, field by field. -/
def resolveKeepAlive (headers : List Header) (isVersion11 : Bool) : Bool :=
  let requested := headers.foldl (fun (requested : ConnectionOptions) field =>
    if !equalsIgnoreCase field.name (ascii "Connection") then requested
    else forEachListMember (byte ',') (fun requested option =>
      if equalsIgnoreCase option (ascii "close") then { requested with closeRequested := true }
      else if equalsIgnoreCase option (ascii "keep-alive") then
        { requested with keepAliveRequested := true }
      else requested) field.value requested) {}
  -- on contradiction, close wins
  if requested.closeRequested then false
  else if isVersion11 then true
  else requested.keepAliveRequested

/-- `quality_is_zero`. -/
def qualityIsZero (parameters : Bytes) : Bool :=
  forEachListMember (byte ';') (fun isZero parameter =>
    match find (byte '=') parameter with
    | none => isZero
    | some assignment =>
      let name := trimBytes (parameter.take assignment)
      if !equalsIgnoreCase name (ascii "q") then isZero
      else weightIsZero (trimBytes (parameter.drop (assignment + 1)))) parameters false

/-- The variables of `resolve_wants_gzip`. -/
structure AcceptedCodings where
  /-- What a member `gzip` says, if there is one. -/
  gzipAcceptable : Option Bool := none
  /-- What a member `*` says, if there is one. -/
  wildcardAcceptable : Option Bool := none

/-- `resolve_wants_gzip`, field by field. -/
def resolveWantsGzip (headers : List Header) : Bool :=
  let accepted := headers.foldl (fun (accepted : AcceptedCodings) field =>
    if !equalsIgnoreCase field.name (ascii "Accept-Encoding") then accepted
    else forEachListMember (byte ',') (fun accepted member =>
      let parameters := find (byte ';') member
      let coding := trimBytes (match parameters with
        | none => member
        | some parameters => member.take parameters)
      let acceptable := match parameters with
        | none => true
        | some parameters => !qualityIsZero (member.drop (parameters + 1))
      if equalsIgnoreCase coding (ascii "gzip") || equalsIgnoreCase coding (ascii "x-gzip") then
        { accepted with gzipAcceptable := some acceptable }
      else if coding == ascii "*" then { accepted with wildcardAcceptable := some acceptable }
      else accepted) field.value accepted) {}
  accepted.gzipAcceptable.getD (accepted.wildcardAcceptable.getD false)

/-- The visitor is called for the members, in order. -/
theorem forEachListMember_eq (separator : UInt8) (visit : σ → Bytes → σ) (value : Bytes)
    (state : σ) : forEachListMember separator visit value state =
      (listMembers value separator).foldl visit state := by
  induction hlength : value.length using Nat.strong_induction_on generalizing value state with
  | _ length ih =>
    rw [forEachListMember]
    by_cases hempty : value = []
    · rw [if_pos hempty, hempty, listMembers_nil]
      rfl
    · rw [if_neg hempty, listMembers_eq]
      have hpos := List.length_pos_iff.2 hempty
      cases hfind : find separator value with
      | none =>
        simp only [Option.getD_none, List.take_length, List.foldl_append]
        rw [List.drop_eq_nil_of_le (Nat.le_succ _), listMembers_nil]
        split_ifs <;> rfl
      | some index =>
        simp only [Option.getD_some, List.foldl_append]
        rw [ih _ (by rw [List.length_drop]; omega) _ _ rfl]
        split_ifs <;> rfl

/-- The loop over the fields of one name. -/
theorem foldl_fields (name : Bytes) (separator : UInt8) (visit : σ → Bytes → σ)
    (headers : List Header) (state : σ) :
    (headers.foldl (fun state field =>
      if !equalsIgnoreCase field.name name then state
      else forEachListMember separator visit field.value state) state) =
        ((fieldValues name headers).flatMap (listMembers · separator)).foldl visit state := by
  induction headers generalizing state with
  | nil => rfl
  | cons field headers ih =>
    rw [List.foldl_cons, ih, fieldValues, fieldValues]
    cases hname : equalsIgnoreCase field.name name with
    | false =>
      simp only [List.filter_cons, hname]
      rfl
    | true =>
      simp only [List.filter_cons, hname, if_true, List.map_cons, List.flatMap_cons,
        List.foldl_append]
      rw [← forEachListMember_eq]
      rfl

/-- What the members of the `Connection` fields set. -/
theorem foldl_connectionOptions (options : List Bytes) (requested : ConnectionOptions) :
    options.foldl (fun requested option =>
      if equalsIgnoreCase option (ascii "close") then { requested with closeRequested := true }
      else if equalsIgnoreCase option (ascii "keep-alive") then
        { requested with keepAliveRequested := true }
      else requested) requested =
    { closeRequested := requested.closeRequested ||
        options.any (equalsIgnoreCase · (ascii "close")),
      keepAliveRequested := requested.keepAliveRequested ||
        options.any (equalsIgnoreCase · (ascii "keep-alive")) } := by
  induction options generalizing requested with
  | nil => simp
  | cons option options ih =>
    rw [List.foldl_cons, ih, List.any_cons, List.any_cons]
    split_ifs with hclose hkeepAlive
    · have hother : equalsIgnoreCase option (ascii "keep-alive") = false := by
        rw [equalsIgnoreCase_congr_left hclose]
        decide
      simp [hclose, hother]
    · simp [hclose, hkeepAlive]
    · simp [hclose, hkeepAlive]

theorem resolveKeepAlive_eq (headers : List Header) (isVersion11 : Bool) :
    resolveKeepAlive headers isVersion11 =
      ErikslundHttp.resolveKeepAlive headers isVersion11 := by
  rw [resolveKeepAlive, foldl_fields, foldl_connectionOptions]
  simp only [Bool.false_or]
  rfl

theorem qualityIsZero_eq (parameters : Bytes) :
    qualityIsZero parameters = ErikslundHttp.qualityIsZero parameters := by
  rw [qualityIsZero, forEachListMember_eq, ErikslundHttp.qualityIsZero]
  congr 1
  funext isZero parameter
  cases find (byte '=') parameter with
  | none => rfl
  | some assignment =>
    cases hname : equalsIgnoreCase (trimBytes (parameter.take assignment)) (ascii "q") <;>
      simp [hname]

/-- The two variables as a pair. -/
def AcceptedCodings.pair (accepted : AcceptedCodings) : Option Bool × Option Bool :=
  (accepted.gzipAcceptable, accepted.wildcardAcceptable)

theorem resolveWantsGzip_eq (headers : List Header) :
    resolveWantsGzip headers = ErikslundHttp.resolveWantsGzip headers := by
  have hpair (accepted : AcceptedCodings) :
      accepted.gzipAcceptable.getD (accepted.wildcardAcceptable.getD false) =
        accepted.pair.1.getD (accepted.pair.2.getD false) := rfl
  rw [resolveWantsGzip, foldl_fields, hpair, ErikslundHttp.resolveWantsGzip]
  rw [← List.foldl_hom AcceptedCodings.pair]
  · rfl
  intro accepted member
  rw [acceptMember]
  cases hfind : find (byte ';') member with
  | none =>
    simp only [Option.getD_none, List.take_length, Option.all_none]
    split_ifs <;> rfl
  | some parameters =>
    simp only [Option.getD_some, Option.all_some, qualityIsZero_eq]
    split_ifs <;> rfl

/-! ### Whitespace and empty members -/

/-- Blanks and nothing else. -/
def IsBlank (text : Bytes) : Prop := ∀ character ∈ text, isOptionalWhitespace character = true

theorem trimBytes_of_isBlank {text : Bytes} (h : IsBlank text) : trimBytes text = [] := by
  rw [trimBytes, trim, List.dropWhile_eq_nil_iff.2 h, List.rdropWhile_nil]

theorem trimBytes_around {left right : Bytes} (hleft : IsBlank left) (hright : IsBlank right)
    (text : Bytes) : trimBytes (left ++ text ++ right) = trimBytes text := by
  obtain ⟨before, after, htext, hbefore, hafter, hhead, hlast⟩ :=
    exists_eq_append_trim isOptionalWhitespace text
  have hblank {a b : Bytes} (ha : IsBlank a) (hb : IsBlank b) : IsBlank (a ++ b) :=
    fun character h => (List.mem_append.1 h).elim (ha character) (hb character)
  calc trimBytes (left ++ text ++ right)
      = trimBytes ((left ++ before) ++ trim isOptionalWhitespace text ++ (after ++ right)) := by
        conv_lhs => rw [htext]
        simp only [List.append_assoc]
    _ = trim isOptionalWhitespace text :=
        trim_append (hblank hleft hbefore) (hblank hafter hright) hhead hlast

theorem isBlank_nil : IsBlank [] := nofun

theorem isBlank_takeWhile (text : Bytes) : IsBlank (text.takeWhile isOptionalWhitespace) :=
  fun _ hmem => List.mem_takeWhile_imp hmem

theorem isBlank_rtakeWhile (text : Bytes) : IsBlank (text.rtakeWhile isOptionalWhitespace) :=
  fun _ hmem => List.mem_rtakeWhile_imp hmem

theorem isBlank_notMem {separator : UInt8} (hseparator : isOptionalWhitespace separator = false)
    {text : Bytes} (h : IsBlank text) : separator ∉ text := by
  intro hmem
  cases hseparator.symm.trans (h separator hmem)

theorem listMembers_of_isBlank {separator : UInt8}
    (hseparator : isOptionalWhitespace separator = false) {text : Bytes} (h : IsBlank text) :
    listMembers text separator = [] := by
  rw [listMembers_of_notMem (isBlank_notMem hseparator h), trimBytes_of_isBlank h]
  rfl

theorem listMembers_around {separator : UInt8}
    (hseparator : isOptionalWhitespace separator = false) {left right member : Bytes}
    (hleft : IsBlank left) (hright : IsBlank right) (hmember : separator ∉ member) :
    listMembers (left ++ member ++ right) separator = listMembers member separator := by
  have hboth : separator ∉ left ++ member ++ right := by
    simp only [List.mem_append, not_or]
    exact ⟨⟨isBlank_notMem hseparator hleft, hmember⟩, isBlank_notMem hseparator hright⟩
  rw [listMembers_of_notMem hboth, listMembers_of_notMem hmember, trimBytes_around hleft hright]

/-- Whitespace at the end of a list. -/
theorem listMembers_append_blank {separator : UInt8}
    (hseparator : isOptionalWhitespace separator = false) {right : Bytes} (hright : IsBlank right)
    (list : Bytes) : listMembers (list ++ right) separator = listMembers list separator := by
  induction hlength : list.length using Nat.strong_induction_on generalizing list with
  | _ length ih =>
    cases hfind : find separator list with
    | none =>
      have hlist := find_eq_none_iff.1 hfind
      exact listMembers_around hseparator isBlank_nil hright hlist
    | some index =>
      obtain ⟨first, rest, rfl, -, -⟩ := find_eq_some_iff.1 hfind
      rw [List.append_assoc, List.cons_append, listMembers_append_cons, listMembers_append_cons,
        ih rest.length (by rw [← hlength, List.length_append, List.length_cons]; omega) rest rfl]

/-- Whitespace before a list. -/
theorem listMembers_blank_append {separator : UInt8}
    (hseparator : isOptionalWhitespace separator = false) {left : Bytes} (hleft : IsBlank left)
    (list : Bytes) : listMembers (left ++ list) separator = listMembers list separator := by
  cases hfind : find separator list with
  | none =>
    have haround := listMembers_around hseparator hleft isBlank_nil (find_eq_none_iff.1 hfind)
    rwa [List.append_nil] at haround
  | some index =>
    obtain ⟨first, rest, rfl, hfirst, -⟩ := find_eq_some_iff.1 hfind
    have haround := listMembers_around hseparator hleft isBlank_nil hfirst
    rw [List.append_nil] at haround
    rw [← List.append_assoc, listMembers_append_cons, haround, listMembers_append_cons]

/-- An empty member is inserted into a list, or whitespace around a member. -/
inductive Relaid (separator : UInt8) : Bytes → Bytes → Prop where
  | blank (before after : List Bytes) {text : Bytes} (h : IsBlank text) :
    Relaid separator (List.intercalate [separator] (before ++ after))
      (List.intercalate [separator] (before ++ text :: after))
  | around (before after : List Bytes) {left member right : Bytes} (hmember : separator ∉ member)
    (hleft : IsBlank left) (hright : IsBlank right) :
    Relaid separator (List.intercalate [separator] (before ++ member :: after))
      (List.intercalate [separator] (before ++ (left ++ member ++ right) :: after))

theorem Relaid.listMembers_eq {separator : UInt8}
    (hseparator : isOptionalWhitespace separator = false) {list list' : Bytes}
    (h : Relaid separator list list') : listMembers list' separator = listMembers list separator := by
  cases h with
  | blank before after h =>
    rw [listMembers_intercalate, listMembers_intercalate, List.flatMap_append, List.flatMap_append,
      List.flatMap_cons, listMembers_of_isBlank hseparator h, List.nil_append]
  | around before after hmember hleft hright =>
    rw [listMembers_intercalate, listMembers_intercalate, List.flatMap_append, List.flatMap_append,
      List.flatMap_cons, List.flatMap_cons, listMembers_around hseparator hleft hright hmember]

/-! ### A coding and its parameters -/

theorem trimBytes_append_cons {separator : UInt8}
    (hseparator : isOptionalWhitespace separator = false) (before after : Bytes) :
    trimBytes (before ++ separator :: after) =
      before.dropWhile isOptionalWhitespace ++
        separator :: after.rdropWhile isOptionalWhitespace := by
  have hleft : (before ++ separator :: after).dropWhile isOptionalWhitespace =
      before.dropWhile isOptionalWhitespace ++ separator :: after := by
    rw [List.dropWhile_append]
    split_ifs with hempty
    · rw [List.isEmpty_iff.1 hempty, List.dropWhile_cons, hseparator]
      rfl
    · rfl
  rw [trimBytes, trim, hleft, List.rdropWhile, List.reverse_append, List.reverse_cons,
    List.append_assoc, List.singleton_append, List.dropWhile_append]
  split_ifs with hempty
  · rw [List.rdropWhile, List.isEmpty_iff.1 hempty, List.dropWhile_cons, hseparator]
    simp
  · rw [List.rdropWhile]
    simp

/-- A member with parameters says what its coding says, under its parameters. -/
theorem acceptMember_of_parameters {coding : Bytes} (hcoding : byte ';' ∉ coding)
    (parameters : Bytes) (acceptable : Option Bool × Option Bool) :
    acceptMember acceptable (trimBytes (coding ++ byte ';' :: parameters)) =
      if equalsIgnoreCase (trimBytes coding) (ascii "gzip") ||
          equalsIgnoreCase (trimBytes coding) (ascii "x-gzip") then
        (some !ErikslundHttp.qualityIsZero parameters, acceptable.2)
      else if trimBytes coding == ascii "*" then
        (acceptable.1, some !ErikslundHttp.qualityIsZero parameters)
      else acceptable := by
  have hleft : byte ';' ∉ coding.dropWhile isOptionalWhitespace := fun hmem =>
    hcoding ((List.dropWhile_sublist _).subset hmem)
  have htrimmed : trimBytes (coding.dropWhile isOptionalWhitespace) = trimBytes coding := by
    have h := trimBytes_around (isBlank_takeWhile coding) isBlank_nil
      (coding.dropWhile isOptionalWhitespace)
    rwa [List.takeWhile_append_dropWhile, List.append_nil, eq_comm] at h
  have hquality : ErikslundHttp.qualityIsZero (parameters.rdropWhile isOptionalWhitespace) =
      ErikslundHttp.qualityIsZero parameters := by
    have hsemicolon : isOptionalWhitespace (byte ';') = false := by decide
    have h := listMembers_append_blank hsemicolon (isBlank_rtakeWhile parameters)
      (parameters.rdropWhile isOptionalWhitespace)
    rw [List.rdropWhile_append_rtakeWhile] at h
    rw [ErikslundHttp.qualityIsZero, ErikslundHttp.qualityIsZero, h]
  rw [trimBytes_append_cons (by decide), acceptMember, find_append_cons hleft]
  simp only [Option.getD_some, Option.all_some, List.take_left, drop_succ_append_cons, htrimmed,
    hquality]

/-! ### Rewriting the fields -/

/-- The fields whose values are read as lists. -/
def kListFieldNames : List Bytes := [ascii "Connection", ascii "Accept-Encoding"]

/-- The fields of a name, or the others. -/
def fieldsNamed (name : Bytes) (headers : List Header) : List Header :=
  headers.filter fun field => equalsIgnoreCase field.name name

/-- The fields of other names. -/
def otherFields (name : Bytes) (headers : List Header) : List Header :=
  headers.filter fun field => !equalsIgnoreCase field.name name

/-- One change of the fields. -/
inductive Rewriting : List Header → List Header → Prop where
  /-- The fields of one name become a single field, anywhere among the others. -/
  | join {headers before after : List Header} {name listName : Bytes}
    (hlist : listName ∈ kListFieldNames) (hname : equalsIgnoreCase name listName = true)
    (hothers : before ++ after = otherFields listName headers) :
    Rewriting headers (before ++
      ⟨name, List.intercalate [byte ','] (fieldValues listName headers)⟩ :: after)
  /-- Other fields are moved. -/
  | move {headers headers' : List Header} (hperm : headers.Perm headers')
    (hfields : ∀ listName ∈ kListFieldNames, fieldsNamed listName headers =
      fieldsNamed listName headers') : Rewriting headers headers'
  | relay (before after : List Header) (name : Bytes) {value value' : Bytes}
    (h : Relaid (byte ',') value value') :
    Rewriting (before ++ ⟨name, value⟩ :: after) (before ++ ⟨name, value'⟩ :: after)
  /-- A member of an `Accept-Encoding` field has a list of its own, of parameters. -/
  | relayParameters (before after : List Header) {name : Bytes}
    (hname : equalsIgnoreCase name (ascii "Accept-Encoding") = true)
    (members members' : List Bytes) {coding left right parameters parameters' : Bytes}
    (hcoding : byte ';' ∉ coding) (hmember : byte ',' ∉ coding ++ parameters)
    (hleft : IsBlank left) (hright : IsBlank right)
    (h : Relaid (byte ';') parameters parameters') :
    Rewriting
      (before ++ ⟨name, List.intercalate [byte ',']
        (members ++ (coding ++ byte ';' :: parameters) :: members')⟩ :: after)
      (before ++ ⟨name, List.intercalate [byte ',']
        (members ++ (left ++ coding ++ right ++ byte ';' :: parameters') :: members')⟩ :: after)

/-- The members of the fields of a name. -/
def fieldMembers (name : Bytes) (headers : List Header) : List Bytes :=
  (fieldValues name headers).flatMap (listMembers · (byte ','))

theorem fieldMembers_append (name : Bytes) (headers headers' : List Header) :
    fieldMembers name (headers ++ headers') =
      fieldMembers name headers ++ fieldMembers name headers' := by
  simp only [fieldMembers, fieldValues, List.filter_append, List.map_append, List.flatMap_append]

theorem fieldMembers_cons (name : Bytes) (field : Header) (headers : List Header) :
    fieldMembers name (field :: headers) =
      (if equalsIgnoreCase field.name name then listMembers field.value (byte ',') else []) ++
        fieldMembers name headers := by
  simp only [fieldMembers, fieldValues, List.filter_cons]
  split_ifs <;> rfl

theorem fieldMembers_eq_flatMap (name : Bytes) (headers : List Header) :
    fieldMembers name headers =
      (fieldsNamed name headers).flatMap fun field => listMembers field.value (byte ',') := by
  rw [fieldMembers, fieldValues, List.flatMap_map]
  rfl

theorem fieldMembers_eq_of_fieldsNamed {name : Bytes} {headers headers' : List Header}
    (h : fieldsNamed name headers = fieldsNamed name headers') :
    fieldMembers name headers = fieldMembers name headers' := by
  rw [fieldMembers_eq_flatMap, fieldMembers_eq_flatMap, h]

/-- The fields without those of one name. -/
theorem fieldMembers_otherFields (name other : Bytes) (headers : List Header)
    (h : equalsIgnoreCase name other = false) :
    fieldMembers name (otherFields other headers) = fieldMembers name headers := by
  refine fieldMembers_eq_of_fieldsNamed ?_
  rw [fieldsNamed, otherFields, List.filter_filter, fieldsNamed]
  refine List.filter_congr fun field _ => ?_
  cases hname : equalsIgnoreCase field.name name with
  | false => rfl
  | true =>
    rw [equalsIgnoreCase_congr_left hname, h]
    rfl

theorem fieldMembers_otherFields_self (name : Bytes) (headers : List Header) :
    fieldMembers name (otherFields name headers) = [] := by
  rw [fieldMembers_eq_flatMap, fieldsNamed, otherFields, List.filter_filter]
  simp

theorem fieldMembers_join {headers before after : List Header} {name listName other : Bytes}
    (hlist : listName ∈ kListFieldNames) (hname : equalsIgnoreCase name listName = true)
    (hothers : before ++ after = otherFields listName headers) (hother : other ∈ kListFieldNames) :
    fieldMembers other (before ++
      ⟨name, List.intercalate [byte ','] (fieldValues listName headers)⟩ :: after) =
        fieldMembers other headers := by
  have hdistinct : ∀ name ∈ kListFieldNames, ∀ name' ∈ kListFieldNames,
      name ≠ name' → equalsIgnoreCase name name' = false := by decide
  have hrest : fieldMembers other before ++ fieldMembers other after =
      fieldMembers other (otherFields listName headers) := by
    rw [← hothers, fieldMembers_append]
  rw [fieldMembers_append, fieldMembers_cons, listMembers_intercalate]
  by_cases hsame : other = listName
  · rw [hsame, fieldMembers_otherFields_self, List.append_eq_nil_iff] at hrest
    rw [hsame, if_pos hname, hrest.1, hrest.2, List.append_nil]
    rfl
  · have hno : equalsIgnoreCase name other = false := by
      rw [equalsIgnoreCase_congr_left hname]
      exact hdistinct listName hlist other hother (Ne.symm hsame)
    rw [hno, fieldMembers_otherFields other listName headers
      (hdistinct other hother listName hlist hsame)] at *
    exact hrest

/-! ### Answers -/

/-- The two lists of fields answer alike. -/
def SameAnswers (headers headers' : List Header) : Prop :=
  (∀ isVersion11, resolveKeepAlive headers isVersion11 = resolveKeepAlive headers' isVersion11) ∧
    resolveWantsGzip headers = resolveWantsGzip headers'

/-- The answers are made of the members. -/
theorem sameAnswers_of_members {headers headers' : List Header}
    (hconnection : fieldMembers (ascii "Connection") headers =
      fieldMembers (ascii "Connection") headers')
    (hencoding : ∀ acceptable, (fieldMembers (ascii "Accept-Encoding") headers).foldl acceptMember
      acceptable = (fieldMembers (ascii "Accept-Encoding") headers').foldl acceptMember acceptable) :
    SameAnswers headers headers' := by
  unfold fieldMembers at hconnection hencoding
  refine ⟨fun isVersion11 => ?_, ?_⟩
  · rw [resolveKeepAlive_eq, resolveKeepAlive_eq, ErikslundHttp.resolveKeepAlive,
      ErikslundHttp.resolveKeepAlive, hconnection]
  · rw [resolveWantsGzip_eq, resolveWantsGzip_eq, ErikslundHttp.resolveWantsGzip,
      ErikslundHttp.resolveWantsGzip, hencoding]

theorem sameAnswers_of_fieldMembers {headers headers' : List Header}
    (h : ∀ name ∈ kListFieldNames, fieldMembers name headers' = fieldMembers name headers) :
    SameAnswers headers headers' := by
  have hencoding := h (ascii "Accept-Encoding") (by decide)
  exact sameAnswers_of_members (h (ascii "Connection") (by decide)).symm fun _ => by rw [hencoding]

theorem mem_intercalate_iff {separator character : UInt8} (hne : character ≠ separator)
    (values : List Bytes) :
    character ∈ List.intercalate [separator] values ↔ ∃ value ∈ values, character ∈ value := by
  induction values with
  | nil => simp
  | cons value values ih =>
    cases values with
    | nil => simp
    | cons next values =>
      rw [List.intercalate_cons_cons, List.mem_append, List.mem_append, ih, List.mem_singleton]
      simp [hne]

theorem Relaid.notMem {separator character : UInt8} (hne : character ≠ separator)
    (hcharacter : isOptionalWhitespace character = false) {list list' : Bytes}
    (h : Relaid separator list list') (hlist : character ∉ list) : character ∉ list' := by
  cases h with
  | blank before after h =>
    rw [mem_intercalate_iff hne] at hlist ⊢
    rintro ⟨value, hvalue, hmem⟩
    rcases List.mem_append.1 hvalue with hvalue | hvalue
    · exact hlist ⟨value, List.mem_append_left _ hvalue, hmem⟩
    rcases List.mem_cons.1 hvalue with rfl | hvalue
    · exact isBlank_notMem hcharacter h hmem
    · exact hlist ⟨value, List.mem_append_right _ hvalue, hmem⟩
  | @around before after left member right hmember hleft hright =>
    rw [mem_intercalate_iff hne] at hlist ⊢
    rintro ⟨value, hvalue, hmem⟩
    rcases List.mem_append.1 hvalue with hvalue | hvalue
    · exact hlist ⟨value, List.mem_append_left _ hvalue, hmem⟩
    rcases List.mem_cons.1 hvalue with rfl | hvalue
    · rcases List.mem_append.1 hmem with hmem | hmem
      · rcases List.mem_append.1 hmem with hmem | hmem
        · exact isBlank_notMem hcharacter hleft hmem
        · exact hlist ⟨member, List.mem_append_right _ List.mem_cons_self, hmem⟩
      · exact isBlank_notMem hcharacter hright hmem
    · exact hlist ⟨value, List.mem_append_right _ (List.mem_cons_of_mem _ hvalue), hmem⟩

theorem listMembers_of_parameters {coding parameters : Bytes} (hcoding : byte ',' ∉ coding)
    (hparameters : byte ',' ∉ parameters) :
    listMembers (coding ++ byte ';' :: parameters) (byte ',') =
      [trimBytes (coding ++ byte ';' :: parameters)] := by
  have hmember : byte ',' ∉ coding ++ byte ';' :: parameters := by
    simp only [List.mem_append, List.mem_cons, not_or]
    exact ⟨hcoding, by decide, hparameters⟩
  rw [listMembers_of_notMem hmember, trimBytes_append_cons (by decide)]
  simp

/-- What a member with parameters says does not depend on their layout. -/
theorem foldl_acceptMember_relayParameters {coding left right parameters parameters' : Bytes}
    (hcoding : byte ';' ∉ coding) (hmember : byte ',' ∉ coding ++ parameters)
    (hleft : IsBlank left) (hright : IsBlank right) (h : Relaid (byte ';') parameters parameters')
    (acceptable : Option Bool × Option Bool) :
    (listMembers (left ++ coding ++ right ++ byte ';' :: parameters') (byte ',')).foldl acceptMember
      acceptable =
    (listMembers (coding ++ byte ';' :: parameters) (byte ',')).foldl acceptMember acceptable := by
  rw [List.mem_append, not_or] at hmember
  have haround {character : UInt8} (hcharacter : isOptionalWhitespace character = false)
      (hcoding : character ∉ coding) : character ∉ left ++ coding ++ right := by
    simp only [List.mem_append, not_or]
    exact ⟨⟨isBlank_notMem hcharacter hleft, hcoding⟩, isBlank_notMem hcharacter hright⟩
  have hquality : ErikslundHttp.qualityIsZero parameters' =
      ErikslundHttp.qualityIsZero parameters := by
    rw [ErikslundHttp.qualityIsZero, ErikslundHttp.qualityIsZero, h.listMembers_eq (by decide)]
  rw [listMembers_of_parameters hmember.1 hmember.2,
    listMembers_of_parameters (haround (by decide) hmember.1)
      (h.notMem (by decide) (by decide) hmember.2),
    List.foldl_cons, List.foldl_cons, acceptMember_of_parameters hcoding,
    acceptMember_of_parameters (haround (by decide) hcoding), trimBytes_around hleft hright, hquality]

theorem Rewriting.sameAnswers {headers headers' : List Header} (h : Rewriting headers headers') :
    SameAnswers headers headers' := by
  cases h with
  | join hlist hname hothers =>
    exact sameAnswers_of_fieldMembers fun other hother =>
      fieldMembers_join hlist hname hothers hother
  | move hperm hfields =>
    exact sameAnswers_of_fieldMembers fun name hname =>
      (fieldMembers_eq_of_fieldsNamed (hfields name hname)).symm
  | relay before after name h =>
    refine sameAnswers_of_fieldMembers fun other _ => ?_
    rw [fieldMembers_append, fieldMembers_append, fieldMembers_cons, fieldMembers_cons,
      h.listMembers_eq (by decide)]
  | relayParameters before after hname members members' hcoding hmember hleft hright h =>
    have hno : equalsIgnoreCase _ (ascii "Connection") = false :=
      (equalsIgnoreCase_congr_left hname _).trans (by decide)
    refine sameAnswers_of_members ?_ fun acceptable => ?_
    · simp only [fieldMembers_append, fieldMembers_cons, hno]
      rfl
    · simp only [fieldMembers_append, fieldMembers_cons, hname, if_true, listMembers_intercalate,
        List.flatMap_append, List.flatMap_cons, List.foldl_append]
      rw [foldl_acceptMember_relayParameters hcoding hmember hleft hright h]

/-- **List fields.**  The fields of one name mean what one field with their values joined means, at
any place; and so they do after other fields are moved, and after empty members, or whitespace
around members or parameters, are inserted. -/
theorem list_fields_mean_the_same {headers headers' : List Header}
    (h : Relation.ReflTransGen Rewriting headers headers') :
    (∀ isVersion11, resolveKeepAlive headers isVersion11 = resolveKeepAlive headers' isVersion11) ∧
      resolveWantsGzip headers = resolveWantsGzip headers' := by
  induction h with
  | refl => exact ⟨fun _ => rfl, rfl⟩
  | tail _ hstep ih =>
    have hsame := hstep.sameAnswers
    exact ⟨fun isVersion11 => (ih.1 isVersion11).trans (hsame.1 isVersion11), ih.2.trans hsame.2⟩

/-- Two `Connection` fields around another one become the last field. -/
theorem list_fields_mean_the_same_joined :
    let host : Header := ⟨ascii "Host", ascii "a"⟩
    let separate := [⟨ascii "Connection", ascii "foo"⟩, host,
      ⟨ascii "connection", ascii "keep-alive"⟩]
    let joined := [host, ⟨ascii "Connection", ascii "foo,keep-alive"⟩]
    (∀ isVersion11, resolveKeepAlive separate isVersion11 = resolveKeepAlive joined isVersion11) ∧
      resolveWantsGzip separate = resolveWantsGzip joined := by
  intro host separate joined
  have hjoin : Rewriting separate joined :=
    @Rewriting.join separate [host] [] (ascii "Connection") (ascii "Connection") (by decide)
      (by decide) (by decide)
  exact list_fields_mean_the_same (.single hjoin)

end ListFields

end ErikslundHttp
