import ErikslundHttp.Request.HeadSpec

/-!
# Where the views of a request point

Two facts about the parser and addresses, both scanner by scanner:

* moving the buffer by `distance` bytes moves the borrowed views with it and changes nothing else
  (`findHead_shift`);
* every view of a parsed head that is not empty reads the head (`Within`), the decode arena, or the
  literal root path.
-/

namespace ErikslundHttp

open Scan Grammar

/-! ### Moving a buffer -/

/-- The buffer has moved by so much. -/
def Pointer.shift (distance : ℕ) : Pointer → Pointer
  | .buffer address => .buffer (address + distance)
  | p => p

theorem Pointer.shift_add (distance : ℕ) (p : Pointer) (offset : ℕ) :
    (p.add offset).shift distance = (p.shift distance).add offset := by
  cases p <;> simp [add, shift, Nat.add_right_comm]

namespace View

/-- The view `distance` bytes further in the address space. -/
def shift (distance : ℕ) (v : View) : View := ⟨v.data.shift distance, v.bytes⟩

variable (distance : ℕ) (v : View)

@[simp] theorem bytes_shift : (v.shift distance).bytes = v.bytes := rfl
@[simp] theorem size_shift : (v.shift distance).size = v.size := rfl
@[simp] theorem isEmpty_shift : (v.shift distance).isEmpty = v.isEmpty := rfl
@[simp] theorem shift_default : (default : View).shift distance = default := rfl
@[simp] theorem shift_rootPath : rootPath.shift distance = rootPath := rfl

@[simp] theorem shift_substr (offset length : ℕ) :
    (v.shift distance).substr offset length = (v.substr offset length).shift distance := by
  simp [substr, shift, Pointer.shift_add]

@[simp] theorem shift_removePrefix (count : ℕ) :
    (v.shift distance).removePrefix count = (v.removePrefix count).shift distance := by
  simp [removePrefix, shift, Pointer.shift_add]

end View

variable (distance : ℕ)

theorem trimOptionalWhitespace_shift (v : View) : trimOptionalWhitespace (v.shift distance) =
    (trimOptionalWhitespace v).shift distance := by
  simp [trimOptionalWhitespace, View.shift, Pointer.shift_add]

theorem parseRequestLine_shift (line : View) : parseRequestLine (line.shift distance) =
    (parseRequestLine line).map fun r => { r with target := r.target.shift distance } := by
  simp only [parseRequestLine, View.bytes_shift, View.shift_substr, View.isEmpty_shift, map_bind_eq,
    map_pure_eq]

theorem parseFieldLine_shift (line : View) : parseFieldLine (line.shift distance) =
    (parseFieldLine line).map (HeaderView.map (View.shift distance)) := by
  simp only [parseFieldLine, View.bytes_shift, View.shift_substr, View.shift_removePrefix,
    trimOptionalWhitespace_shift, map_bind_eq, map_pure_eq]
  rfl

theorem parseFieldLines_shift (maximum fuel : ℕ) (v : View) (out : List (HeaderView View)) :
    parseFieldLines maximum fuel (v.shift distance)
        (out.map (HeaderView.map (View.shift distance))) =
      (parseFieldLines maximum fuel v out).map
        (List.map (HeaderView.map (View.shift distance))) := by
  induction fuel generalizing v out with
  | zero => rfl
  | succ fuel ih =>
    have hout : ∀ field : HeaderView View, out.map (HeaderView.map (View.shift distance)) ++
        [field.map (View.shift distance)] =
          (out ++ [field]).map (HeaderView.map (View.shift distance)) := by simp
    simp only [parseFieldLines, View.isEmpty_shift, View.bytes_shift, View.shift_substr,
      parseFieldLine_shift, View.shift_removePrefix, List.length_map]
    split_ifs
    · rfl
    · simp only [map_bind_eq, bind_map_eq, hout, ih]

theorem parseHeaderFields_shift (v : View) (maxHeaderCount : ℕ) :
    parseHeaderFields (v.shift distance) maxHeaderCount =
      (parseHeaderFields v maxHeaderCount).map (List.map (HeaderView.map (View.shift distance))) :=
  parseFieldLines_shift distance _ _ v []

theorem splitQuery_shift (v : View) : splitQuery (v.shift distance) =
    ((splitQuery v).1.shift distance, (splitQuery v).2.shift distance) := by
  simp only [splitQuery, View.bytes_shift, View.shift_substr, View.shift_removePrefix]
  split <;> rfl

/-- The parts of a target in a moved buffer. -/
def TargetParts.shift (parts : TargetParts) : TargetParts :=
  ⟨parts.path.shift distance, parts.query.shift distance, parts.authority.shift distance⟩

theorem splitPath_shift (authority remainder : View) :
    splitPath (authority.shift distance) (remainder.shift distance) =
      (splitPath authority remainder).map (TargetParts.shift distance) := by
  simp only [splitPath, splitQuery_shift, View.isEmpty_shift, View.bytes_shift]
  split_ifs
  · rfl
  · simp only [map_bind_eq, map_pure_eq]
    rfl

theorem splitAuthority_shift (target : View) : splitAuthority (target.shift distance) =
    (splitAuthority target).map (Prod.map (View.shift distance) (View.shift distance)) := by
  simp only [splitAuthority, View.bytes_shift, View.shift_substr, View.shift_removePrefix,
    View.isEmpty_shift, View.size_shift, map_bind_eq, map_pure_eq]
  congr 1
  funext schemeEnd
  congr 1
  funext _
  cases (target.removePrefix (schemeEnd + 3)).bytes.findIdx? endsAuthority <;> rfl

theorem splitTarget_shift (target : View) : splitTarget (target.shift distance) =
    (splitTarget target).map (TargetParts.shift distance) := by
  simp only [splitTarget, View.bytes_shift, splitAuthority_shift, map_bind_eq]
  congr 1
  funext _
  split_ifs
  · exact splitPath_shift distance default target
  · simp only [bind_map_eq, map_bind_eq, Prod.map, splitPath_shift]

theorem findHost_shift (host : Option View) (headers : List (HeaderView View)) :
    findHost (host.map (View.shift distance))
        (headers.map (HeaderView.map (View.shift distance))) =
      (findHost host headers).map (Option.map (View.shift distance)) := by
  induction headers generalizing host with
  | nil => rfl
  | cons field headers ih =>
    simp only [findHost, List.map_cons, HeaderView.map, View.bytes_shift, Option.isSome_map]
    split_ifs
    · exact ih host
    · rfl
    · exact ih (some field.value)

theorem resolveAuthority_shift (pton : InetPton) (headers : List (HeaderView View))
    (targetAuthority : View) (isVersion11 : Bool) :
    resolveAuthority pton (headers.map (HeaderView.map (View.shift distance)))
        (targetAuthority.shift distance) isVersion11 =
      (resolveAuthority pton headers targetAuthority isVersion11).map (View.shift distance) := by
  have hhost := findHost_shift distance none headers
  rw [Option.map_none] at hhost
  simp only [resolveAuthority, hhost, bind_map_eq, map_bind_eq, Option.isSome_map,
    View.isEmpty_shift, View.bytes_shift]
  congr 1
  funext host
  by_cases hempty : targetAuthority.isEmpty = true <;>
    simp only [hempty, if_true, if_false, Bool.false_eq_true, map_bind_eq, map_pure_eq] <;>
    cases host <;> rfl

/-- The same request with its borrowed views replaced. -/
def Request.mapBorrowed (f : View → View) (r : Request View) : Request View :=
  { r with
    rawTarget := f r.rawTarget
    path := f r.path
    query := f r.query
    authority := f r.authority
    headers := r.headers.map (HeaderView.map f) }

theorem map_bytes_shift (headers : List (HeaderView View)) :
    (headers.map (HeaderView.map (View.shift distance))).map (HeaderView.map View.bytes) =
      headers.map (HeaderView.map View.bytes) := by
  rw [List.map_map]
  rfl

theorem parseHeadAt_shift (pton : InetPton) (now : TimePoint) (v : View) (limits : RequestLimits)
    (requestLineEnd terminator : ℕ) :
    parseHeadAt pton now (v.shift distance) limits requestLineEnd terminator =
      (parseHeadAt pton now v limits requestLineEnd terminator).map
        (Prod.map (Request.mapBorrowed (View.shift distance)) id) := by
  simp only [parseHeadAt, View.shift_substr, parseRequestLine_shift, parseHeaderFields_shift,
    splitTarget_shift, bind_map_eq, View.size_shift, map_bytes_shift, map_bind_eq, map_pure_eq,
    resolveAuthority_shift, TargetParts.shift, View.bytes_shift, View.isEmpty_shift]
  rfl

/-- **Moving the buffer** moves the borrowed views of the head with it. -/
theorem findHead_shift (pton : InetPton) (now : TimePoint) (v : View) (limits : RequestLimits) :
    findHead pton now (v.shift distance) limits = (findHead pton now v limits).map
      fun head => { head with request := head.request.mapBorrowed (View.shift distance) } := by
  simp only [findHead, View.shift_removePrefix, View.bytes_shift, View.size_shift, map_bind_eq]
  congr 1
  funext _
  split
  · simp only [map_bind_eq]
    rfl
  · simp only [parseHeadAt_shift, bind_map_eq, map_bind_eq, map_pure_eq]
    rfl

/-- The clock is read once, for the time of receipt. -/
theorem findHead_now (pton : InetPton) (now now' : TimePoint) (v : View) (limits : RequestLimits) :
    findHead pton now' v limits = (findHead pton now v limits).map
      fun head => { head with request := { head.request with receivedAt := now' } } := by
  simp only [findHead, map_bind_eq]
  congr 1
  funext _
  split
  · simp only [map_bind_eq]
    rfl
  · simp only [parseHeadAt, map_bind_eq, map_pure_eq, bind_assoc, pure_bind]

/-- The head is read through two parts of the bytes only. -/
theorem parseHeadAt_congr {pton : InetPton} {now : TimePoint} {v w : View} {limits : RequestLimits}
    {e t : ℕ} (hline : v.substr 0 e = w.substr 0 e)
    (htext : v.substr (e + 2) (t + 2 - (e + 2)) = w.substr (e + 2) (t + 2 - (e + 2))) :
    parseHeadAt pton now v limits e t = parseHeadAt pton now w limits e t := by
  simp only [parseHeadAt, hline, htext]

/-- Bytes after the head do not change what is found in it. -/
theorem findHead_append {pton : InetPton} {now : TimePoint} {data : Pointer} {b : Bytes}
    {limits : RequestLimits} {head : ParsedHead}
    (h : findHead pton now ⟨data, b⟩ limits = .ok head) (c : Bytes) :
    findHead pton now ⟨data, b ++ c⟩ limits = .ok head := by
  have hpro : prologueBytes (b ++ c) = prologueBytes b ∧ prologueBytes b ≤ b.length := by
    obtain ⟨h, rest, hwf, hb, -⟩ := findHead_map_eq_ok_iff.1 (map_eq_ok.2 ⟨head, h, rfl⟩)
    dsimp only at hb
    rw [hb, List.append_assoc, h.render_append, h.render_append, hwf.prologueBytes_eq,
      hwf.prologueBytes_eq, List.length_append]
    exact ⟨rfl, Nat.le_add_right _ _⟩
  obtain ⟨e, t, he, ht, hline, hblock, hat, hoff⟩ := findHead_eq_ok_iff.1 h
  have hdrop : (View.removePrefix ⟨data, b ++ c⟩ (prologueBytes (b ++ c))).bytes =
      (View.removePrefix ⟨data, b⟩ (prologueBytes b)).bytes ++ c := by
    rw [View.bytes_removePrefix, View.bytes_removePrefix, hpro.1,
      List.drop_append_of_le_length hpro.2]
  refine findHead_eq_ok_iff.2 ⟨e, t, ?_, ?_, hline, hblock, ?_, by rw [hoff, hpro.1]⟩
  · rw [hdrop]
    exact findSub_append (by decide) he c
  · rw [hdrop]
    exact findSub_append (by decide) ht c
  · obtain ⟨line, text, rest, he', hs, htlen⟩ := exists_cut_of_terminator ht
    obtain rfl : line.length = e := Option.some.inj (he'.symm.trans he)
    obtain ⟨hl, htext⟩ := substr_of_cut hs htlen
    have hs' : (View.removePrefix ⟨data, b ++ c⟩ (prologueBytes (b ++ c))).bytes =
        line ++ crlf ++ text ++ crlf ++ (rest ++ c) := by
      rw [hdrop, ← List.append_assoc]
      exact congrArg (· ++ c) hs
    obtain ⟨hl', htext'⟩ := substr_of_cut hs' htlen
    rw [← hat]
    have hdata : (View.removePrefix ⟨data, b ++ c⟩ (prologueBytes (b ++ c))).data =
        (View.removePrefix ⟨data, b⟩ (prologueBytes b)).data := by
      rw [View.removePrefix, View.removePrefix, hpro.1]
    refine parseHeadAt_congr (View.ext ?_ (hl'.trans hl.symm)) (View.ext ?_ (htext'.trans htext.symm))
    · exact congrArg (Pointer.add · _) hdata
    · exact congrArg (Pointer.add · _) hdata

/-! ### Where views point -/

theorem Pointer.add_add (p : Pointer) (a b : ℕ) : (p.add a).add b = p.add (a + b) := by
  cases p <;> simp [add, Nat.add_assoc]

/-- `x` is empty, or it reads the bytes of `v` from some offset on. -/
def Within (v x : View) : Prop :=
  x.bytes = [] ∨ ∃ offset, offset + x.size ≤ v.size ∧ x = v.substr offset x.size

theorem Within.trans {u v x : View} (huv : Within u v) (hvx : Within v x) : Within u x := by
  rcases hvx with hx | ⟨j, hj, hx⟩
  · exact .inl hx
  · rcases huv with hv | ⟨i, hi, hv⟩
    · left
      rw [hx, View.bytes_substr, hv]
      simp
    · refine .inr ⟨i + j, by omega, ?_⟩
      conv_lhs => rw [hx, hv]
      refine View.ext (Pointer.add_add _ _ _) ?_
      rw [View.bytes_substr, View.bytes_substr, View.bytes_substr, List.drop_take, List.take_take,
        List.drop_drop, Nat.min_eq_left (by omega)]

theorem within_substr (v : View) (offset length : ℕ) : Within v (v.substr offset length) := by
  by_cases h : offset ≤ v.size
  · refine .inr ⟨offset, ?_, ?_⟩
    · simp only [View.size, View.bytes_substr, List.length_take, List.length_drop] at h ⊢
      omega
    · refine View.ext rfl ?_
      simp [View.size]
  · left
    rw [View.bytes_substr, List.drop_of_length_le (by simpa [View.size] using Nat.le_of_not_le h)]
    simp

theorem within_removePrefix (v : View) (count : ℕ) : Within v (v.removePrefix count) := by
  have h : v.removePrefix count = v.substr count v.size := by
    refine View.ext rfl ?_
    rw [View.bytes_removePrefix, View.bytes_substr, List.take_of_length_le (by simp [View.size])]
  rw [h]
  exact within_substr v count v.size

theorem within_trim (v : View) : Within v (trimOptionalWhitespace v) := by
  have hdrop : v.bytes.drop (v.bytes.takeWhile isOptionalWhitespace).length =
      v.bytes.dropWhile isOptionalWhitespace :=
    (congrArg (List.drop _) List.takeWhile_append_dropWhile.symm).trans List.drop_left
  have htrim : trimBytes v.bytes <+: v.bytes.dropWhile isOptionalWhitespace :=
    List.rdropWhile_prefix _ _
  have h : trimOptionalWhitespace v = v.substr (v.bytes.takeWhile isOptionalWhitespace).length
      (trimBytes v.bytes).length := by
    refine View.ext rfl ?_
    rw [View.bytes_substr, hdrop]
    exact List.prefix_iff_eq_take.1 htrim
  rw [h]
  exact within_substr _ _ _

theorem within_refl (v : View) : Within v v :=
  .inr ⟨0, by simp, View.ext (by cases h : v.data <;> simp [View.substr, Pointer.add, h])
    (by simp [View.size])⟩

/-- A part of the bytes after the leading empty line is a part of the head. -/
theorem within_head (v : View) {p i j n : ℕ} (h : p + i + j ≤ n) :
    Within (v.substr 0 n) ((v.removePrefix p).substr i j) := by
  have heq : (v.removePrefix p).substr i j = (v.substr 0 n).substr (p + i) j := by
    refine View.ext ?_ ?_
    · simp only [View.removePrefix, View.substr, Pointer.add_add, Nat.zero_add]
    · simp only [View.bytes_substr, View.bytes_removePrefix, List.drop_zero, List.drop_drop,
        List.drop_take, List.take_take]
      rw [Nat.min_eq_left (by omega)]
  rw [heq]
  exact within_substr _ _ _

theorem within_of_parseRequestLine {line : View} {r : RequestLine}
    (h : parseRequestLine line = .ok r) : Within line r.target := by
  obtain ⟨target, -, -, -, -, htarget⟩ := parseRequestLine_eq_ok_iff.1 h
  rw [htarget]
  exact within_substr _ _ _

/-- Both strings of a field point into `v`. -/
def HeaderView.Within (v : View) (f : HeaderView View) : Prop :=
  ErikslundHttp.Within v f.name ∧ ErikslundHttp.Within v f.value

theorem within_of_parseFieldLine {line : View} {f : HeaderView View}
    (h : parseFieldLine line = .ok f) : f.Within line := by
  simp only [parseFieldLine, bind_eq_ok, ensure_eq_ok, exists_const, pure_eq_ok] at h
  obtain ⟨-, colon, -, -, -, -, rfl⟩ := h
  exact ⟨within_substr _ _ _, (within_removePrefix _ _).trans (within_trim _)⟩

theorem within_of_parseFieldLines {v w : View} (hw : Within v w) {maximum fuel : ℕ}
    {out hs : List (HeaderView View)} (hout : ∀ f ∈ out, f.Within v)
    (h : parseFieldLines maximum fuel w out = .ok hs) : ∀ f ∈ hs, f.Within v := by
  induction fuel generalizing w out with
  | zero =>
    cases h
    exact hout
  | succ fuel ih =>
    rw [parseFieldLines] at h
    split_ifs at h
    · cases h
      exact hout
    · simp only [bind_eq_ok, ensure_eq_ok, exists_const] at h
      obtain ⟨lineEnd, -, field, hfield, -, h⟩ := h
      have hf := within_of_parseFieldLine hfield
      refine ih (hw.trans (within_removePrefix _ _)) ?_ h
      simp only [List.mem_append, List.mem_singleton]
      rintro f (hmem | rfl)
      · exact hout f hmem
      · exact ⟨hw.trans ((within_substr _ _ _).trans hf.1),
          hw.trans ((within_substr _ _ _).trans hf.2)⟩

theorem within_of_splitPath {v authority remainder : View} {parts : TargetParts}
    (hr : Within v remainder) (h : splitPath authority remainder = .ok parts) :
    (parts.path = rootPath ∨ Within v parts.path) ∧ Within v parts.query ∧
      parts.authority = authority := by
  have hq : Within v (splitQuery remainder).1 ∧ Within v (splitQuery remainder).2 := by
    rw [splitQuery]
    split
    · exact ⟨hr, .inl rfl⟩
    · exact ⟨hr.trans (within_substr _ _ _), hr.trans (within_removePrefix _ _)⟩
  simp only [splitPath] at h
  split_ifs at h
  · rw [pure_eq_ok] at h
    subst h
    exact ⟨.inl rfl, hq.2, rfl⟩
  · simp only [bind_eq_ok, ensure_eq_ok, exists_const, pure_eq_ok] at h
    obtain ⟨-, rfl⟩ := h
    exact ⟨.inr hq.1, hq.2, rfl⟩

theorem within_of_splitTarget {target : View} {parts : TargetParts}
    (h : splitTarget target = .ok parts) :
    (parts.path = rootPath ∨ Within target parts.path) ∧ Within target parts.query ∧
      Within target parts.authority := by
  simp only [splitTarget, bind_eq_ok, ensure_eq_ok, exists_const] at h
  obtain ⟨-, h⟩ := h
  split_ifs at h
  · obtain ⟨hp, hq, ha⟩ := within_of_splitPath (within_refl target) h
    exact ⟨hp, hq, .inl (by rw [ha]; rfl)⟩
  · rw [bind_eq_ok] at h
    obtain ⟨⟨authority, remainder⟩, hauth, h⟩ := h
    simp only [splitAuthority, bind_eq_ok, ensure_eq_ok, exists_const, pure_eq_ok] at hauth
    obtain ⟨schemeEnd, -, -, -, heq⟩ := hauth
    obtain ⟨rfl, rfl⟩ := Prod.mk.inj heq
    have hrem := within_removePrefix target (schemeEnd + 3)
    obtain ⟨hp, hq, ha⟩ := within_of_splitPath (v := target) (by
      split
      · exact .inl rfl
      · exact hrem.trans (within_removePrefix _ _)) h
    exact ⟨hp, hq, ha ▸ hrem.trans (within_substr _ _ _)⟩

theorem within_of_findHost {v : View} {headers : List (HeaderView View)} {host host' : Option View}
    (hs : ∀ f ∈ headers, f.Within v) (hhost : ∀ x, host = some x → Within v x)
    (h : findHost host headers = .ok host') : ∀ x, host' = some x → Within v x := by
  induction headers generalizing host with
  | nil =>
    cases h
    exact hhost
  | cons f headers ih =>
    obtain ⟨hf, hs⟩ := List.forall_mem_cons.1 hs
    rw [findHost] at h
    split_ifs at h
    · exact ih hs hhost h
    · refine ih hs ?_ h
      rintro x ⟨⟩
      exact hf.2

theorem within_of_resolveAuthority {pton : InetPton} {v : View} {headers : List (HeaderView View)}
    {targetAuthority authority : View} {isVersion11 : Bool} (hs : ∀ f ∈ headers, f.Within v)
    (hta : Within v targetAuthority)
    (h : resolveAuthority pton headers targetAuthority isVersion11 = .ok authority) :
    Within v authority := by
  simp only [resolveAuthority, bind_eq_ok, ensure_eq_ok, exists_const] at h
  obtain ⟨host, hhost, -, -, h⟩ := h
  split_ifs at h
  · rw [pure_eq_ok] at h
    subst h
    cases host with
    | none => exact .inl rfl
    | some host => exact within_of_findHost hs (by simp) hhost host rfl
  · simp only [bind_eq_ok, ensure_eq_ok, exists_const, pure_eq_ok] at h
    obtain ⟨-, -, rfl⟩ := h
    exact hta

/-- A view that reads a decode arena. -/
def InArena (arena : Bytes) (x : View) : Prop :=
  ∃ offset, x.data = .arena offset ∧ offset + x.size ≤ arena.length ∧
    x.bytes = (arena.drop offset).take x.size

theorem InArena.append {arena : Bytes} {x : View} (h : InArena arena x) (rest : Bytes) :
    InArena (arena ++ rest) x := by
  obtain ⟨offset, hdata, hle, hbytes⟩ := h
  refine ⟨offset, hdata, by simp; omega, ?_⟩
  rw [List.drop_append_of_le_length (by omega), List.take_append_of_le_length (by simp; omega)]
  exact hbytes

theorem inArena_of_decodePairsInto {pairs : List Bytes} {arena arena' : Bytes}
    {out out' : List (HeaderView View)} (hout : ∀ f ∈ out, InArena arena f.name ∧ InArena arena f.value)
    (h : decodePairsInto arena out pairs = .ok (arena', out')) :
    ∀ f ∈ out', InArena arena' f.name ∧ InArena arena' f.value := by
  induction pairs generalizing arena out with
  | nil =>
    cases h
    exact hout
  | cons pair pairs ih =>
    simp only [decodePairsInto] at h
    split_ifs at h
    · exact ih hout h
    · simp only [bind_eq_ok, ensure_eq_ok, exists_const, orFail_eq_ok,
        decodeQueryComponentInto_eq_some_iff] at h
      obtain ⟨-, _, ⟨name, -, rfl⟩, _, ⟨value, -, rfl⟩, h⟩ := h
      refine ih ?_ h
      simp only [List.mem_append, List.mem_singleton]
      rintro f (hmem | rfl)
      · exact ⟨((hout f hmem).1.append name).append value, ((hout f hmem).2.append name).append value⟩
      · refine ⟨⟨arena.length, rfl, ?_, ?_⟩, ⟨(arena ++ name).length, rfl, ?_, ?_⟩⟩ <;>
          simp [View.size, Nat.add_assoc]

/-- Where the views of a parsed head point: into the head, or to the literal root path, or into the
arena. -/
structure Request.ViewsIn (v : View) (r : Request View) : Prop where
  rawTarget : Within v r.rawTarget
  path : r.path = rootPath ∨ Within v r.path
  query : Within v r.query
  authority : Within v r.authority
  headers : ∀ f ∈ r.headers, f.Within v
  queryParameters : ∀ f ∈ r.queryParameters, ∃ arena, r.decodeArena = some arena ∧
    InArena arena f.name ∧ InArena arena f.value

theorem decodeQueryInto_nil : decodeQueryInto [] [] = .ok ([], []) := rfl

theorem viewsIn_of_parseHeadAt {pton : InetPton} {now : TimePoint} {v u : View}
    {limits : RequestLimits} {e t : ℕ} {r : Request View} {n : ℕ}
    (hline : Within u (v.substr 0 e)) (htext : Within u (v.substr (e + 2) (t + 2 - (e + 2))))
    (h : parseHeadAt pton now v limits e t = .ok (r, n)) : r.ViewsIn u := by
  simp only [parseHeadAt, bind_eq_ok, ensure_eq_ok, exists_const, pure_eq_ok] at h
  obtain ⟨rl, hrl, -, headers, hheaders, cl, -, parts, hparts, authority, hauth, -,
    ⟨arena, params⟩, hquery, heq⟩ := h
  obtain ⟨rfl, rfl⟩ := Prod.mk.inj heq
  have htarget := hline.trans (within_of_parseRequestLine hrl)
  have hs := within_of_parseFieldLines htext (by simp) hheaders
  obtain ⟨hp, hq, ha⟩ := within_of_splitTarget hparts
  refine ⟨htarget, hp.imp_right htarget.trans, htarget.trans hq,
    within_of_resolveAuthority hs (htarget.trans ha) hauth, hs, fun f hf => ?_⟩
  by_cases hempty : parts.query.isEmpty = true
  · have hnil : parts.query.bytes = [] := by simpa [View.isEmpty] using hempty
    rw [hnil, decodeQueryInto_nil] at hquery
    cases hquery
    cases hf
  · exact ⟨arena, if_neg hempty, inArena_of_decodePairsInto (by simp) hquery f hf⟩

/-- **Every view of a parsed head** points into the head, to the root path, or into the arena. -/
theorem viewsIn_of_findHead {pton : InetPton} {now : TimePoint} {v : View} {limits : RequestLimits}
    {head : ParsedHead} (h : findHead pton now v limits = .ok head) :
    head.request.ViewsIn (v.substr 0 head.bodyOffset) := by
  obtain ⟨e, t, he, ht, -, -, hat, hoff⟩ := findHead_eq_ok_iff.1 h
  obtain ⟨line, text, rest, he', -, htlen⟩ := exists_cut_of_terminator ht
  obtain rfl : line.length = e := Option.some.inj (he'.symm.trans he)
  simp only [List.length_append, length_crlf] at htlen
  exact viewsIn_of_parseHeadAt (within_head v (by omega)) (within_head v (by omega)) hat

end ErikslundHttp
