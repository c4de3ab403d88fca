import ErikslundHttp.Request.Views

/-!
# Requests that need more data

A request needs more data for two reasons only: its header block has no end yet, or its body is
shorter than declared.  Both are checked against a limit before.

* `length_le_of_needsMoreData`: a parser that asks for more has seen no more than one leading empty
  line, a header block and a body.
-/

namespace ErikslundHttp

open Grammar Scan

/-! ### A complete head does not need more data -/

theorem avoids_parseRequestLine (line : View) : Avoids .needsMoreData (parseRequestLine line) := by
  rw [parseRequestLine]
  refine (avoids_orFail (by decide) _).bind fun methodEnd => ?_
  refine (avoids_ensure (by decide) _).bind fun _ => ?_
  refine (avoids_orFail (by decide) _).bind fun targetEnd => ?_
  refine (avoids_ensure (by decide) _).bind fun _ => ?_
  refine (avoids_ensure (by decide) _).bind fun _ => ?_
  refine (avoids_orFail (by decide) _).bind fun method => ?_
  refine (avoids_ensure (by decide) _).bind fun _ => ?_
  exact (avoids_ensure (by decide) _).bind fun _ => avoids_pure _ _

theorem avoids_parseFieldLine (line : View) : Avoids .needsMoreData (parseFieldLine line) := by
  rw [parseFieldLine]
  refine (avoids_ensure (by decide) _).bind fun _ => ?_
  refine (avoids_orFail (by decide) _).bind fun colon => ?_
  refine (avoids_ensure (by decide) _).bind fun _ => ?_
  refine (avoids_ensure (by decide) _).bind fun _ => ?_
  exact (avoids_ensure (by decide) _).bind fun _ => avoids_pure _ _

theorem avoids_parseFieldLines (effectiveMaximum fuel : ℕ) (fieldLines : View)
    (out : List (HeaderView View)) :
    Avoids .needsMoreData (parseFieldLines effectiveMaximum fuel fieldLines out) := by
  induction fuel generalizing fieldLines out with
  | zero => exact avoids_ok _ _
  | succ fuel ih =>
    rw [parseFieldLines]
    split_ifs
    · exact avoids_ok _ _
    · refine (avoids_orFail (by decide) _).bind fun lineEnd => ?_
      refine (avoids_parseFieldLine _).bind fun field => ?_
      exact (avoids_ensure (by decide) _).bind fun _ => ih _ _

theorem avoids_declaredLength (sawTransferEncoding : Bool) (declared : Option ℕ)
    (headers : List Header) :
    Avoids .needsMoreData (declaredLength sawTransferEncoding declared headers) := by
  induction headers generalizing sawTransferEncoding declared with
  | nil => exact avoids_ok _ _
  | cons field rest ih =>
    rw [declaredLength]
    split_ifs
    · exact ih _ _
    · exact ih _ _
    · split
      · exact avoids_error (by decide)
      · exact avoids_error (by decide)
      · split_ifs
        · exact avoids_error (by decide)
        · exact ih _ _

theorem avoids_resolveContentLength (headers : List Header) (maxBodyBytes : ℕ) :
    Avoids .needsMoreData (resolveContentLength headers maxBodyBytes) := by
  rw [resolveContentLength]
  refine (avoids_declaredLength _ _ _).bind fun declared => ?_
  refine (avoids_ensure (by decide) _).bind fun _ => ?_
  exact (avoids_ensure (by decide) _).bind fun _ => avoids_pure _ _

theorem avoids_splitPath (authority remainder : View) :
    Avoids .needsMoreData (splitPath authority remainder) := by
  rw [splitPath]
  dsimp only
  split_ifs
  · exact avoids_pure _ _
  · exact (avoids_ensure (by decide) _).bind fun _ => avoids_pure _ _

theorem avoids_splitTarget (target : View) : Avoids .needsMoreData (splitTarget target) := by
  rw [splitTarget]
  refine (avoids_ensure (by decide) _).bind fun _ => ?_
  split_ifs
  · exact avoids_splitPath _ _
  · refine Avoids.bind ?_ fun parts => avoids_splitPath _ _
    rw [splitAuthority]
    refine (avoids_orFail (by decide) _).bind fun schemeEnd => ?_
    refine (avoids_ensure (by decide) _).bind fun _ => ?_
    exact (avoids_ensure (by decide) _).bind fun _ => avoids_pure _ _

theorem avoids_findHost (host : Option View) (headers : List (HeaderView View)) :
    Avoids .needsMoreData (findHost host headers) := by
  induction headers generalizing host with
  | nil => exact avoids_ok _ _
  | cons field rest ih =>
    rw [findHost]
    split_ifs
    · exact ih _
    · exact avoids_error (by decide)
    · exact ih _

theorem avoids_resolveAuthority (pton : InetPton) (headers : List (HeaderView View))
    (targetAuthority : View) (isVersion11 : Bool) :
    Avoids .needsMoreData (resolveAuthority pton headers targetAuthority isVersion11) := by
  rw [resolveAuthority]
  refine (avoids_findHost _ _).bind fun host => ?_
  refine (avoids_ensure (by decide) _).bind fun _ => ?_
  refine (avoids_ensure (by decide) _).bind fun _ => ?_
  split_ifs
  · exact avoids_pure _ _
  · refine (avoids_ensure (by decide) _).bind fun _ => ?_
    exact (avoids_ensure (by decide) _).bind fun _ => avoids_pure _ _

theorem avoids_decodePairsInto (arena : Bytes) (out : List (HeaderView View)) (pairs : List Bytes) :
    Avoids .needsMoreData (decodePairsInto arena out pairs) := by
  induction pairs generalizing arena out with
  | nil => exact avoids_ok _ _
  | cons pair rest ih =>
    rw [decodePairsInto]
    dsimp only
    split_ifs
    · exact ih _ _
    · refine (avoids_ensure (by decide) _).bind fun _ => ?_
      refine (avoids_orFail (by decide) _).bind fun named => ?_
      exact (avoids_orFail (by decide) _).bind fun valued => ih _ _

theorem avoids_parseHeadAt (pton : InetPton) (now : TimePoint) (requestBytes : View)
    (limits : RequestLimits) (requestLineEnd terminator : ℕ) : Avoids .needsMoreData
      (parseHeadAt pton now requestBytes limits requestLineEnd terminator) := by
  rw [parseHeadAt]
  refine (avoids_parseRequestLine _).bind fun line => ?_
  refine (avoids_ensure (by decide) _).bind fun _ => ?_
  refine (avoids_parseFieldLines _ _ _ _).bind fun headers => ?_
  refine (avoids_resolveContentLength _ _).bind fun contentLength => ?_
  refine (avoids_splitTarget _).bind fun target => ?_
  refine (avoids_resolveAuthority _ _ _ _).bind fun authority => ?_
  refine (avoids_ensure (by decide) _).bind fun _ => ?_
  exact (avoids_decodePairsInto _ _ _).bind fun decoded => avoids_pure _ _

/-! ### The bytes of a request that is not complete -/

variable {pton : InetPton} {now : TimePoint} {v : View} {limits : RequestLimits}

/-- The most a parser can see of a request before it is complete. -/
def maxRequestBytes (limits : RequestLimits) : ℕ :=
  2 + limits.maxHeaderBlockBytes.toNat + limits.maxBodyBytes.toNat

theorem prologueBytes_le (bytes : Bytes) : prologueBytes bytes ≤ 2 := by
  rw [prologueBytes]
  split_ifs
  · exact Nat.le_refl 2
  · exact Nat.zero_le 2

/-- A head that is not complete is shorter than its limit. -/
theorem length_le_of_findHead (h : findHead pton now v limits = .error .needsMoreData) :
    v.size ≤ 2 + limits.maxHeaderBlockBytes.toNat := by
  have hprologue := prologueBytes_le v.bytes
  rw [findHead] at h
  dsimp only at h
  by_cases hline : decide ((findSub crlf (v.removePrefix (prologueBytes v.bytes)).bytes).getD
      (v.removePrefix (prologueBytes v.bytes)).size ≤ limits.maxRequestLineBytes.toNat) = true
  · rw [ensure, if_pos hline, ok_bind] at h
    split at h
    · by_cases hblock : decide ((v.removePrefix (prologueBytes v.bytes)).size ≤
          limits.maxHeaderBlockBytes.toNat) = true
      · have hle := of_decide_eq_true hblock
        rw [View.size, View.bytes_removePrefix, List.length_drop] at hle
        rw [View.size]
        omega
      · rw [ensure, if_neg hblock] at h
        cases h
    · refine absurd h ((avoids_ensure (by decide) _).bind fun _ => ?_)
      exact (avoids_parseHeadAt _ _ _ _ _ _).bind fun parsed => avoids_pure _ _
  · rw [ensure, if_neg hline] at h
    cases h

/-- A complete head is within the limits. -/
theorem bodyEnd_le {head : ParsedHead} (h : findHead pton now v limits = .ok head) :
    head.bodyOffset + head.bodyBytes ≤ maxRequestBytes limits := by
  have hprologue := prologueBytes_le v.bytes
  obtain ⟨e, t, -, -, -, hblock, -, hoffset⟩ := findHead_eq_ok_iff.1 h
  obtain ⟨h', rest, hwf, -, hresult⟩ := findHead_map_eq_ok_iff.1 (map_eq_ok.2 ⟨head, h, rfl⟩)
  have hbody : head.bodyBytes = h'.contentLength := congrArg (fun r => r.2.2) hresult
  have hlength := hwf.length_le
  rw [maxRequestBytes, hoffset, hbody]
  omega

theorem length_le_of_needsMoreData (h : parseRequest pton now v limits = .error .needsMoreData) :
    v.size ≤ maxRequestBytes limits := by
  rw [parseRequest_eq] at h
  cases hhead : findHead pton now v limits with
  | error e =>
    rw [hhead] at h
    cases h
    exact (length_le_of_findHead hhead).trans (Nat.le_add_right _ _)
  | ok head =>
    rw [hhead, ok_bind, completeBody] at h
    split_ifs at h with hshort
    · exact hshort.le.trans (bodyEnd_le hhead)

/-! ### Asking again -/

namespace RequestParser

/-- The body is there or not; the lengths of the parser stay. -/
theorem parseBody_cases (p : RequestParser) (v : View) :
    (v.size < p.bodyOffset + p.bodyBytes ∧ ∃ p', p.parseBody v = (.error .needsMoreData, p') ∧
      p'.headComplete = p.headComplete ∧ p'.bodyOffset = p.bodyOffset ∧
      p'.bodyBytes = p.bodyBytes) ∨
    (¬ v.size < p.bodyOffset + p.bodyBytes ∧ ∃ r p', p.parseBody v = (.ok r, p')) := by
  by_cases hhead : v.size < p.bodyOffset
  · exact .inl ⟨Nat.lt_add_right _ hhead, p, by rw [parseBody, if_pos hhead], rfl, rfl, rfl⟩
  · have hlengths : (if v.data ≠ p.bufferBase then p.rebaseBorrowedViews v else p).headComplete =
        p.headComplete ∧ (if v.data ≠ p.bufferBase then p.rebaseBorrowedViews v
          else p).bodyOffset = p.bodyOffset ∧
        (if v.data ≠ p.bufferBase then p.rebaseBorrowedViews v else p).bodyBytes =
          p.bodyBytes := by
      split_ifs
      · exact ⟨rfl, rfl, rfl⟩
      · exact ⟨rfl, rfl, rfl⟩
    rw [parseBody, if_neg hhead]
    generalize (if v.data ≠ p.bufferBase then p.rebaseBorrowedViews v else p) = q at hlengths
    obtain ⟨hcomplete, hoffset, hbytes⟩ := hlengths
    dsimp only
    rw [hoffset, hbytes]
    by_cases hbody : v.size - p.bodyOffset < p.bodyBytes
    · exact .inl ⟨by omega, q, by rw [if_pos hbody], hcomplete, hoffset, hbytes⟩
    · exact .inr ⟨by omega, _, _, by rw [if_neg hbody]⟩

theorem parseBody_short_again {p p' : RequestParser}
    (h : p.parseBody v = (.error .needsMoreData, p')) :
    p'.headComplete = p.headComplete ∧ ∃ p'', p'.parseBody v = (.error .needsMoreData, p'') := by
  rcases parseBody_cases p v with ⟨hshort, q, hq, hcomplete, hoffset, hbytes⟩ | ⟨-, r, q, hq⟩
  · obtain ⟨-, rfl⟩ := Prod.mk.inj (hq.symm.trans h)
    rcases parseBody_cases q v with ⟨-, p'', hagain, -⟩ | ⟨hlong, -⟩
    · exact ⟨hcomplete, p'', hagain⟩
    · rw [hoffset, hbytes] at hlong
      exact absurd hshort hlong
  · rw [hq] at h
    cases h

/-- A parser that needs more data says so again if there is none. -/
theorem parse_short_again {p p' : RequestParser}
    (h : p.parse pton now v limits = (.error .needsMoreData, p')) (now' : TimePoint) :
    ∃ p'', p'.parse pton now' v limits = (.error .needsMoreData, p'') := by
  rw [parse] at h
  by_cases hcomplete : p.headComplete = true
  · rw [if_pos hcomplete] at h
    obtain ⟨hsame, p'', hagain⟩ := parseBody_short_again h
    exact ⟨p'', by rw [parse, if_pos (hsame.trans hcomplete), hagain]⟩
  · rw [if_neg hcomplete] at h
    cases hhead : findHead pton now v limits with
    | error e =>
      rw [parseHead, hhead] at h
      cases h
      refine ⟨p, ?_⟩
      rw [parse, if_neg hcomplete, parseHead, findHead_now pton now, hhead]
      rfl
    | ok head =>
      rw [parseHead, hhead] at h
      obtain ⟨hsame, p'', hagain⟩ := parseBody_short_again h
      have hcomplete' : p'.headComplete = true := hsame
      exact ⟨p'', by rw [parse, if_pos hcomplete', hagain]⟩

end RequestParser

end ErikslundHttp
