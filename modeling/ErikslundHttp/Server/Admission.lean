import ErikslundHttp.Lib.FlatMap
import ErikslundHttp.Request.Basic
import ErikslundHttp.Text

/-!
# Admission accounting

`ServerState` counts the connections of all reactors, in total and for each source address, and
hands out a `ConnectionAdmission` for each (`server_state.cpp`).  The token gives its slot back when
it is destroyed or assigned over, wherever it has been moved in between.

Tokens are objects of the program, numbered in the order they come to be (`Tokens`).  A call of
`admit` and the release of a slot are each one critical section of the server's mutex, and a token
is used by one thread at a time; so the calls of all threads are one sequence of whole steps.

* `Accounted`: the counts are those of the tokens that hold a slot.
* `Accounted.release`: the guards of `release` are never taken, since the token that releases is
  counted.
* `admission_accounting`: so it is in every state that any steps reach.
-/

namespace ErikslundHttp

/-! ### The server's counts -/

/-- The limit for which a peer is refused. -/
inductive AdmissionRejection where
  | globalLimit
  | sourceLimit
  deriving DecidableEq, Repr

/-- The counts, and how often a guard of `release` against counts below zero was taken. -/
structure ServerState where
  /-- The limit of all connections. -/
  maxConnections : UInt32
  /-- The limit of those from one address. -/
  maxConnectionsPerSource : UInt32
  /-- How many tokens hold a slot. -/
  activeConnections : UInt32 := 0
  /-- From source address to number of connections. -/
  sourceConnections : List (Bytes × UInt32) := []
  /-- It stays zero. -/
  guardsTaken : ℕ := 0

/-- `state` says whether the token holds a slot; the peer it was made for is not in the source. -/
structure ConnectionAdmission where
  state : Bool := false
  /-- The address that was counted. -/
  source : Bytes := List.replicate kIpv6ByteCount 0
  /-- Peers on a Unix socket are not counted by address. -/
  sourceCounted : Bool := false
  peer : PeerAddress := {}

namespace ServerState

/-- `ServerState::admit`: the answer, and the state it leaves. -/
def admitPeer (s : ServerState) (peer : PeerAddress) :
    Except AdmissionRejection ConnectionAdmission × ServerState :=
  let countSource := !peer.isUnix
  if s.activeConnections ≥ s.maxConnections then (.error .globalLimit, s)
  else
    let source := peer.bytes.toList
    let sourceCount := (FlatMap.lookup source s.sourceConnections).getD 0
    if countSource && sourceCount ≥ s.maxConnectionsPerSource then (.error .sourceLimit, s)
    else
      let s := if countSource then
          { s with sourceConnections :=
              FlatMap.insertOrAssign source (sourceCount + 1) s.sourceConnections }
        else s
      (.ok ⟨true, source, countSource, peer⟩,
        { s with activeConnections := s.activeConnections + 1 })

/-- The part of `ServerState::release` about the source address. -/
def releaseSource (s : ServerState) (source : Bytes) : ServerState :=
  match FlatMap.lookup source s.sourceConnections with
  | none => { s with guardsTaken := s.guardsTaken + 1 }
  | some count =>
    if count ≤ 1 then
      { s with
        sourceConnections := s.sourceConnections.filter fun e => e.1 != source
        guardsTaken := if count = 0 then s.guardsTaken + 1 else s.guardsTaken }
    else
      { s with
        sourceConnections := FlatMap.insertOrAssign source (count - 1) s.sourceConnections }

/-- `ServerState::release`; the guards against zero count how often they are taken. -/
def release (s : ServerState) (source : Bytes) (sourceCounted : Bool) : ServerState :=
  let s := if s.activeConnections > 0 then
      { s with activeConnections := s.activeConnections - 1 }
    else { s with guardsTaken := s.guardsTaken + 1 }
  if sourceCounted then s.releaseSource source else s

end ServerState

/-! ### Tokens -/

/-- The server and the tokens; the place of a token that was destroyed is `none`. -/
structure Tokens where
  server : ServerState
  /-- Every token ever made, by number. -/
  objects : List (Option ConnectionAdmission) := []

namespace Tokens

/-- `ConnectionAdmission::release` of the token with a number. -/
def release (w : Tokens) (number : ℕ) : Tokens :=
  match w.objects[number]? with
  | some (some token) =>
    if token.state then
      { server := w.server.release token.source token.sourceCounted
        objects := w.objects.set number (some { token with state := false }) }
    else w
  | _ => w

/-- What is done with the tokens of a server. -/
inductive Step where
  /-- The default constructor. -/
  | construct
  /-- `ServerState::admit`, which makes a token if it accepts the peer. -/
  | admitPeer (peer : PeerAddress)
  | moveConstruct (other : ℕ)
  | moveAssign (target other : ℕ)
  | destroy (number : ℕ)

/-- A step on a token that does not exist, or no longer, does nothing. -/
def step (w : Tokens) : Step → Tokens
  | .construct => { w with objects := w.objects ++ [some {}] }
  | .admitPeer peer =>
    match w.server.admitPeer peer with
    | (.ok token, server) => { server := server, objects := w.objects ++ [some token] }
    | (.error _, server) => { w with server := server }
  | .moveConstruct other =>
    match w.objects[other]? with
    | some (some token) =>
      { w with objects := w.objects.set other (some { token with state := false }) ++ [some token] }
    | _ => w
  | .moveAssign target other =>
    match w.objects[target]?, w.objects[other]? with
    | some (some _), some (some token) =>
      if target = other then w
      else
        let w := w.release target
        { w with objects :=
            (w.objects.set target (some token)).set other (some { token with state := false }) }
    | _, _ => w
  | .destroy number =>
    match w.objects[number]? with
    | some (some _) =>
      let w := w.release number
      { w with objects := w.objects.set number none }
    | _ => w

/-- What any steps lead to, from a server with these limits. -/
def run (maxConnections maxConnectionsPerSource : UInt32) (steps : List Step) : Tokens :=
  steps.foldl step { server := {
    maxConnections := maxConnections, maxConnectionsPerSource := maxConnectionsPerSource } }

/-! ### Counting tokens -/

/-- The object is a token with a slot, and as wanted. -/
def holds (p : ConnectionAdmission → Bool) (object : Option ConnectionAdmission) : Bool :=
  object.any fun token => token.state && p token

@[simp] theorem holds_none (p : ConnectionAdmission → Bool) : holds p none = false := rfl

@[simp] theorem holds_some (p : ConnectionAdmission → Bool) (token : ConnectionAdmission) :
    holds p (some token) = (token.state && p token) := rfl

/-- The number of tokens with a slot, as wanted. -/
def count (w : Tokens) (p : ConnectionAdmission → Bool) : ℕ := w.objects.countP (holds p)

/-- The token is counted for a source. -/
def countedFor (source : Bytes) (token : ConnectionAdmission) : Bool :=
  token.sourceCounted && token.source == source

/-- The counts of the server are those of the tokens with a slot. -/
structure Accounted (w : Tokens) : Prop where
  /-- The count is that of the tokens with a slot. -/
  active : w.server.activeConnections.toNat = w.count fun _ => true
  active_le : w.server.activeConnections ≤ w.server.maxConnections
  sorted : FlatMap.Sorted w.server.sourceConnections
  /-- So is the count of every address. -/
  source : ∀ source, ((FlatMap.lookup source w.server.sourceConnections).getD 0).toNat =
    w.count (countedFor source)
  /-- No entry is empty, or over the limit. -/
  entry : ∀ source count, FlatMap.lookup source w.server.sourceConnections = some count →
    1 ≤ count ∧ count ≤ w.server.maxConnectionsPerSource
  /-- A token knows the address it was counted for. -/
  peers : ∀ token, some token ∈ w.objects → token.state = true →
    token.source = token.peer.bytes.toList ∧ token.sourceCounted = !token.peer.isUnix
  /-- No count was about to fall below zero. -/
  guards : w.server.guardsTaken = 0

theorem countP_set_add {α : Type} {p : α → Bool} {l : List α} {i : ℕ} {x : α} (h : l[i]? = some x)
    (y : α) : (l.set i y).countP p + (if p x then 1 else 0) =
      l.countP p + if p y then 1 else 0 := by
  induction l generalizing i with
  | nil => cases h
  | cons first rest ih =>
    cases i with
    | zero =>
      cases h
      rw [List.set_cons_zero, List.countP_cons, List.countP_cons]
      omega
    | succ i =>
      have hrest := ih (i := i) (by simpa using h)
      rw [List.set_cons_succ, List.countP_cons, List.countP_cons]
      omega

section

variable {w : Tokens} {number : ℕ} {token : ConnectionAdmission}

/-- A token with a slot is one of those counted. -/
theorem count_released (h : w.objects[number]? = some (some token)) (hstate : token.state = true)
    (p : ConnectionAdmission → Bool) (server : ServerState) :
    count { server := server
            objects := w.objects.set number (some { token with state := false }) } p +
      (if p token then 1 else 0) = w.count p := by
  have hadd := countP_set_add (p := holds p) h (some { token with state := false })
  simpa [count, hstate] using hadd

/-- What the release of a source leaves, when it has an entry of one or more. -/
theorem releaseSource_eq {s : ServerState} (hsorted : FlatMap.Sorted s.sourceConnections)
    {source : Bytes} {count : UInt32}
    (hlookup : FlatMap.lookup source s.sourceConnections = some count) (hcount : 1 ≤ count) :
    ∃ entries, s.releaseSource source = { s with sourceConnections := entries } ∧
      FlatMap.Sorted entries ∧ ∀ other, FlatMap.lookup other entries =
        if other = source then if count = 1 then none else some (count - 1)
        else FlatMap.lookup other s.sourceConnections := by
  rw [ServerState.releaseSource, hlookup]
  dsimp only
  by_cases hone : count ≤ 1
  · have heq : count = 1 := UInt32.le_antisymm hone hcount
    refine ⟨s.sourceConnections.filter fun e => e.1 != source, ?_, hsorted.filter _,
      fun other => ?_⟩
    · rw [if_pos hone, heq, if_neg (by decide)]
    · rw [FlatMap.lookup_filter_ne hsorted]
      by_cases hother : other = source <;> simp [hother, heq]
  · have hne : count ≠ 1 := by
      rintro rfl
      exact hone (by decide)
    refine ⟨_, by rw [if_neg hone], hsorted.insertOrAssign _ _, fun other => ?_⟩
    rw [FlatMap.lookup_insertOrAssign]
    by_cases hother : other = source <;> simp [hother, hne]

/-- A step that keeps the server and what the tokens hold keeps the account. -/
theorem Accounted.of_objects {w' : Tokens} (h : w.Accounted) (hserver : w'.server = w.server)
    (hcount : ∀ p, w'.count p = w.count p)
    (hmem : ∀ token, some token ∈ w'.objects → token.state = true → some token ∈ w.objects) :
    w'.Accounted where
  active := by rw [hserver, hcount, h.active]
  active_le := by rw [hserver]; exact h.active_le
  sorted := by rw [hserver]; exact h.sorted
  source source := by rw [hserver, hcount, h.source]
  entry := by rw [hserver]; exact h.entry
  peers token htoken hstate := h.peers token (hmem token htoken hstate) hstate
  guards := by rw [hserver, h.guards]

/-- A token that is counted for a source has an entry there. -/
theorem Accounted.lookup_source (h : w.Accounted) (hget : w.objects[number]? = some (some token))
    (hstate : token.state = true) (hcounted : token.sourceCounted = true) :
    ∃ count, FlatMap.lookup token.source w.server.sourceConnections = some count ∧ 1 ≤ count := by
  have hcount := count_released hget hstate (countedFor token.source) w.server
  rw [if_pos (by simp [countedFor, hcounted]), ← h.source] at hcount
  cases hlookup : FlatMap.lookup token.source w.server.sourceConnections with
  | none => simp [hlookup] at hcount
  | some count => exact ⟨count, rfl, (h.entry _ _ hlookup).1⟩

theorem Accounted.one_le_active (h : w.Accounted) (hget : w.objects[number]? = some (some token))
    (hstate : token.state = true) : 1 ≤ w.server.activeConnections := by
  have hcount := count_released hget hstate (fun _ => true) w.server
  rw [if_pos rfl, ← h.active] at hcount
  rw [UInt32.le_iff_toNat_le, UInt32.toNat_one]
  omega

/-- What a token's release leaves of the counts, once it is known to be counted. -/
theorem Accounted.release_eq (h : w.Accounted) (hget : w.objects[number]? = some (some token))
    (hstate : token.state = true) :
    ∃ entries, w.server.release token.source token.sourceCounted =
        { w.server with
          activeConnections := w.server.activeConnections - 1, sourceConnections := entries } ∧
      FlatMap.Sorted entries ∧ ∀ source, FlatMap.lookup source entries =
        if countedFor source token then
          (FlatMap.lookup source w.server.sourceConnections).bind fun n =>
            if n = 1 then none else some (n - 1)
        else FlatMap.lookup source w.server.sourceConnections := by
  have hpos : w.server.activeConnections > 0 := by
    have hone := UInt32.le_iff_toNat_le.1 (h.one_le_active hget hstate)
    rwa [gt_iff_lt, UInt32.lt_iff_toNat_lt]
  unfold ServerState.release
  rw [if_pos hpos]
  dsimp only
  cases hcounted : token.sourceCounted with
  | false => exact ⟨_, rfl, h.sorted, fun source => by simp [countedFor, hcounted]⟩
  | true =>
    obtain ⟨n, hlookup, hn⟩ := h.lookup_source hget hstate hcounted
    obtain ⟨entries, heq, hsorted, hentries⟩ := releaseSource_eq
      (s := { w.server with activeConnections := w.server.activeConnections - 1 }) h.sorted
      hlookup hn
    refine ⟨entries, by rw [if_pos rfl, heq], hsorted, fun source => ?_⟩
    rw [hentries]
    by_cases hsource : source = token.source
    · simp [countedFor, hcounted, hsource, hlookup]
    · simp [countedFor, hcounted, hsource, Ne.symm hsource]

/-- The entry of a source, one connection less. -/
theorem toNat_getD_released {count : Option UInt32} {n : ℕ} (h : n + 1 = (count.getD 0).toNat) :
    ((count.bind fun c => if c = 1 then none else some (c - 1)).getD 0).toNat = n := by
  cases count with
  | none => simp at h
  | some c =>
    rw [Option.getD_some] at h
    rw [Option.bind_some]
    by_cases hc : c = 1
    · subst hc
      simpa [eq_comm] using h
    · have hle : 1 ≤ c := by
        rw [UInt32.le_iff_toNat_le, UInt32.toNat_one]
        omega
      rw [if_neg hc, Option.getD_some, UInt32.toNat_sub_of_le _ _ hle, UInt32.toNat_one]
      omega

theorem mem_of_mem_set_released {objects : List (Option ConnectionAdmission)}
    {other : ConnectionAdmission}
    (hmem : some other ∈ objects.set number (some { token with state := false }))
    (hlive : other.state = true) : some other ∈ objects := by
  rcases List.mem_or_eq_of_mem_set hmem with hmem | heq
  · exact hmem
  · cases heq
    cases hlive

/-- A token that is live gives back what it was counted for, and no guard is taken. -/
theorem Accounted.release_live (h : w.Accounted) (hget : w.objects[number]? = some (some token))
    (hstate : token.state = true) :
    Accounted { server := w.server.release token.source token.sourceCounted
                objects := w.objects.set number (some { token with state := false }) } := by
  obtain ⟨entries, heq, hsorted, hentries⟩ := h.release_eq hget hstate
  have hcount := count_released hget hstate
  rw [heq]
  refine ⟨?_, ?_, hsorted, fun source => ?_, fun source n hlookup => ?_, ?_, h.guards⟩
  · have hactive := hcount (fun _ => true) { w.server with
      activeConnections := w.server.activeConnections - 1, sourceConnections := entries }
    rw [if_pos rfl, ← h.active] at hactive
    rw [UInt32.toNat_sub_of_le _ _ (h.one_le_active hget hstate), UInt32.toNat_one]
    omega
  · exact UInt32.le_trans (UInt32.sub_le (h.one_le_active hget hstate)) h.active_le
  · have hone := hcount (countedFor source) { w.server with
      activeConnections := w.server.activeConnections - 1, sourceConnections := entries }
    rw [← h.source] at hone
    dsimp only
    rw [hentries]
    by_cases hfor : countedFor source token = true
    · rw [if_pos hfor] at hone ⊢
      exact toNat_getD_released hone
    · rw [if_neg hfor] at hone ⊢
      exact hone.symm
  · dsimp only at hlookup ⊢
    rw [hentries] at hlookup
    split_ifs at hlookup with hfor
    · obtain ⟨m, hm, hn⟩ := Option.bind_eq_some_iff.1 hlookup
      split_ifs at hn with hone
      cases hn
      obtain ⟨hle, hmax⟩ := h.entry source m hm
      refine ⟨?_, UInt32.le_trans (UInt32.sub_le hle) hmax⟩
      rw [← UInt32.toNat_inj, UInt32.toNat_one] at hone
      have hpos := UInt32.le_iff_toNat_le.1 hle
      rw [UInt32.toNat_one] at hpos
      rw [UInt32.le_iff_toNat_le, UInt32.toNat_sub_of_le _ _ hle, UInt32.toNat_one]
      omega
    · exact h.entry source n hlookup
  · intro other hother hlive
    exact h.peers other (mem_of_mem_set_released hother hlive) hlive

theorem Accounted.release (h : w.Accounted) (number : ℕ) : (w.release number).Accounted := by
  unfold Tokens.release
  split
  case h_1 token hget =>
    by_cases hstate : token.state = true
    · rw [if_pos hstate]
      exact h.release_live hget hstate
    · rwa [if_neg hstate]
  case h_2 => exact h

/-- The object of a number after its release is a token that holds nothing. -/
theorem getElem?_release_self (hget : w.objects[number]? = some (some token)) :
    ∃ spent : ConnectionAdmission, spent.state = false ∧
      (w.release number).objects[number]? = some (some spent) := by
  unfold Tokens.release
  rw [hget]
  dsimp only
  by_cases hstate : token.state = true
  · refine ⟨{ token with state := false }, rfl, ?_⟩
    rw [if_pos hstate]
    exact List.getElem?_set_self (List.getElem?_eq_some_iff.1 hget).1
  · exact ⟨token, Bool.not_eq_true _ ▸ hstate, by rw [if_neg hstate, hget]⟩

theorem getElem?_release_ne {other : ℕ} (hne : number ≠ other) :
    (w.release number).objects[other]? = w.objects[other]? := by
  unfold Tokens.release
  split
  · split_ifs
    · exact List.getElem?_set_ne hne
    · rfl
  · rfl

end

/-! ### Steps and runs -/

section

variable {w : Tokens}

theorem count_append (server : ServerState) (token : ConnectionAdmission)
    (p : ConnectionAdmission → Bool) :
    count { server := server, objects := w.objects ++ [some token] } p =
      w.count p + if token.state && p token then 1 else 0 := by
  simp [count, List.countP_append, List.countP_cons]

theorem Accounted.construct (h : w.Accounted) : (w.step .construct).Accounted := by
  refine h.of_objects rfl (fun p => ?_) fun token htoken hstate => ?_
  · exact count_append w.server {} p
  · rcases List.mem_append.1 htoken with hmem | hmem
    · exact hmem
    · cases List.mem_singleton.1 hmem
      cases hstate

theorem Accounted.destroy (h : w.Accounted) (number : ℕ) :
    (w.step (.destroy number)).Accounted := by
  unfold step
  dsimp only
  split
  case h_1 token hget =>
    obtain ⟨spent, hspent, hget'⟩ := getElem?_release_self hget
    refine (h.release number).of_objects rfl (fun p => ?_) fun other hother _ => ?_
    · have hadd := countP_set_add (p := holds p) hget' none
      simpa [count, hspent] using hadd
    · exact (List.mem_or_eq_of_mem_set hother).resolve_right nofun
  case h_2 => exact h

theorem Accounted.moveConstruct (h : w.Accounted) (other : ℕ) :
    (w.step (.moveConstruct other)).Accounted := by
  unfold step
  dsimp only
  split
  case h_1 token hget =>
    refine h.of_objects rfl (fun p => ?_) fun moved hmoved hstate => ?_
    · have hadd := countP_set_add (p := holds p) hget (some { token with state := false })
      simpa [count, List.countP_append, List.countP_cons] using hadd
    · rcases List.mem_append.1 hmoved with hmem | hmem
      · exact mem_of_mem_set_released hmem hstate
      · cases List.mem_singleton.1 hmem
        exact List.mem_of_getElem? hget
  case h_2 => exact h

theorem Accounted.moveAssign (h : w.Accounted) (target other : ℕ) :
    (w.step (.moveAssign target other)).Accounted := by
  unfold step
  dsimp only
  split
  case h_1 old token hold hget =>
    by_cases hself : target = other
    · rwa [if_pos hself]
    · rw [if_neg hself]
      obtain ⟨spent, hspent, hget'⟩ := getElem?_release_self hold
      have hother : ((w.release target).objects.set target (some token))[other]? =
          some (some token) := by
        rw [List.getElem?_set_ne hself, getElem?_release_ne hself, hget]
      refine (h.release target).of_objects rfl (fun p => ?_) fun moved hmoved hstate => ?_
      · -- the slot of the other token is counted in the target's place
        have htarget := countP_set_add (p := holds p) hget' (some token)
        have hadd := countP_set_add (p := holds p) hother (some { token with state := false })
        simp only [holds_some, hspent, Bool.false_and, Bool.false_eq_true, if_false,
          Nat.add_zero] at htarget hadd
        unfold count
        dsimp only
        omega
      · have hmem := mem_of_mem_set_released hmoved hstate
        rcases List.mem_or_eq_of_mem_set hmem with hmem | heq
        · exact hmem
        · refine List.mem_of_getElem? (i := other) ?_
          rw [getElem?_release_ne hself, hget, heq]
  case h_2 => exact h

/-- `admit` changes nothing, or counts the token that it returns. -/
theorem admitPeer_cases {s : ServerState} (hsorted : FlatMap.Sorted s.sourceConnections)
    (peer : PeerAddress) :
    (∃ reason, s.admitPeer peer = (.error reason, s)) ∨
    ∃ entries token, s.admitPeer peer = (.ok token,
        { s with activeConnections := s.activeConnections + 1, sourceConnections := entries }) ∧
      token = ⟨true, peer.bytes.toList, !peer.isUnix, peer⟩ ∧
      s.activeConnections < s.maxConnections ∧ FlatMap.Sorted entries ∧
      ∀ source, if countedFor source token then
          (FlatMap.lookup source s.sourceConnections).getD 0 < s.maxConnectionsPerSource ∧
          FlatMap.lookup source entries =
            some ((FlatMap.lookup source s.sourceConnections).getD 0 + 1)
        else FlatMap.lookup source entries = FlatMap.lookup source s.sourceConnections := by
  unfold ServerState.admitPeer
  dsimp only
  by_cases hglobal : s.activeConnections ≥ s.maxConnections
  · exact .inl ⟨_, by rw [if_pos hglobal]⟩
  · rw [if_neg hglobal]
    have hlt : s.activeConnections < s.maxConnections := UInt32.not_le.1 hglobal
    cases hunix : peer.isUnix with
    | true =>
      refine .inr ⟨s.sourceConnections, _, rfl, rfl, hlt, hsorted, fun source => ?_⟩
      simp [countedFor]
    | false =>
      split
      · exact .inl ⟨_, rfl⟩
      case isFalse hsource =>
        refine .inr ⟨FlatMap.insertOrAssign peer.bytes.toList
          ((FlatMap.lookup peer.bytes.toList s.sourceConnections).getD 0 + 1) s.sourceConnections,
          _, rfl, rfl, hlt, hsorted.insertOrAssign _ _, fun source => ?_⟩
        by_cases heq : peer.bytes.toList = source
        · subst heq
          simp only [countedFor, Bool.not_false, beq_self_eq_true, Bool.and_self, if_true]
          refine ⟨?_, ?_⟩
          · simpa using hsource
          · exact FlatMap.lookup_insertOrAssign_self ..
        · have hbeq : (peer.bytes.toList == source) = false := by simpa using heq
          simp only [countedFor, hbeq, Bool.and_false, Bool.false_eq_true, if_false]
          rw [FlatMap.lookup_insertOrAssign_of_ne (Ne.symm heq)]

theorem toNat_add_one_of_lt {n m : UInt32} (h : n < m) : (n + 1).toNat = n.toNat + 1 := by
  have hlt := UInt32.lt_iff_toNat_lt.1 h
  have hmax := m.toNat_lt
  rw [UInt32.toNat_add, UInt32.toNat_one, Nat.mod_eq_of_lt (by omega)]

theorem Accounted.admitPeer (h : w.Accounted) (peer : PeerAddress) :
    (w.step (.admitPeer peer)).Accounted := by
  unfold step
  dsimp only
  obtain ⟨reason, heq⟩ | ⟨entries, token, heq, htoken, hlt, hsorted, hentries⟩ :=
    admitPeer_cases h.sorted peer
  · rwa [heq]
  · rw [heq]
    have hstate : token.state = true := by rw [htoken]
    refine ⟨?_, ?_, hsorted, fun source => ?_, fun source n hlookup => ?_,
      fun other hother hlive => ?_, h.guards⟩
    · rw [count_append, hstate, ← h.active]
      exact toNat_add_one_of_lt hlt
    · rw [UInt32.le_iff_toNat_le, toNat_add_one_of_lt hlt]
      exact UInt32.lt_iff_toNat_lt.1 hlt
    · have hentry := hentries source
      rw [count_append, hstate, Bool.true_and, ← h.source]
      dsimp only
      split_ifs at hentry ⊢
      · rw [hentry.2, Option.getD_some, toNat_add_one_of_lt hentry.1]
      · rw [hentry, Nat.add_zero]
    · have hentry := hentries source
      dsimp only at hlookup ⊢
      split_ifs at hentry
      · rw [hentry.2] at hlookup
        cases hlookup
        have hone := toNat_add_one_of_lt hentry.1
        have hmax := UInt32.lt_iff_toNat_lt.1 hentry.1
        rw [UInt32.le_iff_toNat_le, UInt32.le_iff_toNat_le, hone, UInt32.toNat_one]
        omega
      · rw [hentry] at hlookup
        exact h.entry source n hlookup
    · rcases List.mem_append.1 hother with hmem | hmem
      · exact h.peers other hmem hlive
      · cases List.mem_singleton.1 hmem
        rw [htoken]
        exact ⟨rfl, rfl⟩

theorem Accounted.step (h : w.Accounted) (step : Step) : (w.step step).Accounted := by
  cases step with
  | construct => exact h.construct
  | admitPeer peer => exact h.admitPeer peer
  | moveConstruct other => exact h.moveConstruct other
  | moveAssign target other => exact h.moveAssign target other
  | destroy number => exact h.destroy number

theorem Accounted.foldl (h : w.Accounted) (steps : List Step) :
    (steps.foldl Tokens.step w).Accounted := by
  induction steps generalizing w with
  | nil => exact h
  | cons step rest ih => exact ih (h.step step)

end

theorem accounted_run (maxConnections maxConnectionsPerSource : UInt32) (steps : List Step) :
    (run maxConnections maxConnectionsPerSource steps).Accounted := by
  have hinitial : Accounted { server := {
      maxConnections := maxConnections, maxConnectionsPerSource := maxConnectionsPerSource } } := by
    refine ⟨rfl, ?_, List.Pairwise.nil, fun source => rfl, ?_, ?_, rfl⟩
    · rw [UInt32.le_iff_toNat_le]
      exact Nat.zero_le _
    · intro source count hlookup
      cases hlookup
    · intro token htoken
      cases htoken
  exact hinitial.foldl steps

/-- The limits, which no step changes. -/
def limits (w : Tokens) : UInt32 × UInt32 :=
  (w.server.maxConnections, w.server.maxConnectionsPerSource)

theorem limits_release (w : Tokens) (number : ℕ) : (w.release number).limits = w.limits := by
  unfold release ServerState.release ServerState.releaseSource
  grind [limits]

theorem limits_step (w : Tokens) (step : Step) : (w.step step).limits = w.limits := by
  cases step with
  | construct => rfl
  | admitPeer peer =>
    unfold Tokens.step ServerState.admitPeer
    grind [limits]
  | moveConstruct other =>
    unfold Tokens.step
    grind [limits]
  | moveAssign target other =>
    have hrelease := w.limits_release target
    unfold Tokens.step
    grind [limits]
  | destroy number =>
    have hrelease := w.limits_release number
    unfold Tokens.step
    grind [limits]

theorem limits_run (maxConnections maxConnectionsPerSource : UInt32) (steps : List Step) :
    (run maxConnections maxConnectionsPerSource steps).limits =
      (maxConnections, maxConnectionsPerSource) := by
  unfold run
  generalize hw : ({ server := _ } : Tokens) = w
  have hlimits : w.limits = (maxConnections, maxConnectionsPerSource) := hw ▸ rfl
  clear hw
  induction steps generalizing w with
  | nil => exact hlimits
  | cons step rest ih => exact ih (w.step step) ((w.limits_step step).trans hlimits)

/-- The token was made for a peer of a source, which is no Unix socket. -/
def fromSource (source : Bytes) (token : ConnectionAdmission) : Bool :=
  !token.peer.isUnix && token.peer.bytes.toList == source

/-- The tokens that are counted for a source are those of its peers. -/
theorem Accounted.count_fromSource {w : Tokens} (h : w.Accounted) (source : Bytes) :
    w.count (fromSource source) = w.count (countedFor source) := by
  refine List.countP_congr fun object hobject => ?_
  cases object with
  | none => rfl
  | some token =>
    rw [holds_some, holds_some]
    cases hstate : token.state with
    | false => rfl
    | true =>
      obtain ⟨hsource, hcounted⟩ := h.peers token hobject hstate
      rw [fromSource, countedFor, hsource, hcounted]

/-- **Admission accounting.**  Whatever `admit` calls, moves and destructions of tokens have run,
the connections in total and of each source address are counted exactly, within the limits, and a
release never meets a count that is zero already. -/
theorem admission_accounting (maxConnections maxConnectionsPerSource : UInt32)
    (steps : List Step) :
    let w := run maxConnections maxConnectionsPerSource steps
    w.server.activeConnections.toNat = w.count (fun _ => true) ∧
    w.server.activeConnections ≤ maxConnections ∧
    (∀ source, match FlatMap.lookup source w.server.sourceConnections with
      | some n => n.toNat = w.count (fromSource source) ∧ 1 ≤ n ∧ n ≤ maxConnectionsPerSource
      | none => w.count (fromSource source) = 0) ∧
    (∀ token, some token ∈ w.objects → token.state = true →
      token.sourceCounted = !token.peer.isUnix) ∧
    w.server.guardsTaken = 0 ∧
    ∀ peer reason, (w.server.admitPeer peer).1 = .error reason →
      (w.server.admitPeer peer).2 = w.server ∧ w.step (.admitPeer peer) = w := by
  intro w
  have h : w.Accounted := accounted_run maxConnections maxConnectionsPerSource steps
  have hlimits : w.limits = (maxConnections, maxConnectionsPerSource) :=
    limits_run maxConnections maxConnectionsPerSource steps
  obtain ⟨hmax, hsource⟩ := Prod.mk.inj hlimits
  refine ⟨h.active, hmax ▸ h.active_le, fun source => ?_,
    fun token htoken hstate => (h.peers token htoken hstate).2, h.guards,
    fun peer reason hreason => ?_⟩
  · have hcount := h.source source
    rw [← h.count_fromSource] at hcount
    cases hlookup : FlatMap.lookup source w.server.sourceConnections with
    | none => simpa [hlookup] using hcount.symm
    | some n =>
      rw [hlookup] at hcount
      exact ⟨hcount, hsource ▸ h.entry source n hlookup⟩
  · obtain ⟨reason', heq⟩ | ⟨entries, token, heq, -⟩ := admitPeer_cases h.sorted peer
    · refine ⟨by rw [heq], ?_⟩
      unfold step
      dsimp only
      rw [heq]
    · rw [heq] at hreason
      cases hreason

end Tokens

end ErikslundHttp
