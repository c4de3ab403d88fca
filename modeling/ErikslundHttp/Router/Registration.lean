import ErikslundHttp.Router.Dispatch

/-!
# The representation of a router

A registration may throw, and the application may go on with the router it called.  Here a call is
a computation on the fields of the router, in the order of the source, that keeps what it has
written when it throws (`Registering.perform`).  No call throws after its first write, so that a
rejected call is a call that did nothing (`call_eq`).

* `Router.Indexed` says how the indices of a router find its routes; it holds of every router that
  any calls, accepted or rejected, have made (`Router.Sound.afterCalls`).
* `Reference.accepted_iff`: whether a call is accepted depends on the registrations before it and
  not on their order.
* `router_representation`: so literal routes may be registered in any order.

The indices are natural numbers.  The source casts them to `uint32_t`, which keeps them up to 2³²
calls (`Router.Indexed.fits`).
-/

namespace ErikslundHttp

open Router

/-! ### Calls that throw -/

/-- The calls of the registration interface. -/
inductive Registering where
  | route (methods : Method) (pattern : Bytes) (handler : Option Handler)
  | get (pattern : Bytes) (handler : Option Handler)
  | post (pattern : Bytes) (handler : Option Handler)
  | put (pattern : Bytes) (handler : Option Handler)
  | patch (pattern : Bytes) (handler : Option Handler)
  | del (pattern : Bytes) (handler : Option Handler)
  | options (pattern : Bytes) (handler : Option Handler)
  | mount (mountPrefix : Bytes) (bundle : AssetBundle)
  | use (middleware : Option Middleware)
  | fallback (handler : Option Handler)

/-- A computation on a router.  What it has written stays when it throws. -/
abbrev RouterM := ExceptT ServerError (StateM Router)

namespace Registering

/-- `Router::route`. -/
def performRoute (methods : Method) (pattern : Bytes) (handler : Option Handler) : RouterM Unit := do
  ensure (methods != .none) (ServerError.noMethod pattern)
  let handler ← orFail (ServerError.emptyHandler pattern) handler
  ensure (isValidRoutePattern pattern) (ServerError.invalidPattern pattern)
  let compiled := compilePieces (patternPieces pattern)
  ensure (compiled.parameterCount ≤ kMaxPathParameters)
    (ServerError.tooManyCaptures pattern compiled.parameterCount)
  let isDynamic := compiled.isDynamic
  ensure (!(← getThe Router).overlaps isDynamic methods pattern) (ServerError.alreadyRegistered pattern)
  let routeIndex := (← getThe Router).routes.length
  modify fun router => { router with
    routes := router.routes ++ [⟨methods, pattern, if isDynamic then compiled.segments else [],
      compiled.hasWildcard, handler⟩] }
  if isDynamic then
    modify fun router => { router with dynamicRoutes := router.dynamicRoutes ++ [routeIndex] }
  else
    modify fun router => { router with
      exactIndex := FlatMap.insertOrAssign pattern
        ((FlatMap.lookup pattern router.exactIndex).getD [] ++ [routeIndex]) router.exactIndex }

/-- `Router::mount`. -/
def performMount (mountPrefix : Bytes) (bundle : AssetBundle) : RouterM Unit := do
  ensure (mountPrefix.head? == some (byte '/')) (ServerError.relativeMount mountPrefix)
  ensure (!(mountPrefix.contains (byte '*') || mountPrefix.contains (byte '\x7b') ||
    mountPrefix.contains (byte '\x7d'))) (ServerError.mountPattern mountPrefix)
  ensure (isValidRoutePattern mountPrefix) (ServerError.unreachableMount mountPrefix)
  let mountPrefix :=
    if mountPrefix.getLast? == some (byte '/') then mountPrefix else mountPrefix ++ [byte '/']
  modify fun router => { router with mounts := router.mounts ++ [⟨mountPrefix, bundle⟩] }

/-- `Router::use`. -/
def performUse (middleware : Option Middleware) : RouterM Unit := do
  let middleware ← orFail ServerError.emptyMiddleware middleware
  modify fun router => { router with middleware := router.middleware ++ [middleware] }

/-- `Router::fallback`. -/
def performFallback (handler : Option Handler) : RouterM Unit := do
  let handler ← orFail ServerError.emptyFallback handler
  ensure (← getThe Router).fallbackHandler.isNone ServerError.fallbackAlreadySet
  modify fun router => { router with fallbackHandler := some handler }

/-- Each call, as the function of the interface that it names. -/
def perform : Registering → RouterM Unit
  | route methods pattern handler => performRoute methods pattern handler
  | get pattern handler => performRoute getAndHead pattern handler
  | post pattern handler => performRoute .post pattern handler
  | put pattern handler => performRoute .put pattern handler
  | patch pattern handler => performRoute .patch pattern handler
  | del pattern handler => performRoute .delete pattern handler
  | options pattern handler => performRoute .options pattern handler
  | mount mountPrefix bundle => performMount mountPrefix bundle
  | use middleware => performUse middleware
  | fallback handler => performFallback handler

/-- The call with the methods of a route written out. -/
def toCall : Registering → RouterCall
  | route methods pattern handler => .route methods pattern handler
  | get pattern handler => .route getAndHead pattern handler
  | post pattern handler => .route .post pattern handler
  | put pattern handler => .route .put pattern handler
  | patch pattern handler => .route .patch pattern handler
  | del pattern handler => .route .delete pattern handler
  | options pattern handler => .route .options pattern handler
  | mount mountPrefix bundle => .mount mountPrefix bundle
  | use middleware => .use middleware
  | fallback handler => .fallback handler

/-- The call registers a route under a pattern without captures and wildcard. -/
def IsLiteral (c : Registering) : Prop :=
  ∃ methods pattern handler, c.toCall = .route methods pattern handler ∧
    isDynamicPattern pattern = false

end Registering

namespace Router

/-- What a call answers, and the router it leaves. -/
def call (router : Router) (c : Registering) : Except ServerError Unit × Router :=
  c.perform.run.run router

/-- The router after some calls; the application ignores what they throw. -/
def afterCalls (router : Router) (calls : List Registering) : Router :=
  calls.foldl (fun router c => (router.call c).2) router

/-- Every one of the calls is accepted, in this order. -/
def acceptsAll (router : Router) : List Registering → Bool
  | [] => true
  | c :: rest => (router.call c).1.isOk && acceptsAll (router.call c).2 rest

end Router

/-! ### A rejected call does nothing -/

/-- What a call does, from the result of the function it models. -/
def settled (router : Router) : Except ServerError Router → Except ServerError Unit × Router
  | .ok router' => (.ok (), router')
  | .error e => (.error e, router)

section

variable {α : Type} {router : Router}

theorem run_check (x : Except ServerError α) (f : α → RouterM Unit)
    (g : α → Except ServerError Router) (h : ∀ a, (f a).run.run router = settled router (g a)) :
    ((liftM x : RouterM α) >>= f).run.run router = settled router (x >>= g) := by
  cases x with
  | ok a => exact h a
  | error e => rfl

theorem run_getThe (f : Router → RouterM Unit) :
    (getThe Router >>= f).run.run router = (f router).run.run router := rfl

end

theorem run_performRoute (router : Router) (methods : Method) (pattern : Bytes)
    (handler : Option Handler) :
    (Registering.performRoute methods pattern handler).run.run router =
      settled router (router.route methods pattern handler) := by
  -- The checks are the same on both sides, and the writes come after the last of them.
  refine run_check _ _ _ fun _ => run_check _ _ _ fun f => run_check _ _ _ fun _ =>
    run_check _ _ _ fun _ => ?_
  rw [run_getThe]
  refine run_check _ _ _ fun _ => ?_
  cases (compilePieces (patternPieces pattern)).isDynamic <;> rfl

theorem run_performMount (router : Router) (mountPrefix : Bytes) (bundle : AssetBundle) :
    (Registering.performMount mountPrefix bundle).run.run router =
      settled router (router.mount mountPrefix bundle) :=
  run_check _ _ _ fun _ => run_check _ _ _ fun _ => run_check _ _ _ fun _ => rfl

theorem run_performUse (router : Router) (middleware : Option Middleware) :
    (Registering.performUse middleware).run.run router = settled router (router.use middleware) :=
  run_check _ _ _ fun _ => rfl

theorem run_performFallback (router : Router) (handler : Option Handler) :
    (Registering.performFallback handler).run.run router =
      settled router (router.fallback handler) := by
  refine run_check _ _ _ fun f => ?_
  rw [run_getThe]
  exact run_check _ _ _ fun _ => rfl

/-- A call answers as the function it models; one that throws has written nothing. -/
theorem call_eq (router : Router) (c : Registering) :
    router.call c = settled router (router.apply c.toCall) := by
  cases c with
  | route methods pattern handler => exact run_performRoute router methods pattern handler
  | get pattern handler => exact run_performRoute router getAndHead pattern handler
  | post pattern handler => exact run_performRoute router .post pattern handler
  | put pattern handler => exact run_performRoute router .put pattern handler
  | patch pattern handler => exact run_performRoute router .patch pattern handler
  | del pattern handler => exact run_performRoute router .delete pattern handler
  | options pattern handler => exact run_performRoute router .options pattern handler
  | mount mountPrefix bundle => exact run_performMount router mountPrefix bundle
  | use middleware => exact run_performUse router middleware
  | fallback handler => exact run_performFallback router handler

/-! ### When a route is accepted -/

namespace Reference

variable {calls : List RouterCall} {router router' : Router}

/-- The loops over the routes of one kind find the routes of the pattern. -/
theorem overlaps_iff (h : Reflects calls router) (methods : Method) (pattern : Bytes) :
    router.overlaps (isDynamicPattern pattern) methods pattern = true ↔
      ∃ route ∈ router.routes, route.pattern = pattern ∧ route.methods &&& methods ≠ .none := by
  unfold Router.overlaps
  cases hdynamic : isDynamicPattern pattern with
  | true =>
    rw [if_pos rfl, h.dynamic_select]
    simp only [List.any_eq_true, List.mem_filter, beq_iff_eq, bne_iff_ne, ne_eq]
    constructor
    · rintro ⟨route, ⟨⟨hmem, -⟩, hpattern⟩, hshared⟩
      exact ⟨route, hmem, hpattern, hshared⟩
    · rintro ⟨route, hmem, rfl, hshared⟩
      exact ⟨route, ⟨⟨hmem, hdynamic⟩, rfl⟩, hshared⟩
  | false =>
    rw [if_neg Bool.false_ne_true, h.exact_select]
    simp only [List.any_eq_true, List.mem_filter, Bool.and_eq_true, Bool.not_eq_true', beq_iff_eq,
      bne_iff_ne, ne_eq]
    constructor
    · rintro ⟨route, ⟨hmem, -, hpattern⟩, hshared⟩
      exact ⟨route, hmem, hpattern, hshared⟩
    · rintro ⟨route, hmem, rfl, hshared⟩
      exact ⟨route, ⟨hmem, hdynamic, rfl⟩, hshared⟩

/-- What a route is checked for, the other routes aside. -/
def Registrable (methods : Method) (pattern : Bytes) (handler : Option Handler) : Prop :=
  methods ≠ .none ∧ handler.isSome = true ∧ isValidRoutePattern pattern = true

/-- A route is accepted if it passes its own checks and shares no method with a route of its
pattern. -/
theorem accepted_iff (h : Reflects calls router) (methods : Method) (pattern : Bytes)
    (handler : Option Handler) :
    (∃ router', router.route methods pattern handler = .ok router') ↔
      Registrable methods pattern handler ∧
        ∀ route ∈ router.routes, route.pattern = pattern → route.methods &&& methods = .none := by
  have hoverlaps : (!router.overlaps (isDynamicPattern pattern) methods pattern) = true ↔
      ∀ route ∈ router.routes, route.pattern = pattern → route.methods &&& methods = .none := by
    rw [Bool.not_eq_true', ← Bool.not_eq_true, overlaps_iff h]
    push Not
    rfl
  simp only [Router.route, bind_eq_ok, ensure_eq_ok, orFail_eq_ok, pure_eq_ok, exists_const]
  constructor
  · rintro ⟨router', hmethods, f, rfl, hvalid, -, hdisjoint, -⟩
    rw [isDynamic_eq hvalid] at hdisjoint
    exact ⟨⟨by simpa using hmethods, rfl, hvalid⟩, hoverlaps.1 hdisjoint⟩
  · rintro ⟨⟨hmethods, hhandler, hvalid⟩, hdisjoint⟩
    obtain ⟨f, rfl⟩ := Option.isSome_iff_exists.1 hhandler
    refine ⟨_, by simpa using hmethods, f, rfl, hvalid, by simpa using parameterCount_le hvalid, ?_,
      rfl⟩
    rw [isDynamic_eq hvalid]
    exact hoverlaps.2 hdisjoint

end Reference

/-! ### The indices -/

/-- Every route is found once: a pattern with a capture or a wildcard among the dynamic routes, and
another one under its own text.  Routes of one pattern share no method. -/
structure Router.Indexed (router : Router) : Prop where
  sorted : FlatMap.Sorted router.exactIndex
  /-- Every index occurs once. -/
  once : (router.dynamicRoutes ++ router.exactIndex.flatMap Prod.snd).Perm
    (List.range router.routes.length)
  /-- The dynamic routes are those with a capture or a wildcard. -/
  dynamic : ∀ i ∈ router.dynamicRoutes, ∃ route, router.routes[i]? = some route ∧
    isDynamicPattern route.pattern = true
  /-- A literal route is found under its own text. -/
  literal : ∀ e ∈ router.exactIndex, ∀ i ∈ e.2, ∃ route, router.routes[i]? = some route ∧
    isDynamicPattern route.pattern = false ∧ route.pattern = e.1
  /-- No method of a pattern is routed twice. -/
  disjoint : router.routes.Pairwise fun a b =>
    a.pattern = b.pattern → a.methods &&& b.methods = .none

theorem indexed_empty : Router.Indexed {} where
  sorted := List.Pairwise.nil
  once := List.Perm.refl _
  dynamic := nofun
  literal := nofun
  disjoint := List.Pairwise.nil

namespace Router.Indexed

variable {calls : List RouterCall} {router router' : Router}

theorem route (h : router.Indexed) (hreflects : Reference.Reflects calls router) {methods : Method}
    {pattern : Bytes} {handler : Option Handler}
    (hroute : router.route methods pattern handler = .ok router') : router'.Indexed := by
  have hdisjoint := ((Reference.accepted_iff hreflects methods pattern handler).1
    ⟨router', hroute⟩).2
  obtain ⟨f, rfl, -, -, hroutes, hexact, hdynamic, -⟩ := Reference.route_eq_ok hroute
  set added := (Reference.Registration.mk methods pattern f).compiled with hadded
  have hpattern : added.pattern = pattern := rfl
  have hold : ∀ {i : ℕ} {route : Route}, router.routes[i]? = some route →
      router'.routes[i]? = some route := by
    intro i route hi
    rw [hroutes, List.getElem?_append_left (List.getElem?_eq_some_iff.1 hi).1]
    exact hi
  have hnew : router'.routes[router.routes.length]? = some added := by
    rw [hroutes, List.getElem?_append_right le_rfl, Nat.sub_self]
    rfl
  have hrange : List.range router'.routes.length =
      List.range router.routes.length ++ [router.routes.length] := by
    rw [hroutes, List.length_append]
    exact List.range_succ
  refine ⟨?_, ?_, ?_, ?_, ?_⟩
  · rw [hexact]
    split_ifs
    · exact h.sorted
    · exact h.sorted.insertOrAssign _ _
  · rw [hrange, hexact, hdynamic]
    have hlast : (router.routes.length ::
        (router.dynamicRoutes ++ router.exactIndex.flatMap Prod.snd)).Perm
          (List.range router.routes.length ++ [router.routes.length]) :=
      (h.once.cons _).trans (List.perm_append_singleton _ _).symm
    split_ifs
    · refine List.Perm.trans ?_ hlast
      rw [List.append_assoc]
      exact List.perm_middle
    · refine List.Perm.trans ?_ hlast
      exact ((FlatMap.flatMap_insertOrAssign_perm _ _ _).append_left _).trans List.perm_middle
  · intro i hi
    rw [hdynamic] at hi
    split_ifs at hi with hkind
    · rcases List.mem_append.1 hi with hi | hi
      · obtain ⟨route, hroute, his⟩ := h.dynamic i hi
        exact ⟨route, hold hroute, his⟩
      · rw [List.mem_singleton.1 hi]
        exact ⟨added, hnew, hkind⟩
    · obtain ⟨route, hroute, his⟩ := h.dynamic i hi
      exact ⟨route, hold hroute, his⟩
  · have hkept : ∀ e ∈ router.exactIndex, ∀ i ∈ e.2, ∃ route, router'.routes[i]? = some route ∧
        isDynamicPattern route.pattern = false ∧ route.pattern = e.1 := by
      intro e he i hi
      obtain ⟨route, hroute, hrest⟩ := h.literal e he i hi
      exact ⟨route, hold hroute, hrest⟩
    intro e he i hi
    rw [hexact] at he
    split_ifs at he with hkind
    · exact hkept e he i hi
    · rcases FlatMap.mem_insertOrAssign he with rfl | he
      · rcases List.mem_append.1 hi with hi | hi
        · -- an index that was under the pattern before
          cases hlookup : FlatMap.lookup pattern router.exactIndex with
          | none =>
            rw [hlookup] at hi
            cases hi
          | some indices =>
            rw [hlookup] at hi
            exact hkept _ ((FlatMap.lookup_eq_some_iff h.sorted).1 hlookup) i hi
        · rw [List.mem_singleton.1 hi]
          exact ⟨added, hnew, Bool.eq_false_of_not_eq_true hkind, rfl⟩
      · exact hkept e he i hi
  · rw [hroutes]
    refine List.pairwise_append.2 ⟨h.disjoint, List.pairwise_singleton _ _, ?_⟩
    intro route hmem last hlast heq
    rw [List.mem_singleton.1 hlast] at heq ⊢
    exact hdisjoint route hmem heq

/-- A call that registers no route. -/
theorem of_same_routes (h : router.Indexed) (hroutes : router'.routes = router.routes)
    (hexact : router'.exactIndex = router.exactIndex)
    (hdynamic : router'.dynamicRoutes = router.dynamicRoutes) : router'.Indexed where
  sorted := hexact ▸ h.sorted
  once := by
    rw [hroutes, hexact, hdynamic]
    exact h.once
  dynamic := by
    rw [hroutes, hdynamic]
    exact h.dynamic
  literal := by
    rw [hroutes, hexact]
    exact h.literal
  disjoint := hroutes ▸ h.disjoint

theorem apply (h : router.Indexed) (hreflects : Reference.Reflects calls router) {call : RouterCall}
    (hcall : router.apply call = .ok router') : router'.Indexed := by
  cases call with
  | route methods pattern handler => exact h.route hreflects hcall
  | mount mountPrefix bundle =>
    simp only [Router.apply, Router.mount, bind_eq_ok, ensure_eq_ok, exists_const, pure_eq_ok]
      at hcall
    obtain ⟨-, -, -, rfl⟩ := hcall
    exact h.of_same_routes rfl rfl rfl
  | use middleware =>
    simp only [Router.apply, Router.use, bind_eq_ok, orFail_eq_ok, pure_eq_ok] at hcall
    obtain ⟨f, rfl, rfl⟩ := hcall
    exact h.of_same_routes rfl rfl rfl
  | fallback handler =>
    simp only [Router.apply, Router.fallback, bind_eq_ok, orFail_eq_ok, ensure_eq_ok, exists_const,
      pure_eq_ok] at hcall
    obtain ⟨f, rfl, -, rfl⟩ := hcall
    exact h.of_same_routes rfl rfl rfl

/-- Where the route of an index is found. -/
theorem found (h : router.Indexed) {i : ℕ} (hi : i < router.routes.length) :
    (router.dynamicRoutes ++ router.exactIndex.flatMap Prod.snd).count i = 1 ∧
      ∃ route, router.routes[i]? = some route ∧
        (i ∈ router.dynamicRoutes ↔ isDynamicPattern route.pattern = true) ∧
        (isDynamicPattern route.pattern = false → ∃ indices,
          FlatMap.lookup route.pattern router.exactIndex = some indices ∧ i ∈ indices) := by
  have hcount : (router.dynamicRoutes ++ router.exactIndex.flatMap Prod.snd).count i = 1 := by
    rw [h.once.count_eq, List.count_eq_one_of_mem List.nodup_range (List.mem_range.2 hi)]
  have hmem : i ∈ router.dynamicRoutes ++ router.exactIndex.flatMap Prod.snd :=
    List.count_pos_iff.1 (by omega)
  refine ⟨hcount, ?_⟩
  rcases List.mem_append.1 hmem with hdynamic | hliteral
  · obtain ⟨route, hroute, his⟩ := h.dynamic i hdynamic
    refine ⟨route, hroute, iff_of_true hdynamic his, fun hnot => ?_⟩
    rw [his] at hnot
    cases hnot
  · obtain ⟨e, he, hie⟩ := List.mem_flatMap.1 hliteral
    obtain ⟨route, hroute, hnot, hpattern⟩ := h.literal e he i hie
    refine ⟨route, hroute, iff_of_false (fun hdynamic => ?_) (by rw [hnot]; decide), fun _ => ?_⟩
    · -- an index in both lists would occur twice
      rw [List.count_append] at hcount
      have h₁ := List.count_pos_iff.2 hdynamic
      have h₂ := List.count_pos_iff.2 hliteral
      omega
    · exact ⟨e.2, (FlatMap.lookup_eq_some_iff h.sorted).2 (hpattern ▸ he), hie⟩

end Router.Indexed

/-! ### Every router -/

/-- A router as calls have left it. -/
structure Router.Sound (router : Router) : Prop where
  reflects : ∃ calls, Reference.Reflects calls router
  indexed : router.Indexed

theorem sound_empty : Router.Sound {} := ⟨⟨[], Reference.reflects_nil⟩, indexed_empty⟩

theorem Router.Sound.apply {router router' : Router} (h : router.Sound) {call : RouterCall}
    (hcall : router.apply call = .ok router') : router'.Sound := by
  obtain ⟨calls, hreflects⟩ := h.reflects
  exact ⟨⟨_, hreflects.apply hcall⟩, h.indexed.apply hreflects hcall⟩

theorem Router.Sound.call {router : Router} (h : router.Sound) (c : Registering) :
    (router.call c).2.Sound := by
  rw [call_eq]
  cases hcall : router.apply c.toCall with
  | ok router' => exact h.apply hcall
  | error e => exact h

theorem Router.Sound.afterCalls {router : Router} (h : router.Sound) (calls : List Registering) :
    (router.afterCalls calls).Sound := by
  induction calls generalizing router with
  | nil => exact h
  | cons c rest ih => exact ih (h.call c)

/-! ### The indices fit -/

/-- A call registers one route at most. -/
theorem length_routes_of_apply {router router' : Router} {call : RouterCall}
    (hcall : router.apply call = .ok router') :
    router'.routes.length ≤ router.routes.length + 1 := by
  cases call with
  | route methods pattern handler =>
    obtain ⟨f, -, -, -, hroutes, -⟩ := Reference.route_eq_ok hcall
    rw [hroutes, List.length_append, List.length_singleton]
  | mount mountPrefix bundle =>
    simp only [Router.apply, Router.mount, bind_eq_ok, pure_eq_ok] at hcall
    obtain ⟨-, -, -, -, -, -, rfl⟩ := hcall
    exact Nat.le_succ _
  | use middleware =>
    simp only [Router.apply, Router.use, bind_eq_ok, pure_eq_ok] at hcall
    obtain ⟨f, -, rfl⟩ := hcall
    exact Nat.le_succ _
  | fallback handler =>
    simp only [Router.apply, Router.fallback, bind_eq_ok, pure_eq_ok] at hcall
    obtain ⟨f, -, -, -, rfl⟩ := hcall
    exact Nat.le_succ _

theorem length_routes_afterCalls_le (router : Router) (calls : List Registering) :
    (router.afterCalls calls).routes.length ≤ router.routes.length + calls.length := by
  induction calls generalizing router with
  | nil => exact le_rfl
  | cons c rest ih =>
    have hcall : (router.call c).2.routes.length ≤ router.routes.length + 1 := by
      rw [call_eq]
      cases happly : router.apply c.toCall with
      | ok router' => exact length_routes_of_apply happly
      | error e => exact Nat.le_succ _
    have hrest := ih (router.call c).2
    rw [List.length_cons]
    show ((router.call c).2.afterCalls rest).routes.length ≤ _
    omega

/-- The index of a route is below the number of the calls, so that a `uint32_t` keeps it. -/
theorem Router.Indexed.fits {calls : List Registering}
    (h : (Router.afterCalls {} calls).Indexed) (hcalls : calls.length ≤ 2 ^ 32) {i : ℕ}
    (hi : i ∈ (Router.afterCalls {} calls).dynamicRoutes ++
      (Router.afterCalls {} calls).exactIndex.flatMap Prod.snd) : (UInt32.ofNat i).toNat = i := by
  have hlt := List.mem_range.1 (h.once.mem_iff.1 hi)
  have hle := length_routes_afterCalls_le {} calls
  rw [List.length_nil, Nat.zero_add] at hle
  exact UInt32.toNat_ofNat_of_lt' (lt_of_lt_of_le hlt (hle.trans hcalls))

/-! ### Literal routes in any order -/

/-- Two registrations of one pattern share no method. -/
def Apart : RouterCall → RouterCall → Prop
  | .route methods pattern _, .route methods' pattern' _ =>
    pattern = pattern' → methods &&& methods' = .none
  | _, _ => True

/-- A route passes its own checks and shares no method with the routes there are. -/
def Fits (router : Router) : RouterCall → Prop
  | .route methods pattern handler => Reference.Registrable methods pattern handler ∧
    ∀ route ∈ router.routes, route.pattern = pattern → route.methods &&& methods = .none
  | _ => False

theorem and_comm_methods (left right : Method) : left &&& right = right &&& left :=
  congrArg Method.mk (UInt8.and_comm left.bits right.bits)

theorem Apart.symm {a b : RouterCall} (h : Apart a b) : Apart b a := by
  cases a <;> cases b <;> try trivial
  intro heq
  rw [and_comm_methods]
  exact h heq.symm

section

variable {router : Router} {l l' : List Registering}

theorem fits_of_accepted (h : router.Sound) {c : Registering} (hliteral : c.IsLiteral) :
    (router.call c).1.isOk = true ↔ Fits router c.toCall := by
  obtain ⟨calls, hreflects⟩ := h.reflects
  obtain ⟨methods, pattern, handler, hcall, -⟩ := hliteral
  rw [call_eq, hcall]
  show (settled router (router.route methods pattern handler)).1.isOk = true ↔
    Reference.Registrable methods pattern handler ∧ _
  rw [← Reference.accepted_iff hreflects]
  cases router.route methods pattern handler with
  | ok router' => exact iff_of_true rfl ⟨router', rfl⟩
  | error e => exact iff_of_false Bool.false_ne_true (by simp)

/-- A route fits after another one if it fits and the two are apart. -/
theorem fits_call {c d : Registering} (hliteral : c.IsLiteral)
    (haccepted : (router.call c).1.isOk = true) :
    Fits (router.call c).2 d.toCall ↔ Fits router d.toCall ∧ Apart c.toCall d.toCall := by
  obtain ⟨methods, pattern, handler, hcall, -⟩ := hliteral
  rw [call_eq, hcall] at haccepted ⊢
  cases hroute : router.route methods pattern handler with
  | error e =>
    rw [Router.apply, hroute] at haccepted
    cases haccepted
  | ok router' =>
    obtain ⟨f, rfl, -, -, hroutes, -⟩ := Reference.route_eq_ok hroute
    rw [Router.apply, hroute]
    cases d.toCall with
    | route methods' pattern' handler' =>
      show Reference.Registrable methods' pattern' handler' ∧ (∀ route ∈ router'.routes, _) ↔ _
      rw [hroutes]
      simp only [List.forall_mem_append, List.forall_mem_singleton]
      exact and_assoc.symm
    | mount mountPrefix bundle => exact ⟨False.elim, fun h => h.1⟩
    | use middleware => exact ⟨False.elim, fun h => h.1⟩
    | fallback handler => exact ⟨False.elim, fun h => h.1⟩

/-- Whether routes are accepted one after the other does not depend on their order. -/
theorem acceptsAll_iff (h : router.Sound) (hliteral : ∀ c ∈ l, c.IsLiteral) :
    router.acceptsAll l = true ↔ (∀ c ∈ l, Fits router c.toCall) ∧
      l.Pairwise fun a b => Apart a.toCall b.toCall := by
  induction l generalizing router with
  | nil => simp [Router.acceptsAll]
  | cons c rest ih =>
    obtain ⟨hfirst, hrest⟩ := List.forall_mem_cons.1 hliteral
    rw [Router.acceptsAll, Bool.and_eq_true, List.forall_mem_cons, List.pairwise_cons,
      ← fits_of_accepted h hfirst]
    by_cases haccepted : (router.call c).1.isOk = true
    · rw [ih (h.call c) hrest]
      simp only [haccepted, true_and, fits_call hfirst haccepted, forall₂_and, and_assoc]
    · simp [haccepted]

/-- Accepted calls are the calls of the reference. -/
theorem foldlM_of_acceptsAll (h : router.acceptsAll l = true) :
    (l.map Registering.toCall).foldlM Router.apply router = .ok (router.afterCalls l) := by
  induction l generalizing router with
  | nil => rfl
  | cons c rest ih =>
    rw [Router.acceptsAll, Bool.and_eq_true, call_eq] at h
    rw [List.map_cons, List.foldlM_cons, Router.afterCalls, List.foldl_cons, call_eq]
    cases hcall : router.apply c.toCall with
    | error e =>
      rw [hcall] at h
      cases h.1
    | ok router' =>
      rw [hcall] at h
      exact ih h.2

/-- Masks that share no method hold no method together. -/
theorem eq_none_of_contains {left right method : Method} (hapart : left &&& right = .none)
    (hleft : left.contains method = true) (hright : right.contains method = true) :
    method = .none := by
  have hl : left.bits &&& method.bits = method.bits := by simpa [Method.contains] using hleft
  have hr : right.bits &&& method.bits = method.bits := by simpa [Method.contains] using hright
  have hand : left.bits &&& right.bits = 0 := congrArg Method.bits hapart
  have hbits : method.bits = 0 := by
    calc method.bits = left.bits &&& (right.bits &&& method.bits) := by rw [hr, hl]
      _ = (left.bits &&& right.bits) &&& method.bits := (UInt8.and_assoc _ _ _).symm
      _ = 0 := by rw [hand, UInt8.zero_and]
  exact congrArg Method.mk hbits

theorem or_right_comm_methods (a b c : Method) : a ||| b ||| c = a ||| c ||| b := by
  show (⟨a.bits ||| b.bits ||| c.bits⟩ : Method) = ⟨a.bits ||| c.bits ||| b.bits⟩
  rw [UInt8.or_assoc, UInt8.or_comm b.bits, ← UInt8.or_assoc]

/-- At most one of some routes answers if their masks are apart, so their order does not matter. -/
theorem tryRoutes_perm {request : Request Bytes} (hmethod : request.method ≠ .none)
    {routes routes' : List Route} (hperm : routes.Perm routes')
    (happart : routes.Pairwise fun a b => a.methods &&& b.methods = .none) (allowed : Method) :
    tryRoutes request (fun _ => some []) allowed routes =
      tryRoutes request (fun _ => some []) allowed routes' := by
  induction hperm generalizing allowed with
  | nil => rfl
  | cons route hperm ih =>
    rw [tryRoutes, tryRoutes]
    dsimp only
    split_ifs
    · rfl
    · exact ih (List.pairwise_cons.1 happart).2 _
  | swap a b rest =>
    have hab : b.methods &&& a.methods = .none :=
      (List.pairwise_cons.1 happart).1 a List.mem_cons_self
    simp only [tryRoutes]
    split_ifs with hb ha ha
    · exact absurd (eq_none_of_contains hab hb ha) hmethod
    · rfl
    · rfl
    · rw [or_right_comm_methods]
  | trans hperm₁ hperm₂ ih₁ ih₂ =>
    have hsymm : ∀ a b : Route, a.methods &&& b.methods = .none →
        b.methods &&& a.methods = .none := fun a b h => and_comm_methods b.methods a.methods ▸ h
    rw [ih₁ happart]
    exact ih₂ ((hperm₁.pairwise_iff (hsymm _ _)).1 happart) allowed

/-- Literal calls mount nothing, use nothing and set no fallback. -/
theorem filterMap_literal {β : Type} {f : RouterCall → Option β}
    (hf : ∀ methods pattern handler, f (.route methods pattern handler) = none)
    (hliteral : ∀ c ∈ l, c.IsLiteral) : (l.map Registering.toCall).filterMap f = [] := by
  rw [List.filterMap_eq_nil_iff]
  intro call hcall
  obtain ⟨c, hc, rfl⟩ := List.mem_map.1 hcall
  obtain ⟨methods, pattern, handler, heq, -⟩ := hliteral c hc
  rw [heq, hf]

/-- The dynamic routes are the ones from before. -/
theorem filter_dynamic_literal (calls : List RouterCall) (hliteral : ∀ c ∈ l, c.IsLiteral) :
    ((Reference.registrations (calls ++ l.map Registering.toCall)).map
      Reference.Registration.compiled).filter (fun route => isDynamicPattern route.pattern) =
    ((Reference.registrations calls).map Reference.Registration.compiled).filter
      fun route => isDynamicPattern route.pattern := by
  rw [Reference.registrations, List.filterMap_append, List.map_append, List.filter_append,
    ← Reference.registrations]
  have hnone : (((l.map Registering.toCall).filterMap Reference.registrationOf).map
      Reference.Registration.compiled).filter (fun route => isDynamicPattern route.pattern) = [] := by
    refine List.filter_eq_nil_iff.2 fun route hroute => ?_
    obtain ⟨registration, hregistration, rfl⟩ := List.mem_map.1 hroute
    obtain ⟨call, hcall, hof⟩ := List.mem_filterMap.1 hregistration
    obtain ⟨c, hc, rfl⟩ := List.mem_map.1 hcall
    obtain ⟨methods, pattern, handler, heq, hnot⟩ := hliteral c hc
    rw [heq] at hof
    cases handler with
    | none => cases hof
    | some f =>
      cases hof
      exact Bool.not_eq_true _ ▸ hnot
  rw [hnone, List.append_nil]

theorem dispatch_of_perm (h : router.Sound) (hliteral : ∀ c ∈ l, c.IsLiteral) (hperm : l.Perm l')
    (hl : router.acceptsAll l = true) (hl' : router.acceptsAll l' = true) (request : Request Bytes) :
    (router.afterCalls l').dispatch request = (router.afterCalls l).dispatch request := by
  obtain ⟨calls, hreflects⟩ := h.reflects
  have h₁ := hreflects.foldlM (foldlM_of_acceptsAll hl)
  have h₂ := hreflects.foldlM (foldlM_of_acceptsAll hl')
  have hliteral' : ∀ c ∈ l', c.IsLiteral := fun c hc => hliteral c (hperm.mem_iff.2 hc)
  have hroutes : (router.afterCalls l').routes.Perm (router.afterCalls l).routes := by
    rw [h₁.routes, h₂.routes]
    exact (((hperm.symm.map _).append_left calls).filterMap _).map _
  -- Apart from the exact index, the two routers are the same.
  have hmiddleware : (router.afterCalls l').middleware = (router.afterCalls l).middleware := by
    rw [h₁.middleware, h₂.middleware, List.filterMap_append, List.filterMap_append,
      filterMap_literal (fun _ _ _ => rfl) hliteral, filterMap_literal (fun _ _ _ => rfl) hliteral']
  have hmounts : (router.afterCalls l').mounts = (router.afterCalls l).mounts := by
    rw [h₁.mounts, h₂.mounts, List.filterMap_append, List.filterMap_append,
      filterMap_literal (fun _ _ _ => rfl) hliteral, filterMap_literal (fun _ _ _ => rfl) hliteral']
  have hfallback : (router.afterCalls l').fallbackHandler = (router.afterCalls l).fallbackHandler := by
    rw [h₁.fallback, h₂.fallback, ← List.head?_filterMap, ← List.head?_filterMap,
      List.filterMap_append, List.filterMap_append, filterMap_literal (fun _ _ _ => rfl) hliteral,
      filterMap_literal (fun _ _ _ => rfl) hliteral']
  have hdynamic : (router.afterCalls l').select (router.afterCalls l').dynamicRoutes =
      (router.afterCalls l).select (router.afterCalls l).dynamicRoutes := by
    rw [h₁.dynamic_select, h₂.dynamic_select, h₁.routes, h₂.routes,
      filter_dynamic_literal calls hliteral, filter_dynamic_literal calls hliteral']
  rw [Router.dispatch, Router.dispatch]
  by_cases hmethod : request.method = .none
  · rw [hmethod]
    rfl
  · have hexact : tryRoutes request.clearPathParameters (fun _ => some []) .none
        ((router.afterCalls l').select
          ((FlatMap.lookup request.path (router.afterCalls l').exactIndex).getD [])) =
        tryRoutes request.clearPathParameters (fun _ => some []) .none
          ((router.afterCalls l).select
            ((FlatMap.lookup request.path (router.afterCalls l).exactIndex).getD [])) := by
      rw [h₁.exact_select, h₂.exact_select]
      have hcleared : request.clearPathParameters.method ≠ .none := hmethod
      refine tryRoutes_perm hcleared (hroutes.filter _) ?_ .none
      refine ((h.afterCalls l').indexed.disjoint.filter _).imp_of_mem ?_
      intro a b ha hb hapart
      simp only [List.mem_filter, Bool.and_eq_true, beq_iff_eq] at ha hb
      exact hapart (ha.2.2.trans hb.2.2.symm)
    have hsearch : (router.afterCalls l').search request.clearPathParameters =
        (router.afterCalls l).search request.clearPathParameters := by
      unfold Router.search
      rw [hmounts, hdynamic]
      show (tryRoutes request.clearPathParameters (fun _ => some []) .none
        ((router.afterCalls l').select
          ((FlatMap.lookup request.path (router.afterCalls l').exactIndex).getD [])) >>= _) = _
      rw [hexact]
      rfl
    have hresolve : (router.afterCalls l').resolve request.clearPathParameters =
        (router.afterCalls l).resolve request.clearPathParameters := by
      unfold Router.resolve Router.conclude
      rw [hmiddleware, hsearch, hfallback]
    rw [hresolve]

end

/-- **The representation of a router.**  After any calls, accepted or rejected: every index of a
route occurs once, among the dynamic routes if its pattern has a capture or a wildcard, and under
its own pattern otherwise; routes of one pattern share no method; a call that throws leaves the
router as it was; and literal routes that are accepted in one order are accepted in every order,
and the routers answer every request the same.  Up to 2³² calls the `uint32_t` of the source keeps
every index. -/
theorem router_representation (calls : List Registering) :
    (∀ i < (Router.afterCalls {} calls).routes.length,
      ((Router.afterCalls {} calls).dynamicRoutes ++
        (Router.afterCalls {} calls).exactIndex.flatMap Prod.snd).count i = 1 ∧
      ∃ route, (Router.afterCalls {} calls).routes[i]? = some route ∧
        (i ∈ (Router.afterCalls {} calls).dynamicRoutes ↔ isDynamicPattern route.pattern = true) ∧
        (isDynamicPattern route.pattern = false → ∃ indices,
          FlatMap.lookup route.pattern (Router.afterCalls {} calls).exactIndex = some indices ∧
            i ∈ indices)) ∧
    ((Router.afterCalls {} calls).routes.Pairwise fun a b =>
      a.pattern = b.pattern → a.methods &&& b.methods = .none) ∧
    (∀ c error, ((Router.afterCalls {} calls).call c).1 = .error error →
      ((Router.afterCalls {} calls).call c).2 = Router.afterCalls {} calls) ∧
    (∀ l l' : List Registering, (∀ c ∈ l, c.IsLiteral) → l.Perm l' →
      (Router.afterCalls {} calls).acceptsAll l = true →
      (Router.afterCalls {} calls).acceptsAll l' = true ∧ ∀ request,
        ((Router.afterCalls {} calls).afterCalls l').dispatch request =
          ((Router.afterCalls {} calls).afterCalls l).dispatch request) ∧
    (calls.length ≤ 2 ^ 32 → ∀ i ∈ (Router.afterCalls {} calls).dynamicRoutes ++
      (Router.afterCalls {} calls).exactIndex.flatMap Prod.snd, (UInt32.ofNat i).toNat = i) := by
  have hsound := sound_empty.afterCalls calls
  refine ⟨fun i hi => hsound.indexed.found hi, hsound.indexed.disjoint, ?_, ?_,
    fun hcalls i hi => hsound.indexed.fits hcalls hi⟩
  · intro c error herror
    rw [call_eq] at herror ⊢
    cases hcall : (Router.afterCalls {} calls).apply c.toCall with
    | ok router' =>
      rw [hcall] at herror
      cases herror
    | error e => rfl
  · intro l l' hliteral hperm hl
    have hl' : (Router.afterCalls {} calls).acceptsAll l' = true := by
      obtain ⟨hfits, happart⟩ := (acceptsAll_iff hsound hliteral).1 hl
      refine (acceptsAll_iff hsound fun c hc => hliteral c (hperm.mem_iff.2 hc)).2 ⟨?_, ?_⟩
      · exact fun c hc => hfits c (hperm.mem_iff.2 hc)
      · exact (hperm.pairwise_iff Apart.symm).1 happart
    exact ⟨hl', dispatch_of_perm hsound hliteral hperm hl hl'⟩

end ErikslundHttp
