import ErikslundHttp.Response.Headers
import ErikslundHttp.Router.Registration

/-!
# Methods that are not allowed

A dispatch collects the methods of what matches the path on its way, and answers 405 with them when
nothing on the way has the method of the request.  What is served under a method is said by another
dispatch, of the same path with that method, which stops where it is served.

* `offered`: what matches depends on the path alone.
* `search_spec`, `serves_iff`: a dispatch is served if one of the masks that match has its method,
  and one that is not collects all of them.
* `not_allowed_is_what_is_not_served`: so the two kinds of dispatch agree.
-/

namespace ErikslundHttp

open Router Reference

/-! ### What is served -/

namespace Router

/-- The dispatch of a request runs the handler of a route or answers from a mounted asset. -/
def serves (router : Router) (request : Request Bytes) : Bool :=
  match router.search request.clearPathParameters with
  | .error _ => true
  | .ok _ => false

/-- The methods under which the path of a request is served, each tried by a dispatch of its own. -/
def servedMethods (router : Router) (request : Request Bytes) : List Method :=
  Method.all.filter fun method => router.serves { request with method := method }

/-- The router answers its own 405, with these methods. -/
def NotAllowed (router : Router) (request : Request Bytes) (allowed : Method) : Prop :=
  router.search request.clearPathParameters = .ok allowed ∧ allowed ≠ .none

/-- No middleware answers in place of the router. -/
def PassesThrough (router : Router) : Prop :=
  ∀ middleware ∈ router.middleware, ∀ request, invokeMiddleware middleware request = none

/-- The dispatch is its search, when no middleware answers. -/
theorem dispatch_eq_search {router : Router} (h : router.PassesThrough) {request : Request Bytes}
    (hmethod : request.method ≠ .none) : router.dispatch request =
      match router.search request.clearPathParameters with
      | .error response => response
      | .ok allowed => router.conclude request.clearPathParameters allowed := by
  have hmiddleware : runMiddleware request.clearPathParameters router.middleware = .ok () := by
    have hnone : router.middleware.findSome? (invokeMiddleware · request.clearPathParameters) =
        none := List.findSome?_eq_none_iff.2 fun middleware hmem => h middleware hmem _
    rw [runMiddleware_eq, hnone]
  have hne : (request.method == Method.none) = false := by simpa using hmethod
  rw [Router.dispatch, hne, if_neg Bool.false_ne_true, Router.resolve, hmiddleware, ok_bind]
  cases router.search request.clearPathParameters <;> rfl

end Router

/-! ### What matches a path -/

section

variable (router : Router) (path : Bytes)

/-- The routes that match a path, with their captures. -/
def matchedRoutes : List (Route × List Header) :=
  matched (fun _ => some []) (router.select ((FlatMap.lookup path router.exactIndex).getD [])) ++
    matched (fun candidate => matchPath candidate.segments candidate.hasWildcard path)
      (router.select router.dynamicRoutes)

/-- The masks of what matches a path, in the order of the search. -/
def offered : List Method :=
  (matchedRoutes router path).map (·.1.methods) ++
    (router.mounts.filterMap (·.findAsset path)).map fun _ => getAndHead

end

section

variable {router : Router}

/-- A search ends early if something that matches has the method, and collects all masks if not. -/
theorem search_spec (router : Router) (request : Request Bytes) :
    (∃ response, router.search request = .error response) ∧
        ((offered router request.path).any fun mask => mask.contains request.method) = true ∨
      router.search request = .ok ((offered router request.path).foldl (· ||| ·) .none) ∧
        ((offered router request.path).any fun mask => mask.contains request.method) = false := by
  rw [search_eq, tryRoutes_bind, ← matchedRoutes, offered, List.any_append, List.any_map]
  cases hfind : (matchedRoutes router request.path).find?
      fun c => c.1.methods.contains request.method with
  | some c =>
    refine .inl ⟨⟨_, rfl⟩, ?_⟩
    rw [Bool.or_eq_true, List.any_eq_true]
    exact .inl ⟨c, List.mem_of_find?_eq_some hfind, by simpa using List.find?_some hfind⟩
  | none =>
    have hroutes : (matchedRoutes router request.path).any
        ((fun mask : Method => mask.contains request.method) ∘ fun c => c.1.methods) = false :=
      List.any_eq_false.2 fun c hc => List.find?_eq_none.1 hfind c hc
    rw [hroutes, Bool.false_or, ok_bind, tryMounts_eq, List.foldl_append, List.foldl_map,
      List.foldl_map]
    cases router.mounts.filterMap (·.findAsset request.path) with
    | nil => exact .inr ⟨rfl, rfl⟩
    | cons asset rest =>
      cases hmethod : getAndHead.contains request.method with
      | true => exact .inl ⟨⟨_, rfl⟩, by simp [hmethod]⟩
      | false => exact .inr ⟨rfl, by simp [hmethod]⟩

theorem serves_iff (request : Request Bytes) : router.serves request =
    (offered router request.path).any fun mask => mask.contains request.method := by
  have hspec := search_spec router request.clearPathParameters
  rw [Router.serves]
  rcases hspec with ⟨⟨response, herror⟩, hany⟩ | ⟨hok, hany⟩
  · rw [herror]
    exact hany.symm
  · rw [hok]
    exact hany.symm

/-- What is served depends on the path alone. -/
theorem servedMethods_eq (request : Request Bytes) : router.servedMethods request =
    Method.all.filter
      (Method.contains ((offered router request.path).foldl (· ||| ·) Method.none)) := by
  refine List.filter_congr fun method hmethod => ?_
  rw [serves_iff, contains_foldl_or hmethod]
  have hnone : Method.none.contains method = false := by
    revert method
    decide +kernel
  rw [hnone, Bool.false_or]

/-- A matched route is one of the router's. -/
theorem mem_routes_of_matchedRoutes {path : Bytes} {c : Route × List Header}
    (h : c ∈ matchedRoutes router path) : c.1 ∈ router.routes := by
  have hselect : ∀ {indices : List ℕ} {route : Route}, route ∈ router.select indices →
      route ∈ router.routes := by
    intro indices route hroute
    obtain ⟨index, -, hindex⟩ := List.mem_filterMap.1 hroute
    exact List.mem_of_getElem? hindex
  rcases List.mem_append.1 h with h | h
  all_goals
    obtain ⟨route, hroute, hattempt⟩ := List.mem_filterMap.1 h
    obtain ⟨captures, -, rfl⟩ := Option.map_eq_some_iff.1 hattempt
    exact hselect hroute

/-- Every mask that matches has a method, if every route has one. -/
theorem exists_method_of_offered
    (hmasks : ∀ route ∈ router.routes, ∃ method ∈ Method.all, route.methods.contains method = true)
    {path : Bytes} {mask : Method} (h : mask ∈ offered router path) :
    ∃ method ∈ Method.all, mask.contains method = true := by
  rcases List.mem_append.1 h with h | h
  · obtain ⟨c, hc, rfl⟩ := List.mem_map.1 h
    exact hmasks c.1 (mem_routes_of_matchedRoutes hc)
  · obtain ⟨asset, -, rfl⟩ := List.mem_map.1 h
    exact ⟨.get, by decide, by decide⟩

theorem name_nodup : (Method.all.map Method.name).Nodup := by decide +kernel

theorem mem_servedMethods_iff {request : Request Bytes} {method : Method} :
    method ∈ router.servedMethods request ↔ method ∈ Method.all ∧
      ((offered router request.path).any fun mask => mask.contains method) = true := by
  rw [Router.servedMethods, List.mem_filter, serves_iff]

theorem servedMethods_ne_nil_iff
    (hmasks : ∀ route ∈ router.routes, ∃ method ∈ Method.all, route.methods.contains method = true)
    (request : Request Bytes) :
    router.servedMethods request ≠ [] ↔ offered router request.path ≠ [] := by
  constructor
  · intro hserved hnil
    obtain ⟨method, hmem⟩ := List.exists_mem_of_ne_nil _ hserved
    rw [mem_servedMethods_iff, hnil] at hmem
    cases hmem.2
  · intro hoffered
    obtain ⟨mask, hmask⟩ := List.exists_mem_of_ne_nil _ hoffered
    obtain ⟨method, hmethod, hcontains⟩ := exists_method_of_offered hmasks hmask
    exact List.ne_nil_of_mem
      (mem_servedMethods_iff.2 ⟨hmethod, List.any_eq_true.2 ⟨mask, hmask, hcontains⟩⟩)

theorem foldl_offered_eq_none_iff
    (hmasks : ∀ route ∈ router.routes, ∃ method ∈ Method.all, route.methods.contains method = true)
    {path : Bytes} :
    (offered router path).foldl (· ||| ·) .none = .none ↔ offered router path = [] := by
  rw [foldl_or_eq_none_iff, and_iff_right rfl]
  intro mask hmask hnone
  obtain ⟨method, hmethod, hcontains⟩ := exists_method_of_offered hmasks hmask
  rw [hnone] at hcontains
  revert method
  decide +kernel

theorem notAllowed_iff {request : Request Bytes} {allowed : Method} :
    router.NotAllowed request allowed ↔
      allowed = (offered router request.path).foldl (· ||| ·) .none ∧
        ((offered router request.path).any fun mask => mask.contains request.method) = false ∧
        allowed ≠ .none := by
  rw [Router.NotAllowed]
  rcases search_spec router request.clearPathParameters with ⟨⟨response, herror⟩, hany⟩ | ⟨hok, hany⟩
  · rw [herror]
    refine iff_of_false (fun h => by cases h.1) fun h => ?_
    exact Bool.false_ne_true (h.2.1.symm.trans hany)
  · rw [hok, Except.ok.injEq, eq_comm]
    exact ⟨fun h => ⟨h.1, hany, h.2⟩, fun h => ⟨h.1, h.2.2⟩⟩

/-- A list of methods can stand in a field. -/
theorem isValidFieldValue_intercalate {separator : Bytes} (hseparator : isValidFieldValue separator)
    {items : List Bytes} (h : ∀ item ∈ items, isValidFieldValue item = true) :
    isValidFieldValue (separator.intercalate items) = true := by
  induction items with
  | nil => rfl
  | cons item items ih =>
    obtain ⟨hitem, hitems⟩ := List.forall_mem_cons.1 h
    cases items with
    | nil => simpa [List.intercalate] using hitem
    | cons next items =>
      have hcons : separator.intercalate (item :: next :: items) =
          item ++ (separator ++ separator.intercalate (next :: items)) := by
        simp [List.intercalate]
      rw [hcons, isValidFieldValue, List.all_append, List.all_append, Bool.and_eq_true,
        Bool.and_eq_true]
      exact ⟨hitem, hseparator, ih hitems⟩

theorem findHeader_methodNotAllowedResponse (allowed : Method) :
    (methodNotAllowedResponse allowed).findHeader (ascii "Allow") =
      some (allowFieldValue allowed) := by
  have hvalue : isValidFieldValue (allowFieldValue allowed) = true := by
    refine isValidFieldValue_intercalate (by decide) fun item hitem => ?_
    obtain ⟨method, hmethod, rfl⟩ := List.mem_map.1 hitem
    have hnames : ∀ method ∈ Method.all, isValidFieldValue method.name = true := by decide +kernel
    exact hnames method (List.mem_filter.1 hmethod).1
  rw [methodNotAllowedResponse, Response.findHeader_header (by decide) hvalue,
    if_pos (equalsIgnoreCase_refl _)]

/-- **The two runs of a 405.**  Let a router that any calls have made have a method in every mask,
and let no middleware answer.  For a request of any path: the router answers its own 405 exactly if
the path is served under some method and not under the method of the request.  The answer then
lists the methods that are served, each once, and the method of the request is not one of them.
Which methods are served depends on the path alone.  For every request of any method the search is
what the dispatch does: it answers what the search answers, or ends with what it has collected. -/
theorem not_allowed_is_what_is_not_served (calls : List Registering)
    (hpasses : (Router.afterCalls {} calls).PassesThrough)
    (hmasks : ∀ route ∈ (Router.afterCalls {} calls).routes,
      ∃ method ∈ Method.all, route.methods.contains method = true)
    (request : Request Bytes) (hmethod : request.method ∈ Method.all) :
    ((∃ allowed, (Router.afterCalls {} calls).NotAllowed request allowed) ↔
      (Router.afterCalls {} calls).servedMethods request ≠ [] ∧
        request.method ∉ (Router.afterCalls {} calls).servedMethods request) ∧
    (∀ allowed, (Router.afterCalls {} calls).NotAllowed request allowed →
      (Router.afterCalls {} calls).dispatch request = methodNotAllowedResponse allowed ∧
      ((Router.afterCalls {} calls).dispatch request).findHeader (ascii "Allow") =
        some ((ascii ", ").intercalate
          (((Router.afterCalls {} calls).servedMethods request).map Method.name)) ∧
      (((Router.afterCalls {} calls).servedMethods request).map Method.name).Nodup ∧
      request.method.name ∉ ((Router.afterCalls {} calls).servedMethods request).map Method.name) ∧
    (∀ other : Request Bytes, other.path = request.path →
      (Router.afterCalls {} calls).servedMethods other =
        (Router.afterCalls {} calls).servedMethods request) ∧
    ∀ other : Request Bytes, other.method ≠ .none →
      (Router.afterCalls {} calls).dispatch other =
        match (Router.afterCalls {} calls).search other.clearPathParameters with
        | .error response => response
        | .ok allowed =>
          (Router.afterCalls {} calls).conclude other.clearPathParameters allowed := by
  have hne : request.method ≠ .none := by
    intro hnone
    rw [hnone] at hmethod
    revert hmethod
    decide
  refine ⟨?_, ?_, ?_, fun other hother => dispatch_eq_search hpasses hother⟩
  · constructor
    · rintro ⟨allowed, hallowed⟩
      obtain ⟨rfl, hany, hsome⟩ := notAllowed_iff.1 hallowed
      refine ⟨(servedMethods_ne_nil_iff hmasks request).2 fun hnil => ?_, fun hmem => ?_⟩
      · rw [hnil] at hsome
        exact hsome rfl
      · rw [(mem_servedMethods_iff.1 hmem).2] at hany
        cases hany
    · rintro ⟨hserved, hnot⟩
      refine ⟨_, notAllowed_iff.2 ⟨rfl, ?_, fun hnone => ?_⟩⟩
      · exact Bool.eq_false_of_not_eq_true fun hany =>
          hnot (mem_servedMethods_iff.2 ⟨hmethod, hany⟩)
      · exact (servedMethods_ne_nil_iff hmasks request).1 hserved
          ((foldl_offered_eq_none_iff hmasks).1 hnone)
  · rintro allowed hallowed
    have hdispatch : (Router.afterCalls {} calls).dispatch request =
        methodNotAllowedResponse allowed := by
      rw [dispatch_eq_search hpasses hne, hallowed.1]
      show Router.conclude _ _ allowed = _
      rw [Router.conclude, if_pos (by simpa using hallowed.2)]
    obtain ⟨rfl, hany, -⟩ := notAllowed_iff.1 hallowed
    refine ⟨hdispatch, ?_, ?_, ?_⟩
    · rw [hdispatch, findHeader_methodNotAllowedResponse, allowFieldValue, servedMethods_eq]
    · exact name_nodup.sublist (List.filter_sublist.map Method.name)
    · intro hmem
      obtain ⟨method, hserved, hname⟩ := List.mem_map.1 hmem
      obtain ⟨hall, hserves⟩ := mem_servedMethods_iff.1 hserved
      rw [List.inj_on_of_nodup_map name_nodup hall hmethod hname, hany] at hserves
      cases hserves
  · intro other hpath
    rw [servedMethods_eq, servedMethods_eq, hpath]

/-- One path with a literal route, a capture and a mounted asset, and a call that is rejected. -/
def thingCalls : List Registering :=
  [.post (ascii "/thing") (some fun _ => .threw), .del (ascii "/\x7bname\x7d") (some fun _ => .threw),
    .post (ascii "/thing") (some fun _ => .threw),
    .mount (ascii "/") ⟨[{ path := ascii "/thing" }]⟩, .use (some fun _ => .returned none)]

/-- A request with a method that the route does not have. -/
def putThing : Request Bytes := { Request.init with method := .put, path := ascii "/thing" }

theorem put_thing_is_not_allowed :
    (∃ allowed, (Router.afterCalls {} thingCalls).NotAllowed putThing allowed) ∧
      ((Router.afterCalls {} thingCalls).dispatch putThing).findHeader (ascii "Allow") =
        some (ascii "GET, HEAD, POST, DELETE") := by
  have hpasses : (Router.afterCalls {} thingCalls).PassesThrough := by
    intro middleware hmem request
    have hlist : (Router.afterCalls {} thingCalls).middleware = [fun _ => .returned none] := rfl
    rw [hlist, List.mem_singleton] at hmem
    rw [hmem]
    rfl
  have hmasks : ∀ route ∈ (Router.afterCalls {} thingCalls).routes,
      ∃ method ∈ Method.all, route.methods.contains method = true := by
    have hlist : (Router.afterCalls {} thingCalls).routes.map Route.methods = [.post, .delete] := by
      decide +kernel
    intro route hroute
    have hmem : route.methods ∈ [Method.post, Method.delete] := hlist ▸ List.mem_map_of_mem hroute
    revert hmem
    generalize route.methods = mask
    revert mask
    decide +kernel
  have hserved : (Router.afterCalls {} thingCalls).servedMethods putThing =
      [.get, .head, .post, .delete] := by
    decide +kernel
  obtain ⟨hiff, hallow, -⟩ := not_allowed_is_what_is_not_served thingCalls hpasses hmasks putThing
    (by decide)
  have hnot : ∃ allowed, (Router.afterCalls {} thingCalls).NotAllowed putThing allowed := by
    rw [hiff, hserved]
    decide
  refine ⟨hnot, ?_⟩
  obtain ⟨allowed, hallowed⟩ := hnot
  rw [(hallow allowed hallowed).2.1, hserved]
  decide +kernel

/-- A mask may hold none of the methods and pass the check of `Router::route`.  The path of such a
route is served under no method, and answered by a 405 that allows nothing. -/
theorem not_allowed_under_unnamed_mask :
    let calls : List Registering := [.route ⟨0x80⟩ (ascii "/thing") (some fun _ => .threw)]
    (Router.afterCalls {} calls).PassesThrough ∧
      (Router.afterCalls {} calls).servedMethods putThing = [] ∧
      (Router.afterCalls {} calls).NotAllowed putThing ⟨0x80⟩ ∧
      ((Router.afterCalls {} calls).dispatch putThing).status = .methodNotAllowed ∧
      ((Router.afterCalls {} calls).dispatch putThing).findHeader (ascii "Allow") = some [] := by
  intro calls
  refine ⟨nofun, by decide +kernel, ⟨?_, by decide⟩, by decide +kernel, by decide +kernel⟩
  rfl

end

end ErikslundHttp
