import ErikslundHttp.Request.Stream
import ErikslundHttp.Router.Basic

/-!
# What the router is for

The reference semantics of a router says how a request is answered in terms of the registrations
alone, in the order they were made: no index, no compiled segments, no loops over bytes, and with
answers of its own.

* `Reference.dispatch` is that semantics: who answers (`candidates`, `heldAssets`), and what
  (`middlewareAnswer`, `handlerAnswer`, `assetAnswer`, `notAllowedAnswer`, `fallbackAnswer`).
* `Reference.Reflects` is the invariant that ties a router to the calls that built it.
* `Reference.reflects_build`: every accepted call keeps it, so that it holds of every router that a
  sequence of calls builds.
-/

namespace ErikslundHttp

open Scan

/-! ### Registrations -/

/-- A call of the registration interface. -/
inductive RouterCall where
  | route (methods : Method) (pattern : Bytes) (handler : Option Handler)
  | mount (mountPrefix : Bytes) (bundle : AssetBundle)
  | use (middleware : Option Middleware)
  | fallback (handler : Option Handler)

/-- A call that throws leaves no router to go on with. -/
def Router.apply (router : Router) : RouterCall → Except ServerError Router
  | .route methods pattern handler => router.route methods pattern handler
  | .mount mountPrefix bundle => router.mount mountPrefix bundle
  | .use middleware => router.use middleware
  | .fallback handler => router.fallback handler

/-- The router that a sequence of calls builds. -/
def Router.build (calls : List RouterCall) : Except ServerError Router :=
  calls.foldlM Router.apply {}

namespace Reference

/-- A route as it was registered. -/
structure Registration where
  methods : Method
  pattern : Bytes
  handler : Handler

/-- The route of a call that registers one. -/
def registrationOf : RouterCall → Option Registration
  | .route methods pattern (some handler) => some ⟨methods, pattern, handler⟩
  | _ => none

/-- The mount of a call; its prefix ends with `/`. -/
def mountOf : RouterCall → Option Mount
  | .mount mountPrefix bundle =>
    some ⟨if mountPrefix.getLast? = some (byte '/') then mountPrefix else mountPrefix ++ [byte '/'],
      bundle⟩
  | _ => none

/-- The middleware of a call. -/
def middlewareOf : RouterCall → Option Middleware
  | .use middleware => middleware
  | _ => none

/-- The handler of a call that sets the fallback. -/
def fallbackOf : RouterCall → Option Handler
  | .fallback handler => handler
  | _ => none

/-- The routes, in registration order. -/
def registrations (calls : List RouterCall) : List Registration :=
  calls.filterMap registrationOf

/-! ### What matches a path -/

/-- The routes that match a path, with their captures: first the literal patterns that are the
path, then the dynamic patterns, each in registration order. -/
def candidates (calls : List RouterCall) (path : Bytes) : List (Registration × List Header) :=
  ((registrations calls).filter fun r => !isDynamicPattern r.pattern && r.pattern == path).map
      (·, []) ++
    ((registrations calls).filter fun r => isDynamicPattern r.pattern).filterMap fun r =>
      (matchPattern r.pattern path).map (r, ·)

/-- The asset a mount holds for a path below it: by the path, or by the path relative to it. -/
def heldAsset (path : Bytes) (mount : Mount) : Option Asset :=
  if mount.mountPrefix <+: path then
    (mount.bundle.find path).or (mount.bundle.find (path.drop (mount.mountPrefix.length - 1)))
  else none

/-- The assets for a path, one per mount that holds one, in registration order. -/
def heldAssets (calls : List RouterCall) (path : Bytes) : List Asset :=
  (calls.filterMap mountOf).filterMap (heldAsset path)

/-! ### What is answered -/

/-- A response with these fields, set one after the other. -/
def answer (status : Status) (body : Bytes) (fields : List (Bytes × Bytes)) : Response :=
  fields.foldl (fun response field => response.setHeader field.1 field.2)
    { status := status, body := body }

/-- A line of text that the router itself answers. -/
def plainAnswer (status : Status) (body : Bytes) (fields : List (Bytes × Bytes)) : Response :=
  answer status body ((ascii "Content-Type", ascii "text/plain; charset=utf-8") :: fields)

/-- Application code that throws. -/
def failedAnswer : Response := plainAnswer .internalServerError (ascii "Internal Server Error\n") []

/-- The response of a middleware, if it has one; a middleware that throws has answered. -/
def middlewareAnswer (middleware : Middleware) (request : Request Bytes) : Option Response :=
  match middleware request with
  | .returned (some response) => some response
  | .returned none => none
  | .threw => some failedAnswer

/-- The response of a handler. -/
def handlerAnswer (handler : Handler) (request : Request Bytes) : Response :=
  match handler request with
  | .returned response => response
  | .threw => failedAnswer

/-- An asset is refused to who names codings and does not take the one it is kept in; who has it
already, by its tag, is told so; everyone else gets its bytes.  An asset never changes. -/
def assetAnswer (asset : Asset) (request : Request Bytes) : Response :=
  let vary := if asset.contentEncoding = [] then []
    else [(ascii "Vary", ascii "Accept-Encoding")]
  let tag := if asset.etag = [] then [] else [(ascii "ETag", asset.etag)]
  let cached := [(ascii "Cache-Control", ascii "public, max-age=31536000, immutable")]
  if asset.contentEncoding ≠ [] ∧ (request.header (ascii "Accept-Encoding")).isSome ∧
      request.wantsGzip = false then
    plainAnswer .notAcceptable (ascii "Not Acceptable\n") vary
  else if asset.etag ≠ [] ∧ (request.header (ascii "If-None-Match")).any
      (ifNoneMatchMatches · asset.etag) then
    answer .notModified [] (tag ++ cached ++ vary)
  else
    answer .ok asset.bytes
      ((if asset.contentType = [] then [] else [(ascii "Content-Type", asset.contentType)]) ++ tag ++
        (if asset.contentEncoding = [] then []
          else [(ascii "Content-Encoding", asset.contentEncoding)]) ++ vary ++ cached)

/-- Whether assets answer a method. -/
def readsAssets (method : Method) : Bool := method = .get || method = .head

/-- The methods under which something matches a path. -/
def allowedMethods (calls : List RouterCall) (path : Bytes) : List Method :=
  Method.all.filter fun method =>
    (candidates calls path).any (fun c => c.1.methods.contains method) ||
      !(heldAssets calls path).isEmpty && readsAssets method

/-- The names of the methods, in one `Allow` field. -/
def notAllowedAnswer (allowed : List Method) : Response :=
  plainAnswer .methodNotAllowed (ascii "Method Not Allowed\n")
    [(ascii "Allow", (ascii ", ").intercalate (allowed.map Method.name))]

/-- The answer of a router that has no fallback. -/
def notFoundAnswer : Response := plainAnswer .notFound (ascii "Not Found\n") []

/-- The answer for a path that nothing matches: that of the fallback, if one is set. -/
def fallbackAnswer (calls : List RouterCall) (request : Request Bytes) : Response :=
  match calls.findSome? fallbackOf with
  | some handler => handlerAnswer handler request
  | none => notFoundAnswer

/-- How a request is answered, by the registrations alone. -/
def dispatch (calls : List RouterCall) (request : Request Bytes) : Response :=
  match (calls.filterMap middlewareOf).findSome? (middlewareAnswer · request) with
  | some response => response
  | none =>
    match (candidates calls request.path).find? fun c => c.1.methods.contains request.method with
    | some (route, captures) =>
      handlerAnswer route.handler { request with pathParameters := captures }
    | none =>
      match heldAssets calls request.path, readsAssets request.method with
      | asset :: _, true => assetAnswer asset request
      | held, _ =>
        if candidates calls request.path ≠ [] ∨ held ≠ [] then
          notAllowedAnswer (allowedMethods calls request.path)
        else fallbackAnswer calls request

/-! ### Routers reflect their registrations -/

/-- The route that is kept for a registration. -/
def Registration.compiled (r : Registration) : Route :=
  let compiled := compilePieces (patternPieces r.pattern)
  ⟨r.methods, r.pattern, if compiled.isDynamic then compiled.segments else [],
    compiled.hasWildcard, r.handler⟩

/-- The router holds the registrations of `calls` and its indices find them. -/
structure Reflects (calls : List RouterCall) (router : Router) : Prop where
  /-- The routes are the compiled registrations, in their order. -/
  routes : router.routes = (registrations calls).map Registration.compiled
  /-- Every registered pattern has passed the check. -/
  valid : ∀ r ∈ registrations calls, isValidRoutePattern r.pattern = true ∧ r.methods ≠ .none
  exact_lt : ∀ path, ∀ i ∈ (FlatMap.lookup path router.exactIndex).getD [], i < router.routes.length
  /-- The index finds the literal routes of a path, in their order. -/
  exact_select : ∀ path, router.select ((FlatMap.lookup path router.exactIndex).getD []) =
    router.routes.filter fun r => !isDynamicPattern r.pattern && r.pattern == path
  dynamic_lt : ∀ i ∈ router.dynamicRoutes, i < router.routes.length
  /-- The others are tried in their order. -/
  dynamic_select : router.select router.dynamicRoutes =
    router.routes.filter fun r => isDynamicPattern r.pattern
  mounts : router.mounts = calls.filterMap mountOf
  /-- In the order of registration. -/
  middleware : router.middleware = calls.filterMap middlewareOf
  /-- The first one that was set. -/
  fallback : router.fallbackHandler = calls.findSome? fallbackOf

theorem reflects_nil : Reflects [] {} where
  routes := rfl
  valid := by simp [registrations]
  exact_lt := by simp
  exact_select := by simp [Router.select]
  dynamic_lt := by simp
  dynamic_select := by simp [Router.select]
  mounts := rfl
  middleware := rfl
  fallback := rfl

/-- Indices of old routes select the same routes after a registration. -/
theorem filterMap_append_of_lt {routes : List Route} {indices : List ℕ}
    (h : ∀ i ∈ indices, i < routes.length) (route : Route) :
    indices.filterMap ((routes ++ [route])[·]?) = indices.filterMap (routes[·]?) :=
  List.filterMap_congr fun i hi => List.getElem?_append_left (h i hi)

/-- The index of the new route selects it after the old ones. -/
theorem filterMap_append_length {routes : List Route} {indices : List ℕ}
    (h : ∀ i ∈ indices, i < routes.length) (route : Route) :
    (indices ++ [routes.length]).filterMap ((routes ++ [route])[·]?) =
      indices.filterMap (routes[·]?) ++ [route] := by
  rw [List.filterMap_append, filterMap_append_of_lt h]
  simp

theorem registrations_append (calls : List RouterCall) (call : RouterCall) :
    registrations (calls ++ [call]) = registrations calls ++ (registrationOf call).toList := by
  rw [registrations, registrations, List.filterMap_append]
  cases h : registrationOf call <;> simp [h]

/-- What an accepted registration of a route checks and does. -/
theorem route_eq_ok {router router' : Router} {methods : Method} {pattern : Bytes}
    {handler : Option Handler} (h : router.route methods pattern handler = .ok router') :
    ∃ f, handler = some f ∧ methods ≠ .none ∧ isValidRoutePattern pattern = true ∧
      router'.routes = router.routes ++ [(Registration.mk methods pattern f).compiled] ∧
      router'.exactIndex = (if isDynamicPattern pattern then router.exactIndex
        else FlatMap.insertOrAssign pattern
          ((FlatMap.lookup pattern router.exactIndex).getD [] ++ [router.routes.length])
          router.exactIndex) ∧
      router'.dynamicRoutes = (if isDynamicPattern pattern then
        router.dynamicRoutes ++ [router.routes.length] else router.dynamicRoutes) ∧
      router'.mounts = router.mounts ∧ router'.middleware = router.middleware ∧
      router'.fallbackHandler = router.fallbackHandler := by
  simp only [Router.route, bind_eq_ok, ensure_eq_ok, orFail_eq_ok, pure_eq_ok, exists_const] at h
  obtain ⟨hmethods, f, rfl, hpattern, -, -, rfl⟩ := h
  refine ⟨f, rfl, by simpa using hmethods, hpattern, ?_⟩
  rw [isDynamic_eq hpattern, Registration.compiled]
  dsimp only
  rw [isDynamic_eq hpattern]
  cases isDynamicPattern pattern <;> simp

/-- An index list that found the routes of a kind still does, the new route included if it is of
that kind. -/
theorem select_eq_filter {routes : List Route} {indices : List ℕ} {p : Route → Bool} {route : Route}
    (hlt : ∀ i ∈ indices, i < routes.length)
    (hselect : indices.filterMap (routes[·]?) = routes.filter p) :
    (if p route then indices ++ [routes.length] else indices).filterMap
        ((routes ++ [route])[·]?) = (routes ++ [route]).filter p := by
  rw [List.filter_append, ← hselect]
  cases hp : p route with
  | true => rw [if_pos rfl, filterMap_append_length hlt]; simp [hp]
  | false => rw [if_neg Bool.false_ne_true, filterMap_append_of_lt hlt]; simp [hp]

theorem Reflects.route {calls : List RouterCall} {router router' : Router}
    (h : Reflects calls router) {methods : Method} {pattern : Bytes} {handler : Option Handler}
    (hroute : router.route methods pattern handler = .ok router') :
    Reflects (calls ++ [.route methods pattern handler]) router' := by
  obtain ⟨f, rfl, hmethods, hpattern, hroutes, hexact, hdynamic, hmounts, hmiddleware, hfallback⟩ :=
    route_eq_ok hroute
  set route := (Registration.mk methods pattern f).compiled with hcompiled
  have hlookup : ∀ path, (FlatMap.lookup path router'.exactIndex).getD [] =
      if !isDynamicPattern route.pattern && route.pattern == path then
        (FlatMap.lookup path router.exactIndex).getD [] ++ [router.routes.length]
      else (FlatMap.lookup path router.exactIndex).getD [] := by
    intro path
    show _ = if !isDynamicPattern pattern && pattern == path then _ else _
    rw [hexact]
    cases isDynamicPattern pattern with
    | true => rfl
    | false =>
      rw [if_neg Bool.false_ne_true, FlatMap.lookup_insertOrAssign]
      by_cases hpath : path = pattern
      · rw [if_pos hpath, hpath]
        simp
      · rw [if_neg hpath]
        simp [Ne.symm hpath]
  have hlength : router'.routes.length = router.routes.length + 1 := by rw [hroutes]; simp
  refine ⟨?_, ?_, ?_, ?_, ?_, ?_, ?_, ?_, ?_⟩
  · rw [hroutes, registrations_append, List.map_append, h.routes]
    rfl
  · intro r hr
    rw [registrations_append, List.mem_append] at hr
    rcases hr with hr | hr
    · exact h.valid r hr
    · obtain rfl := List.mem_singleton.1 hr
      exact ⟨hpattern, hmethods⟩
  · intro path i hi
    rw [hlookup] at hi
    split_ifs at hi
    · rcases List.mem_append.1 hi with hi | hi
      · exact lt_trans (h.exact_lt path i hi) (by omega)
      · rw [List.mem_singleton.1 hi, hlength]
        omega
    · exact lt_trans (h.exact_lt path i hi) (by omega)
  · intro path
    rw [Router.select, hlookup, hroutes]
    exact select_eq_filter (h.exact_lt path) (h.exact_select path)
  · intro i hi
    rw [hdynamic] at hi
    split_ifs at hi
    · rcases List.mem_append.1 hi with hi | hi
      · exact lt_trans (h.dynamic_lt i hi) (by omega)
      · rw [List.mem_singleton.1 hi, hlength]
        omega
    · exact lt_trans (h.dynamic_lt i hi) (by omega)
  · rw [Router.select, hdynamic, hroutes]
    exact select_eq_filter h.dynamic_lt h.dynamic_select
  · rw [hmounts, h.mounts, List.filterMap_append]
    simp [mountOf]
  · rw [hmiddleware, h.middleware, List.filterMap_append]
    simp [middlewareOf]
  · rw [hfallback, h.fallback, List.findSome?_append]
    simp [fallbackOf]

/-- A call that registers no route and touches no index. -/
theorem Reflects.of_same_routes {calls : List RouterCall} {router router' : Router}
    (h : Reflects calls router) {call : RouterCall} (hcall : registrationOf call = none)
    (hroutes : router'.routes = router.routes) (hexact : router'.exactIndex = router.exactIndex)
    (hdynamic : router'.dynamicRoutes = router.dynamicRoutes)
    (hmounts : router'.mounts = router.mounts ++ (mountOf call).toList)
    (hmiddleware : router'.middleware = router.middleware ++ (middlewareOf call).toList)
    (hfallback : router'.fallbackHandler = router.fallbackHandler.or (fallbackOf call)) :
    Reflects (calls ++ [call]) router' := by
  have hregistrations : registrations (calls ++ [call]) = registrations calls := by
    rw [registrations_append, hcall]
    simp
  have hfilter : ∀ {β : Type} (f : RouterCall → Option β),
      (calls ++ [call]).filterMap f = calls.filterMap f ++ (f call).toList := by
    intro β f
    rw [List.filterMap_append]
    cases hf : f call <;> simp [hf]
  refine ⟨?_, ?_, ?_, ?_, ?_, ?_, ?_, ?_, ?_⟩
  · rw [hroutes, hregistrations, h.routes]
  · rw [hregistrations]
    exact h.valid
  · rw [hexact, hroutes]
    exact h.exact_lt
  · intro path
    rw [Router.select, hexact, hroutes]
    exact h.exact_select path
  · rw [hdynamic, hroutes]
    exact h.dynamic_lt
  · rw [Router.select, hdynamic, hroutes]
    exact h.dynamic_select
  · rw [hmounts, h.mounts, hfilter]
  · rw [hmiddleware, h.middleware, hfilter]
  · rw [hfallback, h.fallback, List.findSome?_append]
    cases hf : fallbackOf call <;> simp [hf]

/-- Every accepted call keeps the router true to its registrations. -/
theorem Reflects.apply {calls : List RouterCall} {router router' : Router}
    (h : Reflects calls router) {call : RouterCall} (hcall : router.apply call = .ok router') :
    Reflects (calls ++ [call]) router' := by
  cases call with
  | route methods pattern handler => exact h.route hcall
  | mount mountPrefix bundle =>
    simp only [Router.apply, Router.mount, bind_eq_ok, ensure_eq_ok, exists_const, pure_eq_ok]
      at hcall
    obtain ⟨-, -, -, rfl⟩ := hcall
    refine h.of_same_routes rfl rfl rfl rfl ?_ ?_ ?_ <;> simp [mountOf, middlewareOf, fallbackOf]
  | use middleware =>
    simp only [Router.apply, Router.use, bind_eq_ok, orFail_eq_ok, pure_eq_ok] at hcall
    obtain ⟨f, rfl, rfl⟩ := hcall
    refine h.of_same_routes rfl rfl rfl rfl ?_ ?_ ?_ <;> simp [mountOf, middlewareOf, fallbackOf]
  | fallback handler =>
    simp only [Router.apply, Router.fallback, bind_eq_ok, orFail_eq_ok, ensure_eq_ok, exists_const,
      pure_eq_ok] at hcall
    obtain ⟨f, rfl, hnone, rfl⟩ := hcall
    have hunset : router.fallbackHandler = none := Option.isNone_iff_eq_none.1 hnone
    refine h.of_same_routes rfl rfl rfl rfl ?_ ?_ ?_ <;>
      simp [mountOf, middlewareOf, fallbackOf, hunset]

theorem Reflects.foldlM {calls more : List RouterCall} {router router' : Router}
    (h : Reflects calls router) (hmore : more.foldlM Router.apply router = .ok router') :
    Reflects (calls ++ more) router' := by
  induction more generalizing calls router with
  | nil =>
    obtain rfl : router = router' := pure_eq_ok.1 hmore
    rwa [List.append_nil]
  | cons call more ih =>
    rw [List.foldlM_cons, bind_eq_ok] at hmore
    obtain ⟨next, hnext, hmore⟩ := hmore
    have := ih (h.apply hnext) hmore
    rwa [List.append_assoc] at this

theorem reflects_build {calls : List RouterCall} {router : Router}
    (h : Router.build calls = .ok router) : Reflects calls router := reflects_nil.foldlM h

end Reference

end ErikslundHttp
