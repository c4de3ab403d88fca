import ErikslundHttp.Router.Reference
import Mathlib.Data.Nat.Bitwise

/-!
# Dispatch is its reference semantics

The loops of `Router::dispatch` stop at the first candidate that answers and remember the methods
of those that do not.

* `runMiddleware_eq`, `tryRoutes_eq`, `tryMounts_eq`: each loop is a search in the list of what
  matches; over a router that reflects its registrations these lists are the reference's
  (`Reference.tryRoutes_candidates`, `Reference.heldAssets_eq`).
* `Reference.invokeMiddleware_eq`, `invokeHandler_eq`, `assetResponse_eq_answer`,
  `methodNotAllowedResponse_eq`: what the code answers is what the reference says.
* `Reference.dispatch_is_the_reference`: so the two agree on every request the parser accepts.
-/

namespace ErikslundHttp

open Router

/-! ### Masks of methods -/

theorem contains_iff_testBit {method : Method} {bit : ℕ} (h : method.bits.toNat = 2 ^ bit)
    (mask : Method) : mask.contains method = mask.bits.toNat.testBit bit := by
  rw [Method.contains, Bool.eq_iff_iff, beq_iff_eq, ← UInt8.toNat_inj, UInt8.toNat_and, h,
    Nat.and_two_pow]
  cases mask.bits.toNat.testBit bit with
  | true => simp
  | false => simpa using (Nat.two_pow_pos bit).ne

/-- Every method is one bit. -/
theorem exists_bit {method : Method} (h : method ∈ Method.all) :
    ∃ bit, method.bits.toNat = 2 ^ bit := by
  simp only [Method.all, List.mem_cons, List.not_mem_nil, or_false] at h
  rcases h with rfl | rfl | rfl | rfl | rfl | rfl | rfl
  exacts [⟨0, rfl⟩, ⟨1, rfl⟩, ⟨2, rfl⟩, ⟨3, rfl⟩, ⟨4, rfl⟩, ⟨5, rfl⟩, ⟨6, rfl⟩]

theorem contains_foldl_or {method : Method} (h : method ∈ Method.all) (masks : List Method)
    (allowed : Method) : (masks.foldl (· ||| ·) allowed).contains method =
      (allowed.contains method || masks.any fun mask => mask.contains method) := by
  obtain ⟨bit, hbit⟩ := exists_bit h
  induction masks generalizing allowed with
  | nil => simp
  | cons mask masks ih =>
    -- a method is one bit, which is in the union if it is in one of the two
    have hor : (allowed ||| mask).contains method =
        (allowed.contains method || mask.contains method) := by
      simp only [contains_iff_testBit hbit]
      show (allowed.bits ||| mask.bits).toNat.testBit bit = _
      rw [UInt8.toNat_or, Nat.testBit_lor]
    rw [List.foldl_cons, ih, hor, List.any_cons, Bool.or_assoc]

/-! ### Assets -/

theorem AssetBundle.mem_of_binaryProbe {assets : List Asset} {path : Bytes} {low high : ℕ}
    {asset : Asset} (h : binaryProbe assets path low high = some asset) :
    asset ∈ assets ∧ asset.path = path := by
  fun_induction binaryProbe assets path low high with
  | case1 low high hlt middle hnone => cases h
  | case2 low high hlt middle found hfound hpath =>
    cases h
    exact ⟨List.mem_of_getElem? hfound, hpath⟩
  | case3 low high hlt middle found hfound hpath hless ih => exact ih h
  | case4 low high hlt middle found hfound hpath hless ih => exact ih h
  | case5 low high hlt => cases h

/-- A bundle finds an asset of that path, and nothing only if it has none. -/
theorem AssetBundle.find_spec (bundle : AssetBundle) (path : Bytes) :
    (∀ asset, bundle.find path = some asset → asset ∈ bundle.assets ∧ asset.path = path) ∧
      (bundle.find path = none → ∀ asset ∈ bundle.assets, asset.path ≠ path) := by
  have hprobe : ∀ asset, (if kBinarySearchThreshold ≤ bundle.assets.length then
      binaryProbe bundle.assets path 0 bundle.assets.length else none) = some asset →
      asset ∈ bundle.assets ∧ asset.path = path := by
    intro asset h
    split_ifs at h
    exact mem_of_binaryProbe h
  unfold AssetBundle.find
  dsimp only
  cases hfound : (if kBinarySearchThreshold ≤ bundle.assets.length then
      binaryProbe bundle.assets path 0 bundle.assets.length else none) with
  | some found =>
    refine ⟨fun asset h => ?_, fun h => by cases h⟩
    cases h
    exact hprobe found hfound
  | none =>
    -- the binary search is only tried first: a miss falls back to the scan of the whole list
    refine ⟨fun asset h => ?_, fun h => ?_⟩
    · exact ⟨List.mem_of_find?_eq_some h, by simpa using List.find?_some h⟩
    · simpa using h

/-! ### The loops are searches -/

theorem runMiddleware_eq (request : Request Bytes) (middleware : List Middleware) :
    runMiddleware request middleware =
      match middleware.findSome? (invokeMiddleware · request) with
      | some response => .error response
      | none => .ok () := by
  induction middleware with
  | nil => rfl
  | cons first rest ih =>
    rw [runMiddleware, List.findSome?_cons]
    cases invokeMiddleware first request with
    | some response => rfl
    | none => exact ih

/-- The routes that match, with their captures. -/
def matched (attempt : Route → Option (List Header)) (routes : List Route) :
    List (Route × List Header) :=
  routes.filterMap fun route => (attempt route).map (route, ·)

theorem tryRoutes_eq (request : Request Bytes) (attempt : Route → Option (List Header))
    (allowed : Method) (routes : List Route) :
    tryRoutes request attempt allowed routes =
      match (matched attempt routes).find? fun c => c.1.methods.contains request.method with
      | some c => .error (invokeRoute request c.1 c.2)
      | none => .ok ((matched attempt routes).foldl (fun a c => a ||| c.1.methods) allowed) := by
  induction routes generalizing allowed with
  | nil => rfl
  | cons route routes ih =>
    rw [tryRoutes, matched, List.filterMap_cons]
    cases hmatch : attempt route with
    -- a route that does not match leaves the mask alone
    | none => exact ih allowed
    | some captures =>
      dsimp only [Option.map_some]
      rw [List.find?_cons, List.foldl_cons]
      cases hmethod : route.methods.contains request.method with
      | true => rfl
      -- it matches under other methods, which the loop remembers
      | false => exact ih (allowed ||| route.methods)

/-- One loop after another is a search in the two lists. -/
theorem tryRoutes_bind (request : Request Bytes) (attempt attempt' : Route → Option (List Header))
    (allowed : Method) (routes routes' : List Route) :
    (tryRoutes request attempt allowed routes >>= fun allowed =>
      tryRoutes request attempt' allowed routes') =
      match (matched attempt routes ++ matched attempt' routes').find?
          fun c => c.1.methods.contains request.method with
      | some c => .error (invokeRoute request c.1 c.2)
      | none => .ok ((matched attempt routes ++ matched attempt' routes').foldl
          (fun a c => a ||| c.1.methods) allowed) := by
  rw [tryRoutes_eq, List.find?_append, List.foldl_append]
  cases (matched attempt routes).find? fun c => c.1.methods.contains request.method with
  | some c => rfl
  | none => exact tryRoutes_eq request attempt' _ routes'

/-- The search, with the two loops over routes taken together. -/
theorem search_eq (router : Router) (request : Request Bytes) :
    router.search request =
      (tryRoutes request (fun _ => some []) .none
          (router.select ((FlatMap.lookup request.path router.exactIndex).getD [])) >>=
        fun allowed => tryRoutes request
          (fun candidate => matchPath candidate.segments candidate.hasWildcard request.path) allowed
          (router.select router.dynamicRoutes)) >>=
      fun allowed => tryMounts request allowed router.mounts := by
  rw [Router.search, bind_assoc]

theorem tryMounts_eq (request : Request Bytes) (allowed : Method) (mounts : List Mount) :
    tryMounts request allowed mounts =
      match mounts.filterMap (·.findAsset request.path), getAndHead.contains request.method with
      | asset :: _, true => .error (assetResponse asset request)
      | held, _ => .ok (held.foldl (fun a _ => a ||| getAndHead) allowed) := by
  induction mounts generalizing allowed with
  | nil => rfl
  | cons mount mounts ih =>
    rw [tryMounts, List.filterMap_cons]
    cases hasset : mount.findAsset request.path with
    | none => exact ih allowed
    | some asset =>
      dsimp only
      cases hmethod : getAndHead.contains request.method with
      | true => rfl
      | false =>
        -- a mount that holds the asset adds `GET` and `HEAD`
        rw [hmethod] at ih
        rw [if_neg Bool.false_ne_true, ih]
        cases mounts.filterMap (·.findAsset request.path) <;> rfl

/-- A request without parameters takes as many as there is room for. -/
theorem foldl_bindPathParameter (captures : List Header) (request : Request Bytes)
    (h : request.pathParameters.length + captures.length ≤ kMaxPathParameters) :
    captures.foldl Request.bindPathParameter request =
      { request with pathParameters := request.pathParameters ++ captures } := by
  induction captures generalizing request with
  | nil => simp
  | cons capture captures ih =>
    rw [List.length_cons] at h
    have hroom : request.pathParameters.length ≠ kMaxPathParameters := by omega
    rw [List.foldl_cons, Request.bindPathParameter, if_neg hroom, ih]
    · simp
    · simp only [List.length_append, List.length_cons, List.length_nil]
      omega

namespace Reference

/-! ### The answers are those of the reference -/

theorem invokeMiddleware_eq (middleware : Middleware) (request : Request Bytes) :
    invokeMiddleware middleware request = middlewareAnswer middleware request := by
  unfold invokeMiddleware middlewareAnswer
  cases middleware request with
  | returned response => cases response <;> rfl
  | threw => rfl

theorem invokeHandler_eq (handler : Handler) (request : Request Bytes) :
    invokeHandler handler request = handlerAnswer handler request := by
  unfold invokeHandler handlerAnswer
  cases handler request <;> rfl

theorem immutableCacheControl_eq :
    immutableCacheControl = ascii "public, max-age=31536000, immutable" := by decide +kernel

/-- The guards of the fields are the same, one by one. -/
theorem assetResponse_eq_answer (asset : Asset) (request : Request Bytes) :
    assetResponse asset request = assetAnswer asset request := by
  obtain ⟨path, contentType, bytes, etag, contentEncoding⟩ := asset
  unfold assetResponse assetAnswer
  simp only [immutableCacheControl_eq, Bool.and_eq_true, Bool.not_eq_true', and_assoc, ne_eq]
  -- every guard asks whether a member of the asset is empty, so the cases are these
  cases contentEncoding with
  | nil =>
    cases etag with
    | nil => cases contentType <;> rfl
    | cons b etag =>
      cases (request.header (ascii "If-None-Match")).any (ifNoneMatchMatches · (b :: etag)) with
      | true => rfl
      | false => cases contentType <;> rfl
  | cons c coding =>
    by_cases hrefused : (request.header (ascii "Accept-Encoding")).isSome = true ∧
        request.wantsGzip = false
    · simp only [hrefused, List.isEmpty_cons, and_self, reduceCtorEq, not_false_eq_true, if_true]
      rfl
    · simp only [hrefused, List.isEmpty_cons, and_false, if_false]
      cases etag with
      | nil => cases contentType <;> rfl
      | cons b etag =>
        cases (request.header (ascii "If-None-Match")).any (ifNoneMatchMatches · (b :: etag)) with
        | true => rfl
        | false => cases contentType <;> rfl

variable {calls : List RouterCall} {router : Router}

/-! ### What matches is what the reference says -/

theorem heldAsset_eq (path : Bytes) (mount : Mount) :
    mount.findAsset path = heldAsset path mount := by
  unfold Mount.findAsset heldAsset
  simp only [List.isPrefixOf_iff_prefix]
  by_cases hprefix : mount.mountPrefix <+: path
  · rw [if_pos hprefix, if_pos hprefix]
    cases hfind : mount.bundle.find path with
    | some asset => rfl
    | none =>
      dsimp only
      rw [Option.none_or]
      -- the path is looked up again below the prefix, unless that is the same path
      split_ifs with hrelative
      · rfl
      · simp only [bne_iff_ne, ne_eq, Decidable.not_not] at hrelative
        rw [hrelative, hfind]
  · rw [if_neg hprefix, if_neg hprefix]

theorem heldAssets_eq (h : Reflects calls router) (path : Bytes) :
    router.mounts.filterMap (·.findAsset path) = heldAssets calls path := by
  rw [heldAssets, h.mounts]
  exact List.filterMap_congr fun mount _ => heldAsset_eq path mount

theorem matched_exact (h : Reflects calls router) (path : Bytes) :
    matched (fun _ => some []) (router.select ((FlatMap.lookup path router.exactIndex).getD [])) =
      (((registrations calls).filter fun r =>
        !isDynamicPattern r.pattern && r.pattern == path).map (·, [])).map
          fun c => (c.1.compiled, c.2) := by
  rw [h.exact_select, h.routes, List.filter_map, matched, List.filterMap_map, List.map_map]
  rw [← List.filterMap_eq_map]
  rfl

theorem matched_dynamic (h : Reflects calls router) {path : Bytes}
    (hpath : path.head? = some (byte '/')) :
    matched (fun candidate => matchPath candidate.segments candidate.hasWildcard path)
        (router.select router.dynamicRoutes) =
      (((registrations calls).filter fun r => isDynamicPattern r.pattern).filterMap fun r =>
        (matchPattern r.pattern path).map (r, ·)).map fun c => (c.1.compiled, c.2) := by
  rw [h.dynamic_select, h.routes, List.filter_map, matched, List.filterMap_map, List.map_filterMap]
  refine List.filterMap_congr fun r hr => ?_
  obtain ⟨hmem, hdynamic⟩ := List.mem_filter.1 hr
  have hvalid := (h.valid r hmem).1
  -- a dynamic pattern keeps its segments when it is compiled
  have hcompiled : (compilePieces (patternPieces r.pattern)).isDynamic = true :=
    (isDynamic_eq hvalid).trans hdynamic
  have hmatch : matchPath r.compiled.segments r.compiled.hasWildcard path =
      matchPattern r.pattern path := by
    rw [← matchPath_eq hvalid hpath]
    show matchPath (if (compilePieces (patternPieces r.pattern)).isDynamic then _ else _) _ _ = _
    rw [if_pos hcompiled]
    rfl
  show (matchPath r.compiled.segments r.compiled.hasWildcard path).map (r.compiled, ·) = _
  rw [hmatch, Option.map_map]
  rfl

/-- The two loops over routes are one search in the candidates. -/
theorem tryRoutes_candidates (h : Reflects calls router) {request : Request Bytes}
    (hpath : request.path.head? = some (byte '/')) :
    (tryRoutes request (fun _ => some []) .none
        (router.select ((FlatMap.lookup request.path router.exactIndex).getD [])) >>= fun allowed =>
      tryRoutes request
        (fun candidate => matchPath candidate.segments candidate.hasWildcard request.path) allowed
        (router.select router.dynamicRoutes)) =
      match (candidates calls request.path).find? fun c => c.1.methods.contains request.method with
      | some c => .error (invokeRoute request c.1.compiled c.2)
      | none => .ok ((candidates calls request.path).foldl (fun a c => a ||| c.1.methods) .none) := by
  have hmatched := congrArg₂ (· ++ ·) (matched_exact h request.path) (matched_dynamic h hpath)
  simp only [← List.map_append] at hmatched
  have hcontains : ((fun c : Route × List Header => c.1.methods.contains request.method) ∘
      fun c : Registration × List Header => (c.1.compiled, c.2)) =
        fun c => c.1.methods.contains request.method := rfl
  rw [tryRoutes_bind, hmatched, List.find?_map, List.foldl_map, hcontains, ← candidates]
  cases (candidates calls request.path).find? fun c => c.1.methods.contains request.method <;> rfl

/-! ### The union of the methods that match -/

theorem or_eq_none_iff {left right : Method} : left ||| right = .none ↔
    left = .none ∧ right = .none := by
  obtain ⟨left⟩ := left
  obtain ⟨right⟩ := right
  show (⟨left ||| right⟩ : Method) = ⟨0⟩ ↔ (⟨left⟩ : Method) = ⟨0⟩ ∧ (⟨right⟩ : Method) = ⟨0⟩
  simp only [Method.mk.injEq]
  exact UInt8.or_eq_zero_iff

theorem foldl_or_eq_none_iff {methods : List Method} (h : ∀ m ∈ methods, m ≠ .none)
    (allowed : Method) :
    methods.foldl (· ||| ·) allowed = .none ↔ allowed = .none ∧ methods = [] := by
  induction methods generalizing allowed with
  | nil => simp
  | cons method methods ih =>
    obtain ⟨hmethod, hmethods⟩ := List.forall_mem_cons.1 h
    rw [List.foldl_cons, ih hmethods, or_eq_none_iff]
    simp [hmethod]

theorem methods_ne_none (h : Reflects calls router) {path : Bytes} {c : Registration × List Header}
    (hc : c ∈ candidates calls path) : c.1.methods ≠ .none := by
  have hmem : c.1 ∈ registrations calls := by
    rcases List.mem_append.1 hc with hc | hc
    · obtain ⟨r, hr, rfl⟩ := List.mem_map.1 hc
      exact (List.mem_filter.1 hr).1
    · obtain ⟨r, hr, hmatch⟩ := List.mem_filterMap.1 hc
      obtain ⟨captures, -, rfl⟩ := Option.map_eq_some_iff.1 hmatch
      exact (List.mem_filter.1 hr).1
  exact (h.valid c.1 hmem).2

/-- The union of the masks that match a path. -/
def matchedMask (calls : List RouterCall) (path : Bytes) : Method :=
  ((candidates calls path).map (·.1.methods) ++
    (heldAssets calls path).map fun _ => getAndHead).foldl (· ||| ·) .none

/-- Something is allowed exactly if something matches. -/
theorem matchedMask_eq_none_iff (h : Reflects calls router) (path : Bytes) :
    matchedMask calls path = .none ↔ candidates calls path = [] ∧ heldAssets calls path = [] := by
  rw [matchedMask, foldl_or_eq_none_iff]
  · simp
  · intro method hmethod
    rcases List.mem_append.1 hmethod with hm | hm
    · obtain ⟨c, hc, rfl⟩ := List.mem_map.1 hm
      exact methods_ne_none h hc
    · obtain ⟨asset, -, rfl⟩ := List.mem_map.1 hm
      decide

theorem getAndHead_contains {method : Method} (h : method ∈ Method.all) :
    getAndHead.contains method = readsAssets method := by
  revert method
  decide +kernel

/-- The mask holds the methods under which something matches. -/
theorem filter_contains_matchedMask (calls : List RouterCall) (path : Bytes) :
    Method.all.filter (matchedMask calls path).contains = allowedMethods calls path := by
  refine List.filter_congr fun method hmethod => ?_
  have hnone : Method.none.contains method = false := by
    revert method
    decide +kernel
  have hassets : ((heldAssets calls path).map fun _ => getAndHead).any
      (fun mask => mask.contains method) = (!(heldAssets calls path).isEmpty && readsAssets method) := by
    rw [List.any_map, ← getAndHead_contains hmethod]
    cases heldAssets calls path with
    | nil => rfl
    | cons asset rest => simp
  rw [matchedMask, contains_foldl_or hmethod, hnone, Bool.false_or, List.any_append, hassets,
    List.any_map]
  rfl

theorem methodNotAllowedResponse_eq (calls : List RouterCall) (path : Bytes) :
    methodNotAllowedResponse (matchedMask calls path) =
      notAllowedAnswer (allowedMethods calls path) := by
  rw [methodNotAllowedResponse, allowFieldValue, filter_contains_matchedMask]
  rfl

/-! ### The reference -/

/-- A candidate has one capture per name of its pattern, in order, and at most eight. -/
theorem captures_of_candidate (h : Reflects calls router) {path : Bytes}
    {c : Registration × List Header} (hc : c ∈ candidates calls path) :
    c.2.map HeaderView.name = patternNames c.1.pattern ∧ c.2.length ≤ kMaxPathParameters := by
  rcases List.mem_append.1 hc with hc | hc
  · obtain ⟨r, hr, rfl⟩ := List.mem_map.1 hc
    obtain ⟨-, hliteral⟩ := List.mem_filter.1 hr
    refine ⟨?_, Nat.zero_le _⟩
    -- a literal pattern has no names
    simp only [Bool.and_eq_true, Bool.not_eq_true', isDynamicPattern, List.any_eq_false,
      Bool.or_eq_true, not_or, Bool.not_eq_true, Option.isSome_eq_false_iff,
      Option.isNone_iff_eq_none] at hliteral
    exact (List.filterMap_eq_nil_iff.2 fun piece hpiece => (hliteral.1 piece hpiece).2).symm
  · obtain ⟨r, hr, hmatch⟩ := List.mem_filterMap.1 hc
    obtain ⟨captures, hcaptures, rfl⟩ := Option.map_eq_some_iff.1 hmatch
    have hnames := names_of_matchPattern hcaptures
    refine ⟨hnames, ?_⟩
    have hle := length_patternNames_le (h.valid r (List.mem_filter.1 hr).1).1
    rw [← hnames, List.length_map] at hle
    exact hle

theorem resolve_eq_dispatch (h : Reflects calls router) {request : Request Bytes}
    (hmethod : request.method ∈ Method.all) (hpath : request.path.head? = some (byte '/'))
    (hparameters : request.pathParameters = []) :
    (match router.resolve request with | .ok response => response | .error response => response) =
      Reference.dispatch calls request := by
  have hmiddleware : (fun middleware => invokeMiddleware middleware request) =
      (middlewareAnswer · request) := funext fun middleware => invokeMiddleware_eq middleware request
  rw [Router.resolve, runMiddleware_eq, search_eq, tryRoutes_candidates h hpath, h.middleware,
    Reference.dispatch, hmiddleware]
  cases (calls.filterMap middlewareOf).findSome? (middlewareAnswer · request) with
  | some response => rfl
  | none =>
    cases hfind : (candidates calls request.path).find?
        fun c => c.1.methods.contains request.method with
    | some c =>
      have hbound := (captures_of_candidate h (List.mem_of_find?_eq_some hfind)).2
      have hbind := foldl_bindPathParameter c.2 request (by rwa [hparameters, List.length_nil,
        Nat.zero_add])
      rw [hparameters, List.nil_append] at hbind
      -- none of the captures is dropped, as there is room for eight
      show invokeHandler c.1.handler (c.2.foldl Request.bindPathParameter request) = _
      rw [hbind, invokeHandler_eq]
    | none =>
      -- the mask that the loops have collected is the union over all that matches
      have hallowed : (heldAssets calls request.path).foldl (fun a _ => a ||| getAndHead)
          ((candidates calls request.path).foldl (fun a c => a ||| c.1.methods) .none) =
            matchedMask calls request.path := by
        rw [matchedMask, List.foldl_append, List.foldl_map, List.foldl_map]
      have hconclude : router.conclude request (matchedMask calls request.path) =
          if candidates calls request.path ≠ [] ∨ heldAssets calls request.path ≠ [] then
            notAllowedAnswer (allowedMethods calls request.path)
          else fallbackAnswer calls request := by
        rw [Router.conclude, h.fallback, methodNotAllowedResponse_eq]
        simp only [bne_iff_ne, ne_eq, matchedMask_eq_none_iff h, ← not_and_or, invokeHandler_eq]
        rfl
      rw [← hallowed] at hconclude
      simp only [ok_bind]
      rw [tryMounts_eq, heldAssets_eq h, getAndHead_contains hmethod]
      cases hheld : heldAssets calls request.path with
      | nil =>
        rw [hheld] at hconclude
        exact hconclude
      | cons asset rest =>
        rw [hheld] at hconclude
        cases readsAssets request.method with
        | true => exact assetResponse_eq_answer asset request
        | false => exact hconclude

/-- **Dispatch is its reference semantics.**  A router that any accepted calls have built answers a
request with the method and path of an accepted one as the reference does on those calls.  Every
candidate has one capture per name of its pattern, in order and never more than eight, and a bundle
holds exactly the assets it finds. -/
theorem dispatch_is_the_reference {calls : List RouterCall} {router : Router}
    (hbuild : Router.build calls = .ok router) {pton : InetPton} {now : TimePoint} {v : View}
    {limits : RequestLimits} {parsed : ParsedRequest View}
    (haccepted : parseRequest pton now v limits = .ok parsed) {request : Request Bytes}
    (hmethod : request.method = parsed.request.method)
    (hpath : request.path = parsed.request.path.bytes) :
    router.dispatch request = Reference.dispatch calls request.clearPathParameters ∧
      (∀ c ∈ candidates calls request.path,
        c.2.map HeaderView.name = patternNames c.1.pattern ∧ c.2.length ≤ kMaxPathParameters) ∧
      ∀ (bundle : AssetBundle) (path : Bytes),
        (∀ asset, bundle.find path = some asset → asset ∈ bundle.assets ∧ asset.path = path) ∧
          (bundle.find path = none → ∀ asset ∈ bundle.assets, asset.path ≠ path) := by
  have hreflects := reflects_build hbuild
  obtain ⟨head, body, rest, hwf, -, -, hparsed⟩ := exists_head_of_parseRequest haccepted
  have hknown : request.method ∈ Method.all := by
    have : parsed.request.method = head.method := congrArg (·.request.method) hparsed
    rw [hmethod, this]
    exact hwf.method_known
  have hslash : request.path.head? = some (byte '/') := by
    have : parsed.request.path.bytes = head.path := congrArg (·.request.path) hparsed
    rw [hpath, this]
    exact hwf.path.head
  refine ⟨?_, fun c hc => captures_of_candidate hreflects hc, AssetBundle.find_spec⟩
  have hne : (request.method == Method.none) = false := by
    revert hknown
    generalize request.method = method
    revert method
    decide +kernel
  rw [Router.dispatch, hne, if_neg Bool.false_ne_true]
  have hcleared : request.clearPathParameters.path.head? = some (byte '/') := hslash
  exact resolve_eq_dispatch hreflects hknown hcleared rfl

/-- A request for a user. -/
def getUser : View := ⟨.buffer 0, ascii "GET /users/7 HTTP/1.1\r\nHost: a\r\n\r\n"⟩

/-- Answers with the value of the first path parameter. -/
def showUser : Handler := fun request =>
  .returned (.text ((request.pathParameters.head?.map HeaderView.value).getD []))

/-- A router with a middleware, an asset bundle and two routes. -/
def userRoutes : List RouterCall :=
  [.use (some fun _ => .returned none), .mount (ascii "/users") ⟨[]⟩,
    .route .post (ascii "/users/7") (some fun _ => .threw),
    .route getAndHead (ascii "/users/\x7bid\x7d") (some showUser)]

theorem dispatch_of_getUser : ∃ router parsed, Router.build userRoutes = .ok router ∧
    parseRequest .rejecting 0 getUser {} = .ok parsed ∧
    router.dispatch (parsed.request.map View.bytes) =
      Reference.dispatch userRoutes (parsed.request.map View.bytes).clearPathParameters ∧
    (router.dispatch (parsed.request.map View.bytes)).body = ascii "7" := by
  obtain ⟨router, hbuild, -⟩ := map_eq_ok.1
    (show (Router.build userRoutes).map (fun _ => ()) = .ok () by decide +kernel)
  obtain ⟨parsed, hparsed, hbody⟩ := map_eq_ok.1
    (show (parseRequest .rejecting 0 getUser {}).map (fun parsed => (Reference.dispatch userRoutes
      (parsed.request.map View.bytes).clearPathParameters).body) = .ok (ascii "7") by decide +kernel)
  have hmethod : (parsed.request.map View.bytes).method = parsed.request.method := rfl
  have hdispatch := (dispatch_is_the_reference hbuild hparsed hmethod rfl).1
  exact ⟨router, parsed, hbuild, hparsed, hdispatch, hdispatch ▸ hbody⟩

end Reference

end ErikslundHttp
