import ErikslundHttp.Lib.FlatMap
import ErikslundHttp.Response.Encoder
import ErikslundHttp.Router.Pattern

/-!
# The router

Registration and dispatch of `router.cpp`, with the asset bundles of `assets.cpp`.  Handlers and
middleware are functions of the request; one that throws answers `Outcome.threw`.

An early `return` of `Router::dispatch` is an error of `Except Response`, so that the phases of
the function follow each other as in the source.
-/

namespace ErikslundHttp

/-! ### Assets -/

/-- A file of a bundle, with the fields it is sent with. -/
structure Asset where
  path : Bytes := []
  contentType : Bytes := []
  bytes : Bytes := []
  /-- Includes the `W/` and quotes. -/
  etag : Bytes := []
  /-- Empty means identity encoding. -/
  contentEncoding : Bytes := []
  deriving DecidableEq

/-- A bundle is a view of its assets, in the order they were listed. -/
structure AssetBundle where
  assets : List Asset := []

namespace AssetBundle

/-- A bundle of fewer files is searched one by one. -/
def kBinarySearchThreshold : ℕ := 16

/-- The loop of `binary_probe` over the assets between `low` and `high`. -/
def binaryProbe (assets : List Asset) (path : Bytes) (low high : ℕ) : Option Asset :=
  if low < high then
    let middle := low + (high - low) / 2
    match assets[middle]? with
    | none => none
    | some asset =>
      if asset.path = path then some asset
      else if asset.path < path then binaryProbe assets path (middle + 1) high
      else binaryProbe assets path low middle
  else none
termination_by high - low

/-- Bundles need not be sorted: the search falls back to the list. -/
def find (bundle : AssetBundle) (path : Bytes) : Option Asset :=
  let probed :=
    if kBinarySearchThreshold ≤ bundle.assets.length then
      binaryProbe bundle.assets path 0 bundle.assets.length
    else none
  match probed with
  | some asset => some asset
  | none => bundle.assets.find? fun asset => asset.path == path

end AssetBundle

/-! ### Handlers -/

/-- A call of application code. -/
inductive Outcome (α : Type) where
  | returned (value : α)
  | threw

/-- What an application's handler does with a request. -/
abbrev Handler := Request Bytes → Outcome Response

/-- A response short-circuits; `none` continues. -/
abbrev Middleware := Request Bytes → Outcome (Option Response)

/-! ### The responses of the router -/

/-- The methods of `get`: a HEAD is answered as a GET. -/
def getAndHead : Method := .get ||| .head

/-- The `Cache-Control` of an asset whose name changes with its content: a year. -/
def immutableCacheControl : Bytes :=
  ascii "public, max-age=" ++ toChars 31536000 ++ ascii ", immutable"

/-- The methods of a set, in the order of `kAllMethods`. -/
def allowFieldValue (methods : Method) : Bytes :=
  (ascii ", ").intercalate ((Method.all.filter methods.contains).map Method.name)

/-- The answer when nothing has the path. -/
def notFoundResponse : Response := .text (ascii "Not Found\n") .notFound

/-- The answer when only other methods have the path. -/
def methodNotAllowedResponse (allowed : Method) : Response :=
  (Response.text (ascii "Method Not Allowed\n") .methodNotAllowed).header (ascii "Allow")
    (allowFieldValue allowed)

/-- The answer to a request that does not want the coding of an asset. -/
def precompressedAssetNotAcceptable : Response :=
  (Response.text (ascii "Not Acceptable\n") .notAcceptable).header (ascii "Vary")
    (ascii "Accept-Encoding")

/-- The answer for a handler that threw. -/
def internalErrorResponse : Response :=
  .text (ascii "Internal Server Error\n") .internalServerError

/-- The answer to captures that cannot be decoded. -/
def badRequestResponse : Response := .text (ascii "Bad Request\n") .badRequest

/-- A handler that throws has answered with a `500`. -/
def invokeHandler (handler : Handler) (request : Request Bytes) : Response :=
  match handler request with
  | .returned response => response
  | .threw => internalErrorResponse

/-- So has a middleware. -/
def invokeMiddleware (middleware : Middleware) (request : Request Bytes) : Option Response :=
  match middleware request with
  | .returned response => response
  | .threw => some internalErrorResponse

/-- The answer for an asset: the file, a `304`, or a `406` for one that is compressed. -/
def assetResponse (asset : Asset) (request : Request Bytes) : Response :=
  let isPrecompressed := !asset.contentEncoding.isEmpty
  let matchesEtag := !asset.etag.isEmpty &&
    ((request.header (ascii "If-None-Match")).any fun field => ifNoneMatchMatches field asset.etag)
  if isPrecompressed && (request.header (ascii "Accept-Encoding")).isSome &&
      !request.wantsGzip then
    precompressedAssetNotAcceptable
  else if matchesEtag then
    let notModified := (Response.empty .notModified).etag asset.etag
    let notModified := notModified.header (ascii "Cache-Control") immutableCacheControl
    if isPrecompressed then notModified.header (ascii "Vary") (ascii "Accept-Encoding")
    else notModified
  else
    let response := Response.borrowed asset.bytes asset.contentType
    let response := if !asset.etag.isEmpty then response.etag asset.etag else response
    let response := if !asset.contentEncoding.isEmpty then
      response.contentEncoding asset.contentEncoding else response
    let response := if isPrecompressed then
      response.header (ascii "Vary") (ascii "Accept-Encoding") else response
    response.header (ascii "Cache-Control") immutableCacheControl

/-! ### Registration -/

/-- An entry of `routes_`. -/
structure Route where
  /-- The methods that it is for. -/
  methods : Method
  pattern : Bytes
  /-- The compiled pattern. -/
  segments : List Segment
  /-- The pattern ends in a wildcard. -/
  hasWildcard : Bool
  handler : Handler

/-- An entry of `mounts_`. -/
structure Mount where
  /-- It ends with `/`. -/
  mountPrefix : Bytes
  bundle : AssetBundle

/-- The members of `Router`. -/
structure Router where
  /-- In the order of registration. -/
  routes : List Route := []
  /-- Literal pattern to route indices. -/
  exactIndex : List (Bytes × List ℕ) := []
  /-- Registration order is match precedence. -/
  dynamicRoutes : List ℕ := []
  /-- In the order of registration. -/
  mounts : List Mount := []
  /-- Called in this order, before anything else. -/
  middleware : List Middleware := []
  /-- Answers what nothing else does. -/
  fallbackHandler : Option Handler := none

/-- `ServerError`, with its text. -/
structure ServerError where
  message : Bytes
  deriving DecidableEq

/-! The errors of the registration interface. -/

namespace ServerError

/-- A pattern in the text of an error. -/
def quoted (text : Bytes) : Bytes := ascii "\"" ++ text ++ ascii "\""

/-- The error of an empty mask of methods. -/
def noMethod (pattern : Bytes) : ServerError :=
  ⟨ascii "route " ++ quoted pattern ++ ascii " was registered for no method"⟩

/-- The error of a null handler. -/
def emptyHandler (pattern : Bytes) : ServerError :=
  ⟨ascii "route " ++ quoted pattern ++ ascii " was registered with an empty handler"⟩

/-- The error of a pattern that no path can match. -/
def invalidPattern (pattern : Bytes) : ServerError :=
  ⟨ascii "route pattern " ++ quoted pattern ++ ascii (" is invalid: it must start with '/', " ++
    "every \x7bname\x7d capture must be closed and non-empty, '*' may appear only as the final " ++
    "character, and no segment may be empty or \".\" or \"..\" -- the request parser rejects " ++
    "those paths, so such a pattern could never be reached")⟩

/-- The error of a pattern with more captures than a request can hold. -/
def tooManyCaptures (pattern : Bytes) (parameterCount : ℕ) : ServerError :=
  ⟨ascii "route pattern " ++ quoted pattern ++ ascii " declares " ++ toChars parameterCount ++
    ascii " captures, but the per-request parameter table holds " ++ toChars kMaxPathParameters⟩

/-- The error of a pattern that is there for one of the methods. -/
def alreadyRegistered (pattern : Bytes) : ServerError :=
  ⟨ascii "route " ++ quoted pattern ++ ascii (" is already registered for at least one of these " ++
    "methods; the second registration could never be reached")⟩

/-- The error of a prefix that does not begin with a slash. -/
def relativeMount (mountPrefix : Bytes) : ServerError :=
  ⟨ascii "mount prefix " ++ quoted mountPrefix ++ ascii " must start with '/'"⟩

/-- The error of a prefix with the characters of a pattern. -/
def mountPattern (mountPrefix : Bytes) : ServerError :=
  ⟨ascii "mount prefix " ++ quoted mountPrefix ++ ascii " is a literal path, not a route pattern"⟩

/-- The error of a prefix with a segment that no path has. -/
def unreachableMount (mountPrefix : Bytes) : ServerError :=
  ⟨ascii "mount prefix " ++ quoted mountPrefix ++ ascii (" holds a segment no request path can " ++
    "carry: no segment may be empty or \".\" or \"..\"")⟩

/-- The error of a null middleware. -/
def emptyMiddleware : ServerError := ⟨ascii "Router::use() was given an empty middleware"⟩

/-- The error of a null fallback. -/
def emptyFallback : ServerError := ⟨ascii "Router::fallback() was given an empty handler"⟩

/-- The error of a second fallback. -/
def fallbackAlreadySet : ServerError :=
  ⟨ascii "Router::fallback() was already set; there is only one"⟩

end ServerError

namespace Router

/-- The routes at some indices. -/
def select (router : Router) (indices : List ℕ) : List Route :=
  indices.filterMap fun index => router.routes[index]?

/-- An existing route of the same pattern and kind shares a method. -/
def overlaps (router : Router) (isDynamic : Bool) (methods : Method) (pattern : Bytes) : Bool :=
  let existing := if isDynamic then
      (router.select router.dynamicRoutes).filter fun existing => existing.pattern == pattern
    else router.select ((FlatMap.lookup pattern router.exactIndex).getD [])
  existing.any fun existing => existing.methods &&& methods != .none

/-- `Router::route`: the checks in the order of the source, then the two indices. -/
def route (router : Router) (methods : Method) (pattern : Bytes) (handler : Option Handler) :
    Except ServerError Router := do
  ensure (methods != .none) (.noMethod pattern)
  let handler ← orFail (.emptyHandler pattern) handler
  ensure (isValidRoutePattern pattern) (.invalidPattern pattern)
  let compiled := compilePieces (patternPieces pattern)
  ensure (compiled.parameterCount ≤ kMaxPathParameters)
    (.tooManyCaptures pattern compiled.parameterCount)
  let isDynamic := compiled.isDynamic
  ensure (!router.overlaps isDynamic methods pattern) (.alreadyRegistered pattern)
  let routeIndex := router.routes.length
  let routes := router.routes ++
    [⟨methods, pattern, if isDynamic then compiled.segments else [], compiled.hasWildcard, handler⟩]
  return if isDynamic then
      { router with routes := routes, dynamicRoutes := router.dynamicRoutes ++ [routeIndex] }
    else
      { router with
        routes := routes
        exactIndex := FlatMap.insertOrAssign pattern
          ((FlatMap.lookup pattern router.exactIndex).getD [] ++ [routeIndex]) router.exactIndex }

/-- `Router::get`. -/
def get (router : Router) (pattern : Bytes) (handler : Option Handler) : Except ServerError Router :=
  router.route getAndHead pattern handler

/-- `Router::post`. -/
def post (router : Router) (pattern : Bytes) (handler : Option Handler) :
    Except ServerError Router :=
  router.route .post pattern handler

/-- `Router::put`. -/
def put (router : Router) (pattern : Bytes) (handler : Option Handler) : Except ServerError Router :=
  router.route .put pattern handler

/-- `Router::patch`. -/
def patch (router : Router) (pattern : Bytes) (handler : Option Handler) :
    Except ServerError Router :=
  router.route .patch pattern handler

/-- `Router::del`. -/
def del (router : Router) (pattern : Bytes) (handler : Option Handler) : Except ServerError Router :=
  router.route .delete pattern handler

/-- `Router::options`. -/
def options (router : Router) (pattern : Bytes) (handler : Option Handler) :
    Except ServerError Router :=
  router.route .options pattern handler

/-- `Router::mount`. -/
def mount (router : Router) (mountPrefix : Bytes) (bundle : AssetBundle) :
    Except ServerError Router := do
  ensure (mountPrefix.head? == some (byte '/')) (.relativeMount mountPrefix)
  ensure (!(mountPrefix.contains (byte '*') || mountPrefix.contains (byte '\x7b') ||
    mountPrefix.contains (byte '\x7d'))) (.mountPattern mountPrefix)
  ensure (isValidRoutePattern mountPrefix) (.unreachableMount mountPrefix)
  let mountPrefix :=
    if mountPrefix.getLast? == some (byte '/') then mountPrefix else mountPrefix ++ [byte '/']
  return { router with mounts := router.mounts ++ [⟨mountPrefix, bundle⟩] }

/-- `Router::use`. -/
def use (router : Router) (middleware : Option Middleware) : Except ServerError Router := do
  let middleware ← orFail .emptyMiddleware middleware
  return { router with middleware := router.middleware ++ [middleware] }

/-- `Router::fallback`. -/
def fallback (router : Router) (handler : Option Handler) : Except ServerError Router := do
  let handler ← orFail .emptyFallback handler
  ensure router.fallbackHandler.isNone .fallbackAlreadySet
  return { router with fallbackHandler := some handler }

end Router

/-! ### Dispatch -/

namespace Request

/-- `Request::clear_path_parameters`. -/
def clearPathParameters (r : Request Bytes) : Request Bytes := { r with pathParameters := [] }

/-- A full table ignores the parameter. -/
def bindPathParameter (r : Request Bytes) (capture : Header) : Request Bytes :=
  if r.pathParameters.length = kMaxPathParameters then r
  else { r with pathParameters := r.pathParameters ++ [capture] }

end Request

/-- The asset of a mount, under the whole path or the path relative to the mount. -/
def Mount.findAsset (mount : Mount) (path : Bytes) : Option Asset :=
  if mount.mountPrefix.isPrefixOf path then
    let relative := path.drop (mount.mountPrefix.length - 1)
    match mount.bundle.find path with
    | some asset => some asset
    | none => if relative != path then mount.bundle.find relative else none
  else none

namespace Router

/-- The first middleware that answers ends the dispatch. -/
def runMiddleware (request : Request Bytes) : List Middleware → Except Response Unit
  | [] => .ok ()
  | middleware :: rest =>
    match invokeMiddleware middleware request with
    | some response => .error response
    | none => runMiddleware request rest

/-- The handler of a route, with the captures bound to the request. -/
def invokeRoute (request : Request Bytes) (route : Route) (captures : List Header) : Response :=
  invokeHandler route.handler (captures.foldl Request.bindPathParameter request)

/-- A loop over candidate routes.  One that matches answers if it has the method, and is allowed
under other methods if not. -/
def tryRoutes (request : Request Bytes) (attempt : Route → Option (List Header))
    (allowed : Method) : List Route → Except Response Method
  | [] => .ok allowed
  | candidate :: rest =>
    match attempt candidate with
    | none => tryRoutes request attempt allowed rest
    | some captures =>
      if candidate.methods.contains request.method then
        .error (invokeRoute request candidate captures)
      else tryRoutes request attempt (allowed ||| candidate.methods) rest

/-- The loop over the mounts: an asset, or the methods that are allowed so far. -/
def tryMounts (request : Request Bytes) (allowed : Method) : List Mount → Except Response Method
  | [] => .ok allowed
  | mount :: rest =>
    match mount.findAsset request.path with
    | none => tryMounts request allowed rest
    | some asset =>
      if getAndHead.contains request.method then .error (assetResponse asset request)
      else tryMounts request (allowed ||| getAndHead) rest

/-- The dispatch between its middleware and its end: a handler of a route or a mounted asset
answers, or the methods of what matches are collected. -/
def search (router : Router) (request : Request Bytes) : Except Response Method := do
  let allowed ← tryRoutes request (fun _ => some []) .none
    (router.select ((FlatMap.lookup request.path router.exactIndex).getD []))
  let allowed ← tryRoutes request
    (fun candidate => matchPath candidate.segments candidate.hasWildcard request.path) allowed
    (router.select router.dynamicRoutes)
  tryMounts request allowed router.mounts

/-- The end of the dispatch, when no handler and no asset has answered. -/
def conclude (router : Router) (request : Request Bytes) (allowed : Method) : Response :=
  if allowed != .none then methodNotAllowedResponse allowed
  else
    match router.fallbackHandler with
    | some handler => invokeHandler handler request
    | none => notFoundResponse

/-- Resolves middleware, exact routes, dynamic routes, mounts, then the fallback. -/
def resolve (router : Router) (request : Request Bytes) : Except Response Response := do
  runMiddleware request router.middleware
  let allowed ← router.search request
  return router.conclude request allowed

/-- `Router::dispatch`. -/
def dispatch (router : Router) (request : Request Bytes) : Response :=
  if request.method == .none then badRequestResponse
  else
    match router.resolve request.clearPathParameters with
    | .ok response => response
    | .error response => response

end Router

end ErikslundHttp
