import Gateway.Error
import Gateway.Handler.AccessLogger
import Gateway.Handler.Recovery
import Gateway.Handler.RequestId
import Gateway.Handler.StaticFiles
import Gateway.Pool
import Gateway.Route.Path
import Gateway.Router.Table
import Gateway.Values.Shelf

/-! Registering routes, on the router itself or on groups of it. -/

namespace Gateway

structure RouterOptions where
  handleMethodNotAllowed : Bool := true
  removeExtraSlash : Bool := false
  maxIdleContexts : Nat := 1024
deriving DecidableEq, Repr, Inhabited

structure RouteInfo where
  method : Method
  path : String
  handlerName : String
deriving DecidableEq, Repr

/-- The handlers for requests that no route serves, and the middleware that runs before them. -/
structure FallbackHandlers where
  rootMiddleware : List Handler := []
  notFound : List Handler := []
  noMethod : List Handler := []

structure Fallbacks where
  notFound : Chain := []
  noMethod : Chain := []

def FallbackHandlers.compose (f : FallbackHandlers) : Fallbacks where
  notFound := f.rootMiddleware ++ f.notFound
  noMethod := f.rootMiddleware ++ f.noMethod

/-- What all groups of a router share. Requests take their contexts from the pool, whose values are
on the shelf, and all of them count as cancelled once the router is. -/
structure Router where
  options : RouterOptions
  tables : Tables := []
  routes : List RouteInfo := []
  handlers : FallbackHandlers := {}
  fallbacks : Fallbacks := {}
  pool : Pool Context
  shelf : Shelf := {}
  cancelled : Bool := false

/-- Routes of a group start with its base and run its middleware first. -/
structure Group where
  base : String := "/"
  middleware : List Handler := []
  isRoot : Bool := false

namespace Router

def new (options : RouterOptions) : Router :=
  { options, pool := { maxIdle := options.maxIdleContexts } }

def rootGroup : Group := { isRoot := true }

def anyMethods : List Method := ["OPTIONS", "HEAD", "GET", "POST", "PUT", "PATCH", "DELETE"]

def register (r : Router) (m : Method) (pattern : String) (chain : Chain) : Router :=
  { r with
    tables := r.tables.add m pattern chain
    routes := r.routes ++ [⟨m, pattern, chain.name⟩] }

def handle (r : Router) (g : Group) (m : Method) (pattern : String) (handlers : List Handler) :
    Router :=
  r.register m (Path.join g.base pattern) (g.middleware ++ handlers)

def handleAll (r : Router) (g : Group) (ms : List Method) (pattern : String)
    (handlers : List Handler) : Router :=
  ms.foldl (fun r m => r.handle g m pattern handlers) r

def any (r : Router) (g : Group) (pattern : String) (handlers : List Handler) : Router :=
  r.handleAll g anyMethods pattern handlers

def withHandlers (r : Router) (handlers : FallbackHandlers) : Router :=
  { r with handlers, fallbacks := handlers.compose }

/-- Later routes of the group run the handlers first; those of the root also come before the
fallbacks. -/
def useMiddleware (r : Router) (g : Group) (handlers : List Handler) : Router × Group :=
  let g := { g with middleware := g.middleware ++ handlers }
  if g.isRoot then (r.withHandlers { r.handlers with rootMiddleware := g.middleware }, g)
  else (r, g)

def notFound (r : Router) (handlers : List Handler) : Router :=
  r.withHandlers { r.handlers with notFound := handlers }

def noMethod (r : Router) (handlers : List Handler) : Router :=
  r.withHandlers { r.handlers with noMethod := handlers }

def filesPattern (mount : String) : String :=
  String.ofList (mount.toList.reverse.dropWhile (· == '/')).reverse ++ "/*filepath"

def filesRefusal : String := "URL parameters can not be used when serving a static folder"

/-- Files are served to GET and HEAD requests; the mount itself has no parameters. -/
def serveFiles (r : Router) (g : Group) (mount : String) (files : Handler) :
    Except GatewayError Router :=
  if Config.hasParameter mount then .error (.invalidRoute mount filesRefusal)
  else .ok (r.handleAll g ["GET", "HEAD"] (filesPattern mount) [files])

def defaultMiddleware : List Handler :=
  [AccessLogger.handler, Recovery.handler, RequestId.handler .random]

def describe (r : Router) (g : Group) : String :=
  "Router \x7b prefix: " ++ Text.quoted g.base ++ ", middleware: " ++
    toString g.middleware.length ++ ", routes: " ++ toString r.routes.length ++ " \x7d"

end Router

def Group.sub (g : Group) (base : String) (handlers : List Handler) : Group where
  base := Path.join g.base base
  middleware := g.middleware ++ handlers

/-- A router with its groups, of which the first is the root. -/
structure Site where
  router : Router
  groups : List Group := [Router.rootGroup]

namespace Site

def new (options : RouterOptions) (middleware : List Handler) : Site :=
  let (router, root) := (Router.new options).useMiddleware Router.rootGroup middleware
  { router, groups := [root] }

inductive Registration where
  | use (handlers : List Handler)
  | group (base : String) (handlers : List Handler)
  | clone
  | handle (method : Method) (pattern : String) (handlers : List Handler)
  | any (pattern : String) (handlers : List Handler)
  | notFound (handlers : List Handler)
  | noMethod (handlers : List Handler)
  | serveFiles (mount : String) (files : Handler)

/-- The site after a registration through the group `on`; new groups come last. -/
def register (s : Site) (on : Fin s.groups.length) : Registration → Except GatewayError Site
  | .use handlers =>
    let (router, g) := s.router.useMiddleware s.groups[on] handlers
    .ok { router, groups := s.groups.set on g }
  | .group base handlers => .ok { s with groups := s.groups ++ [s.groups[on].sub base handlers] }
  | .clone => .ok { s with groups := s.groups ++ [s.groups[on]] }
  | .handle m pattern handlers =>
    .ok { s with router := s.router.handle s.groups[on] m pattern handlers }
  | .any pattern handlers => .ok { s with router := s.router.any s.groups[on] pattern handlers }
  | .notFound handlers => .ok { s with router := s.router.notFound handlers }
  | .noMethod handlers => .ok { s with router := s.router.noMethod handlers }
  | .serveFiles mount files => do
    let router ← s.router.serveFiles s.groups[on] mount files
    return { s with router }

end Site

end Gateway
