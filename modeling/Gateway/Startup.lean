import Gateway.Net.Socket
import Gateway.Proxy.Handler
import Gateway.Router.Basic

/-! From a configuration to a site with its routes, and its socket. -/

namespace Gateway.Startup

/-- What the configuration leaves to its surroundings: how the files of a directory are served, the
ways to the targets, and why an expression does not compile, if so. -/
structure Means where
  files : String → Handler
  network : Network := .isolated
  refusal? : List Char → Option String := fun _ => none

structure Build where
  router : Router
  root : Group
  balancers : List Balancer := []
  events : List Event := []

def target (t : Config.TargetEntry) : Except GatewayError Target :=
  match Target.ofText t.name t.url t.weight with
  | .ok t => .ok t
  | .error e => .error (.balancer ("target " ++ Text.quoted t.name ++ ": " ++ e.message))

/-- Every route has a balancer of its own, which must take all of the route's targets. -/
def balancer (p : Config.ProxyRoute) : Except GatewayError Balancer := do
  let targets ← p.targets.mapM target
  let (b, refused) := Balancer.build p.balancer targets
  if refused.isEmpty then return b
  else throw (.balancer (p.balancer.text ++ " balancer rejected targets " ++
    Text.quotedList (refused.map (·.name)) ++ " for " ++ Text.quoted p.pattern))

def method (p : Config.ProxyRoute) (m : String) : Except GatewayError Method :=
  match Method.ofText? m with
  | some m => .ok m
  | none => .error (.invalidRoute p.pattern ("bad method " ++ Text.quoted m))

def methods (p : Config.ProxyRoute) : Except GatewayError (List Method) :=
  if p.methods.isEmpty then .ok Router.anyMethods else p.methods.mapM (method p)

def refusal? (means : Means) (w : Config.PathRuleEntry) : Option GatewayError :=
  (means.refusal? (PathRule.expression w.source)).map (.invalidRule w.source)

def rules (means : Means) (p : Config.ProxyRoute) : Except GatewayError PathRules :=
  match p.pathRules.findSome? (refusal? means) with
  | some e => .error e
  | none => .ok (PathRules.ofTexts (p.pathRules.map fun w => (w.source, w.output)))

def addProxy (means : Means) (s : Build) (p : Config.ProxyRoute) : Except GatewayError Build := do
  let b ← balancer p
  let rules ← rules means p
  let methods ← methods p
  let proxy : Proxy := {
    balancer := s.balancers.length
    rules
    network := means.network }
  return { s with
    router := s.router.handleAll s.root methods p.pattern [proxy.handler]
    balancers := s.balancers ++ [b]
    events := s.events ++ [.proxyRegistered p.pattern p.balancer p.targets.length] }

def addFiles (means : Means) (s : Build) (m : Config.StaticMount) : Except GatewayError Build := do
  let router ← s.router.serveFiles s.root m.mount (means.files m.root)
  return { s with router }

def options (c : Config) : RouterOptions where
  handleMethodNotAllowed := c.routing.handleMethodNotAllowed
  removeExtraSlash := c.routing.removeExtraSlash

/-- The routes of a configuration, those for files first. -/
def build (means : Means) (c : Config) : Except GatewayError Build := do
  let (router, root) :=
    (Router.new (options c)).useMiddleware Router.rootGroup Router.defaultMiddleware
  let s ← c.staticFiles.foldlM (addFiles means) { router, root }
  c.proxies.foldlM (addProxy means) s

def run (means : Means) (host : Host) (c : Config) : Except GatewayError (Build × Socket) := do
  let s ← build means c
  let l ← c.listener.open host
  return (s, l)

end Gateway.Startup
