import Gateway.Balance.Balancer
import Gateway.Json

/-! What a configuration says, and its fields as values. -/

namespace Gateway.Config

structure Tls where
  certPath : String
  keyPath : String
deriving DecidableEq, Repr

/-- With a Unix socket the address is not used. -/
structure Listener where
  bindAddress : String := "0.0.0.0:8080"
  unixSocket : Option String := none
  tls : Option Tls := none
  shutdownTimeoutSecs : Nat := 60
deriving DecidableEq, Repr, Inhabited

structure Routing where
  handleMethodNotAllowed : Bool := true
  removeExtraSlash : Bool := false
deriving DecidableEq, Repr, Inhabited

inductive LogFormat where
  | pretty
  | json
deriving DecidableEq, Repr

def LogFormat.text : LogFormat → String
  | pretty => "pretty"
  | json => "json"

def LogFormat.ofText? : String → Option LogFormat
  | "pretty" => some pretty
  | "json" => some json
  | _ => none

structure Logging where
  level : String := "info"
  format : LogFormat := .pretty
deriving DecidableEq, Repr

instance : Inhabited Logging := ⟨{}⟩

structure TargetEntry where
  name : String
  url : String
  weight : Option Binary64 := none
deriving DecidableEq, Repr

structure PathRuleEntry where
  source : String
  output : String
deriving DecidableEq, Repr

/-- A route without methods serves all of them. -/
structure ProxyRoute where
  pattern : String
  methods : List String := []
  balancer : BalancerKind := .roundRobin
  targets : List TargetEntry
  pathRules : List PathRuleEntry := []
deriving DecidableEq, Repr

structure StaticMount where
  mount : String
  root : String
deriving DecidableEq, Repr

end Config

structure Config where
  listener : Config.Listener := {}
  routing : Config.Routing := {}
  logging : Config.Logging := {}
  proxies : List Config.ProxyRoute := []
  staticFiles : List Config.StaticMount := []
deriving DecidableEq, Repr, Inhabited

namespace Config

def texts (items : List String) : Json := .arr (items.map .str)

def optional {α : Type} (encode : α → Json) : Option α → Json
  | none => .null
  | some a => encode a

def Tls.toJson (t : Tls) : Json :=
  .ofFields [("cert_path", .str t.certPath), ("key_path", .str t.keyPath)]

def Listener.toJson (l : Listener) : Json :=
  .ofFields [("bind_address", .str l.bindAddress), ("unix_socket", optional .str l.unixSocket),
    ("tls", optional Tls.toJson l.tls), ("shutdown_timeout_secs", .ofNat l.shutdownTimeoutSecs)]

def TargetEntry.toJson (t : TargetEntry) : Json :=
  .ofFields [("name", .str t.name), ("url", .str t.url),
    ("weight", optional (fun w => .num (.real w)) t.weight)]

def PathRuleEntry.toJson (r : PathRuleEntry) : Json :=
  .ofFields [("from", .str r.source), ("to", .str r.output)]

def ProxyRoute.toJson (r : ProxyRoute) : Json :=
  .ofFields [("pattern", .str r.pattern), ("methods", texts r.methods),
    ("balancer", .str r.balancer.text), ("targets", .arr (r.targets.map TargetEntry.toJson)),
    ("rewrite", .arr (r.pathRules.map PathRuleEntry.toJson))]

def StaticMount.toJson (m : StaticMount) : Json :=
  .ofFields [("prefix", .str m.mount), ("root", .str m.root)]

def toJson (c : Config) : Json :=
  .ofFields [("listener", c.listener.toJson),
    ("router", .ofFields [("handle_method_not_allowed", .bool c.routing.handleMethodNotAllowed),
      ("remove_extra_slash", .bool c.routing.removeExtraSlash)]),
    ("logging", .ofFields [("level", .str c.logging.level), ("format", .str c.logging.format.text)]),
    ("proxies", .arr (c.proxies.map ProxyRoute.toJson)),
    ("static_files", .arr (c.staticFiles.map StaticMount.toJson))]

end Config

end Gateway
