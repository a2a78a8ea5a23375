import Gateway.Config.Schema

/-! Reading a configuration from a value. A record is given by its fields, of which unknown ones
do not count, or by a list of them in order. -/

namespace Gateway.Config

/-- What differs between formats: whether extra items of a list that stands for a record are an
error, and which values say nothing. -/
structure Format where
  strict : Bool
  isVoid : Json → Bool

def Format.json : Format where
  strict := true
  isVoid
    | .null => true
    | _ => false

def Format.toml : Format where
  strict := false
  isVoid
    | .arr items => items.isEmpty
    | .obj fields => fields.isEmpty
    | _ => false

abbrev Reader (α : Type) := Json → Option α

namespace Reader

def text : Reader String
  | .str s => some s
  | _ => none

def bool : Reader Bool
  | .bool b => some b
  | _ => none

def natural : Reader Nat
  | .num (.int i) => if 0 ≤ i ∧ i < 0x10000000000000000 then some i.toNat else none
  | _ => none

def real : Reader Binary64
  | .num n => some n.toReal
  | _ => none

def list {α : Type} (item : Reader α) : Reader (List α)
  | .arr items => items.mapM item
  | _ => none

def nullable {α : Type} (value : Reader α) : Reader (Option α)
  | .null => some none
  | v => (value v).map some

/-- A word, or an object with the word as its only field and a void value. -/
def word {α : Type} (f : Format) (ofText? : String → Option α) : Reader α
  | .str s => ofText? s
  | .obj [(s, v)] => if f.isVoid v then ofText? s else none
  | _ => none

end Reader

/-- The value of each field of a record: absent, or given. -/
def fieldValues (f : Format) (names : List String) : Json → Option (List (Option Json))
  | .obj fields => some (names.map (Fields.get? fields))
  | .arr items =>
    if f.strict && names.length < items.length then none
    else some (names.zipIdx.map fun (_, i) => items[i]?)
  | _ => none

def required {α : Type} (reader : Reader α) : Option Json → Option α
  | none => none
  | some v => reader v

def withDefault {α : Type} (value : α) (reader : Reader α) : Option Json → Option α
  | none => some value
  | some v => reader v

def nth (values : List (Option Json)) (i : Nat) : Option Json := (values[i]?).join

namespace Read

variable (f : Format)

def tls : Reader Tls := fun v => do
  let vs ← fieldValues f ["cert_path", "key_path"] v
  return { certPath := ← required .text (nth vs 0), keyPath := ← required .text (nth vs 1) }

def listener : Reader Listener := fun v => do
  let vs ← fieldValues f ["bind_address", "unix_socket", "tls", "shutdown_timeout_secs"] v
  let base : Listener := {}
  return {
    bindAddress := ← withDefault base.bindAddress .text (nth vs 0)
    unixSocket := ← withDefault none (.nullable .text) (nth vs 1)
    tls := ← withDefault none (.nullable (tls f)) (nth vs 2)
    shutdownTimeoutSecs := ← withDefault base.shutdownTimeoutSecs .natural (nth vs 3) }

def routing : Reader Routing := fun v => do
  let vs ← fieldValues f ["handle_method_not_allowed", "remove_extra_slash"] v
  return {
    handleMethodNotAllowed := ← withDefault true .bool (nth vs 0)
    removeExtraSlash := ← withDefault false .bool (nth vs 1) }

def logging : Reader Logging := fun v => do
  let vs ← fieldValues f ["level", "format"] v
  return {
    level := ← withDefault "info" .text (nth vs 0)
    format := ← withDefault .pretty (.word f LogFormat.ofText?) (nth vs 1) }

/-- A weight may be left out of a record of fields only. -/
def target : Reader TargetEntry := fun v => do
  let vs ← fieldValues f ["name", "url", "weight"] v
  let weight ← match v with
    | .arr _ => required (.nullable .real) (nth vs 2)
    | _ => withDefault none (.nullable .real) (nth vs 2)
  return { name := ← required .text (nth vs 0), url := ← required .text (nth vs 1), weight }

def pathRule : Reader PathRuleEntry := fun v => do
  let vs ← fieldValues f ["from", "to"] v
  return { source := ← required .text (nth vs 0), output := ← required .text (nth vs 1) }

def proxy : Reader ProxyRoute := fun v => do
  let vs ← fieldValues f ["pattern", "methods", "balancer", "targets", "rewrite"] v
  return {
    pattern := ← required .text (nth vs 0)
    methods := ← withDefault [] (.list .text) (nth vs 1)
    balancer := ← withDefault .roundRobin (.word f BalancerKind.ofText?) (nth vs 2)
    targets := ← required (.list (target f)) (nth vs 3)
    pathRules := ← withDefault [] (.list (pathRule f)) (nth vs 4) }

def mount : Reader StaticMount := fun v => do
  let vs ← fieldValues f ["prefix", "root"] v
  return { mount := ← required .text (nth vs 0), root := ← required .text (nth vs 1) }

end Read

def read? (f : Format) (v : Json) : Option Config := do
  let vs ← fieldValues f ["listener", "router", "logging", "proxies", "static_files"] v
  return {
    listener := ← withDefault {} (Read.listener f) (nth vs 0)
    routing := ← withDefault {} (Read.routing f) (nth vs 1)
    logging := ← withDefault {} (Read.logging f) (nth vs 2)
    proxies := ← withDefault [] (.list (Read.proxy f)) (nth vs 3)
    staticFiles := ← withDefault [] (.list (Read.mount f)) (nth vs 4) }

def ofJson? (v : Json) : Option Config := read? .json v

end Gateway.Config
