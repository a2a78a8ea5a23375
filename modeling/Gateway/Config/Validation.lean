import Gateway.Config.Schema
import Gateway.Http.Headers
import Gateway.Net.Address
import Gateway.Text.Quoted

/-! The conditions that a configuration has to meet beyond its form. -/

namespace Gateway.Config

structure Problem where
  field : String
  message : String
deriving DecidableEq, Repr

def Problem.text (p : Problem) : String := p.field ++ ": " ++ p.message

def check (holds : Bool) (field message : String) : List Problem :=
  if holds then [] else [⟨field, message⟩]

def indexed (path : String) (i : Nat) : String := path ++ "[" ++ toString i ++ "]"

def notEmpty : String := "must not be empty"

def isBlankText (s : String) : Bool := (Text.trimBlank s).isEmpty

def Listener.problems (l : Listener) : List Problem :=
  check (l.unixSocket.isSome || (SocketAddr.parse? l.bindAddress).isSome) "listener.bind_address"
      (Text.quoted l.bindAddress ++ " is not a socket address") ++
    (match l.tls with
      | none => []
      | some tls =>
        check (!tls.certPath.isEmpty) "listener.tls.cert_path" notEmpty ++
          check (!tls.keyPath.isEmpty) "listener.tls.key_path" notEmpty ++
          check l.unixSocket.isNone "listener.tls" "TLS is not supported on Unix sockets") ++
    check (l.shutdownTimeoutSecs != 0) "listener.shutdown_timeout_secs" "must be greater than zero"

/-- A target that can be forwarded to: plain HTTP or WebSocket, with a host. -/
def urlProblems (path url : String) : List Problem :=
  match Url.parse url with
  | .error e => [⟨path, e.message⟩]
  | .ok u =>
    if u.scheme ≠ "http" ∧ u.scheme ≠ "ws" then
      [⟨path, "unsupported scheme " ++ Text.quoted u.scheme ++ " (http or ws)"⟩]
    else check u.host.isSome path "missing host"

def weightProblems (path : String) : Option Binary64 → List Problem
  | none => [⟨path, "required by the weighted balancer"⟩]
  | some w => check (w.isFinite && decide ((0 : Binary64) ≤ w)) path "must be a non-negative number"

def TargetEntry.problems (t : TargetEntry) (path : String) (kind : BalancerKind)
    (before : List TargetEntry) : List Problem :=
  check (!(before.map (·.name)).contains t.name) (path ++ ".name")
      ("duplicate target name " ++ Text.quoted t.name) ++
    urlProblems (path ++ ".url") t.url ++
    (if kind = .weighted then weightProblems (path ++ ".weight") t.weight else [])

def ProxyRoute.problems (r : ProxyRoute) (path : String) : List Problem :=
  check (!isBlankText r.pattern) (path ++ ".pattern") notEmpty ++
    r.methods.flatMap (fun m =>
      check (Method.ofText? m).isSome (path ++ ".methods")
        (Text.quoted m ++ " is not an HTTP method")) ++
    check (!r.targets.isEmpty) (path ++ ".targets") "at least one target is required" ++
    r.targets.zipIdx.flatMap (fun (t, i) =>
      t.problems (indexed (path ++ ".targets") i) r.balancer (r.targets.take i)) ++
    r.pathRules.zipIdx.flatMap (fun (w, i) =>
      check (!w.source.isEmpty) (indexed (path ++ ".rewrite") i ++ ".from") notEmpty)

def hasParameter (mount : String) : Bool := mount.toList.contains ':' || mount.toList.contains '*'

def StaticMount.problems (m : StaticMount) (path : String) : List Problem :=
  check (m.mount.toList.head? == some '/') path "must start with '/'" ++
    check (!hasParameter m.mount) path "must not contain parameters"

def problems (c : Config) : List Problem :=
  c.listener.problems ++
    check (!isBlankText c.logging.level) "logging.level" notEmpty ++
    c.proxies.zipIdx.flatMap (fun (r, i) => r.problems (indexed "proxies" i)) ++
    c.staticFiles.zipIdx.flatMap (fun (m, i) => m.problems (indexed "static_files" i ++ ".prefix"))

end Gateway.Config
