import Gateway.Balance.Target
import Gateway.Http.Message
import Gateway.Proxy.Error
import Gateway.Proxy.Hop

/-! The request that goes to a target in place of a client's request. -/

namespace Gateway.Outbound

/-- Two parts of a path with exactly one slash between them. -/
def joinSlash (a b : String) : String :=
  match a.toList.getLast? == some '/', b.toList with
  | true, '/' :: rest => a ++ String.ofList rest
  | true, _ => a ++ b
  | false, '/' :: _ => a ++ b
  | false, _ => a ++ "/" ++ b

def scheme? : String → Option String
  | "http" => some "http"
  | "ws" => some "http"
  | "https" => some "https"
  | "wss" => some "https"
  | _ => none

/-- The query of the target comes first, and an empty one of the target does not count. -/
def joinQuery (base incoming : Option String) : String :=
  match base.filter (!·.isEmpty), incoming with
  | some a, some b => "?" ++ a ++ "&" ++ b
  | some q, none => "?" ++ q
  | none, some q => "?" ++ q
  | none, none => ""

def authority (host : String) (port : Option Nat) : String :=
  match port with
  | some p => host ++ ":" ++ toString p
  | none => host

def uri (base : Url) (incoming : Uri) : Except ProxyError Uri :=
  match base.host, scheme? base.scheme with
  | none, _ => .error (.invalidTarget base.text "missing host")
  | some _, none => .error (.invalidTarget base.text "unsupported scheme")
  | some host, some scheme =>
    let text := scheme ++ "://" ++ authority host base.port ++ joinSlash base.path incoming.path ++
      joinQuery base.query incoming.query
    match Uri.parse text with
    | .ok u => .ok u
    | .error _ => .error (.invalidTarget base.text "request does not form a valid upstream URI")

def request (base : Url) (r : Request) : Except ProxyError Request := do
  let uri ← uri base r.uri
  let headers := match r.peer with
    | some peer => r.headers.withoutHop.appendForwardedFor peer.ip.text
    | none => r.headers.withoutHop
  return { method := r.method, uri, headers, body := r.body }

def upgradeRequest (base : Url) (r : Request) : Except ProxyError Request := do
  let uri ← uri base r.uri
  return { method := r.method, uri := { rawPath := uri.path, query := uri.query },
           headers := r.headers }

/-- The headers that tell a target about the client, as far as the request has none of the name
and there is something to tell. -/
def clientHeaders (r : Request) : List (HeaderName × HeaderValue) :=
  let told := [("x-real-ip", r.clientIp), ("x-forwarded-proto", r.scheme)] ++
    if r.isWebSocket then [("x-forwarded-for", r.clientIp)] else []
  told.filterMap fun (name, text) =>
    if r.headers.contains name || text.isEmpty then none
    else (HeaderValue.ofText? text).map fun v => (name, v)

end Gateway.Outbound
