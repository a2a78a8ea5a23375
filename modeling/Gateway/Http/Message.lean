import Gateway.Http.Headers
import Gateway.Http.Status
import Gateway.Http.Uri
import Gateway.Net.Address

/-! Requests and responses, and what a request tells about the client. -/

namespace Gateway

/-- The socket peer is absent when the connection has no address. A connection is `secure` when it
is encrypted, and `upgradable` when it can be taken over for another protocol. -/
structure Request where
  method : Method := "GET"
  uri : Uri := {}
  headers : Headers := {}
  body : Bytes := []
  peer : Option SocketAddr := none
  secure : Bool := false
  upgradable : Bool := false
deriving Inhabited

structure Response where
  status : Status := .ok
  headers : Headers := {}
  body : Bytes := []
deriving Inhabited

namespace Request

/-- The first forwarded address, else the address set by a proxy, else the peer; empty when
nothing is known. -/
def clientIp (r : Request) : String :=
  let forwarded := (r.headers.trimmed? "x-forwarded-for").map fun v =>
    Text.trimBlank (String.ofList (v.toList.takeWhile (· != ',')))
  match forwarded.filter (!·.isEmpty) with
  | some ip => ip
  | none =>
    match r.headers.trimmed? "x-real-ip" with
    | some ip => ip
    | none => ((r.peer.map (·.ip.text)).getD "")

/-- The scheme of the client's own connection, as far as this hop can tell. -/
def scheme (r : Request) : String :=
  if r.secure then "https"
  else
    match r.headers.trimmed? "x-forwarded-proto" with
    | some s => s
    | none =>
      match r.headers.trimmed? "x-forwarded-protocol" with
      | some s => s
      | none =>
        if r.headers.trimmed? "x-forwarded-ssl" = some "on" then "https"
        else (r.headers.trimmed? "x-url-scheme").getD "http"

def isWebSocket (r : Request) : Bool :=
  (r.headers.trimmed? "upgrade").any fun v => v.toLower == "websocket"

/-- The value of a cookie, without quotes around it. -/
def cookie? (r : Request) (name : String) : Option String :=
  let pairs := (r.headers.getAll "cookie").flatMap fun v =>
    match v.text? with
    | some s => (Text.pieces ';' s.toList).filterMap fun p => Text.cut '=' (Text.trim Text.isBlank p)
    | none => []
  (pairs.find? (·.1 == name.toList)).map fun (_, v) => String.ofList (Text.trim (· == '"') v)

end Request

end Gateway
