import Gateway.Http.Status
import Gateway.Http.Uri

/-! Why a request could not be forwarded. -/

namespace Gateway

/-- The cause `source` is for the log and never for the client. -/
inductive ProxyError where
  | noTarget
  | canceled (target : String)
  | unreachable (target source : String)
  | upgrade (target source : String)
  | modifyResponse (target source : String)
  | invalidTarget (target reason : String)
  | pathRule (source : UriError)
deriving DecidableEq, Repr

namespace ProxyError

def status : ProxyError → Status
  | noTarget => .serviceUnavailable
  | canceled _ => .clientClosedRequest
  | unreachable .. => .badGateway
  | upgrade .. => .badGateway
  | modifyResponse .. => .badGateway
  | invalidTarget .. => .internalServerError
  | pathRule _ => .internalServerError

def message : ProxyError → String
  | noTarget => "no proxy target available"
  | canceled _ => "client closed connection"
  | unreachable target _ => "remote " ++ target ++ " unreachable, could not forward"
  | upgrade target _ => "websocket upgrade through " ++ target ++ " failed"
  | modifyResponse target _ => "response from " ++ target ++ " rejected"
  | invalidTarget target reason => "invalid target " ++ target ++ ": " ++ reason
  | pathRule _ => "rewritten URI is invalid"

def source? : ProxyError → Option String
  | unreachable _ source => some source
  | upgrade _ source => some source
  | modifyResponse _ source => some source
  | pathRule source => some source.message
  | _ => none

end ProxyError

end Gateway
