import Gateway.Config.Loader
import Gateway.Proxy.Error
import Gateway.Text.Quoted

/-! Why a gateway cannot be built or does not run. -/

namespace Gateway

inductive ListenerError where
  | address (text : String)
  | bind (target cause : String)
  | unsupported
deriving DecidableEq, Repr

namespace ListenerError

def message : ListenerError → String
  | address text => "invalid bind address " ++ Text.quoted text ++ ": " ++ SocketAddr.refusal
  | bind target cause => "failed to bind " ++ target ++ ": " ++ cause
  | unsupported => "Unix sockets are not supported on this platform"

def source? : ListenerError → Option String
  | address _ => some SocketAddr.refusal
  | bind _ cause => some cause
  | unsupported => none

end ListenerError

inductive GatewayError where
  | config (error : ConfigError)
  | listener (error : ListenerError)
  | tls (text : String)
  | invalidRoute (pattern reason : String)
  | invalidRule (rule source : String)
  | balancer (text : String)
  | proxy (error : ProxyError)
deriving DecidableEq, Repr

namespace GatewayError

def message : GatewayError → String
  | config e => "configuration error: " ++ e.message
  | listener e => e.message
  | tls text => "TLS error: " ++ text
  | invalidRoute pattern reason => "invalid route " ++ Text.quoted pattern ++ ": " ++ reason
  | invalidRule rule source => "invalid rewrite rule " ++ Text.quoted rule ++ ": " ++ source
  | balancer text => "load balancer error: " ++ text
  | proxy e => e.message

def source? : GatewayError → Option String
  | config e => some e.message
  | listener e => e.source?
  | invalidRule _ source => some source
  | proxy e => e.source?
  | _ => none

end GatewayError

end Gateway
