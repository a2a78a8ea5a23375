import Gateway.Balance.Balancer
import Gateway.Http.Status
import Gateway.Json

/-! What the log says about requests and routes. -/

namespace Gateway

structure AccessRecord where
  requestId : String
  remoteIp : String
  host : String
  method : String
  uri : String
  userAgent : String
  status : Status
  error : String
  bytesIn : Nat
  bytesOut : Nat
deriving DecidableEq, Repr

inductive Event where
  | requestCompleted (record : AccessRecord)
  | handlerPanicked (message path : String)
  | renderFailed (error : String)
  | proxyFailed (error : String)
  | requestIdRefused (error : String)
  | proxyRegistered (pattern : String) (balancer : BalancerKind) (targets : Nat)
deriving DecidableEq, Repr

namespace Event

def level : Event → String
  | requestCompleted _ => "INFO"
  | handlerPanicked .. => "ERROR"
  | proxyRegistered .. => "INFO"
  | _ => "WARN"

def message : Event → String
  | requestCompleted _ => "Request completed"
  | handlerPanicked .. => "Handler panicked"
  | renderFailed _ => "Render failed"
  | proxyFailed _ => "Proxy failed"
  | requestIdRefused _ => "Generated request id is not a valid header"
  | proxyRegistered .. => "Proxy route registered"

def fields : Event → List (String × Json)
  | requestCompleted r =>
    [("request_id", .str r.requestId), ("remote_ip", .str r.remoteIp), ("host", .str r.host),
      ("method", .str r.method), ("uri", .str r.uri), ("user_agent", .str r.userAgent),
      ("status", .ofNat r.status.code), ("error", .str r.error), ("bytes_in", .ofNat r.bytesIn),
      ("bytes_out", .ofNat (UInt64.ofNat r.bytesOut).toNat)]
  | handlerPanicked message path => [("panic", .str message), ("path", .str path)]
  | renderFailed error => [("error", .str error)]
  | proxyFailed error => [("error", .str error)]
  | requestIdRefused error => [("error", .str error)]
  | proxyRegistered pattern balancer targets =>
    [("pattern", .str pattern), ("balancer", .str balancer.text), ("targets", .ofNat targets)]

def toJson (e : Event) : Json :=
  .ofFields (("level", .str e.level) :: ("message", .str e.message) :: e.fields)

end Event

end Gateway
