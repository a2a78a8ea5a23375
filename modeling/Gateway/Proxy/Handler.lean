import Gateway.Exchange.Program
import Gateway.Proxy.Outbound
import Gateway.Route.PathRule

/-! Forwarding a request to one of several targets and relaying the answer. -/

namespace Gateway

inductive Reply where
  | answered (response : Response)
  | unreachable (reason : String)
  | canceled
deriving Inhabited

/-- The ways to reach a target: a request, and a connection of its own that may be upgraded. -/
structure Network where
  request : Target → Request → Reply
  connect : Target → Request → Reply

def Network.isolated : Network :=
  ⟨fun _ _ => .unreachable "Network is unreachable", fun _ _ => .unreachable "Network is unreachable"⟩

/-- Where requests go: the number of the balancer, the rules for the path, what is done to an
answer before it is relayed, and the name under which the chosen target is kept. -/
structure Proxy where
  balancer : Nat
  rules : PathRules := []
  modify : Response → Except String Response := .ok
  key : String := "target"
  network : Network := .isolated

def World.choose (w : World) (balancer : Nat) : World × Option Target :=
  match w.balancers[balancer]? with
  | none => (w, none)
  | some b =>
    let (draws, draw) := w.draws.next
    let (b, t) := b.next draw
    ({ w with balancers := w.balancers.set balancer b, draws }, t)

def World.record (w : World) (r : Request) : World := { w with sent := w.sent ++ [r] }

namespace Proxy

def failureBody (e : ProxyError) : StatusBody :=
  { code := e.status, message := e.message, internal := some e.message }

/-- A request that its client gave up is no failure worth a log entry. -/
def report (e : ProxyError) (rest : Program) : Program :=
  match e with
  | .canceled _ => rest
  | _ => .act (.emit (.proxyFailed e.message)) rest

/-- The error is answered and recorded, and the later handlers are left out. -/
def fail (e : ProxyError) : Program :=
  report e <|
  .act (.abortWith e.status (failureBody e).toJson) <|
  .act (.recordError (.text (failureBody e).text)) <|
  .act .skip .done

def relay (r : Response) : Program := .act (.writeResponse r) <| .act .skip .done

/-- A request is sent unless its client has gone, and the answer relayed without the fields of
its connection. -/
def forward (p : Proxy) (t : Target) : Program :=
  .consult fun x =>
    .act .takeBody <|
      match Outbound.request t.url x.context.request with
      | .error e => fail e
      | .ok out =>
        if x.context.cancelled then fail (.canceled t.name)
        else
          match p.network.request t out with
          | .unreachable reason => fail (.unreachable t.text reason)
          | .canceled => .act (.outside (·.record out)) <| fail (.canceled t.name)
          | .answered r =>
            .act (.outside (·.record out)) <|
              match p.modify { r with headers := r.headers.withoutHop } with
              | .error reason => fail (.modifyResponse t.text reason)
              | .ok r => relay r

/-- A refused upgrade is relayed as it is; an accepted one needs a connection of the client that
can be taken over. -/
def tunnel (p : Proxy) (t : Target) : Program :=
  .consult fun x =>
    .act .takeBody <|
      match Outbound.upgradeRequest t.url x.context.request with
      | .error e => fail e
      | .ok out =>
        match p.network.connect t out with
        | .unreachable reason => fail (.unreachable t.text reason)
        | .canceled => .act (.outside (·.record out)) <| fail (.unreachable t.text "canceled")
        | .answered r =>
          .act (.outside (·.record out)) <|
            if r.status.code ≠ 101 then relay r
            else if x.context.request.upgradable then relay { r with body := [] }
            else fail (.upgrade t.text "connection does not support upgrades")

def send (p : Proxy) (t : Target) : Program :=
  .consult fun x => if x.context.request.isWebSocket then p.tunnel t else p.forward t

def setHeaders (rest : Program) (headers : List (HeaderName × HeaderValue)) : Program :=
  headers.foldr (fun (name, value) rest => .act (.setRequestHeader name value) rest) rest

/-- The client's side of the request is told before it is sent. -/
def introduce (p : Proxy) (t : Target) : Program :=
  .consult fun x => setHeaders (p.send t) (Outbound.clientHeaders x.context.request)

def prepare (p : Proxy) (t : Target) : Program :=
  .consult fun x =>
    match p.rules.apply x.context.request.uri with
    | .error e => fail (.pathRule e)
    | .ok none => p.introduce t
    | .ok (some uri) => .act (.setUri uri) (p.introduce t)

def program (p : Proxy) : Program :=
  .consult fun x =>
    .act (.outside fun w => (w.choose p.balancer).1) <|
      match (x.world.choose p.balancer).2 with
      | none => fail .noTarget
      | some t => .act (.setValue p.key (.target t)) (p.prepare t)

def handler (p : Proxy) : Handler := ⟨"proxy", p.program⟩

end Proxy

end Gateway
