import Gateway.Proofs.Proxy.Answer

/-! The way of a request through a proxy to its target, and of the answer back: what state the proxy
leaves, with the request that was sent. -/

namespace Gateway

open Machine

namespace Proxy

variable {chain : Chain} {i : Nat} {ws : List Waiting}

/-- A plain request that is about to be sent: the target, the request with what it tells about the
client, and the one that goes out. -/
structure Asks (p : Proxy) (x : Exchange) (t : Target) (r out : Request) : Prop where
  chosen : (x.world.choose p.balancer).2 = some t
  prepared : p.prepared x.context.request = .ok r
  plain : r.isWebSocket = false
  sendable : Outbound.request t.url r = .ok out
  present : x.context.cancelled = false

/-- The same for a request for a connection of its own. -/
structure Upgrades (p : Proxy) (x : Exchange) (t : Target) (r out : Request) : Prop where
  chosen : (x.world.choose p.balancer).2 = some t
  prepared : p.prepared x.context.request = .ok r
  websocket : r.isWebSocket = true
  sendable : Outbound.upgradeRequest t.url r = .ok out

/-! ### Up to the target -/

def approached (p : Proxy) (t : Target) (r : Request) (x : Exchange) : Exchange :=
  (p.marked ((Operation.outside fun w => (w.choose p.balancer).1).apply x) (some t)).mapContext
    fun c => { c with request := r }

@[simp] theorem approached_context (p : Proxy) (t : Target) (r : Request) (x : Exchange) :
    (p.approached t r x).context = { x.context with request := r } := rfl

theorem setHeaders_reaches (rest : Program) (headers : List (HeaderName × HeaderValue))
    (x : Exchange) :
    Reaches chain ⟨.handler i (setHeaders rest headers), ws, x⟩
      ⟨.handler i rest, ws,
        x.mapContext fun c => { c with request := headers.foldl Request.tell c.request }⟩ := by
  induction headers generalizing x with
  | nil => exact .refl
  | cons h headers ih => exact .head .act (ih ((Operation.setRequestHeader h.1 h.2).apply x))

theorem approached_reaches {p : Proxy} {x : Exchange} {t : Target} {r : Request}
    (chosen : (x.world.choose p.balancer).2 = some t)
    (prepared : p.prepared x.context.request = .ok r) :
    Reaches chain ⟨.handler i p.program, ws, x⟩
      ⟨.handler i (p.send t), ws, p.approached t r x⟩ := by
  have hstart : Reaches chain ⟨.handler i p.program, ws, x⟩ _ := .head .consult (.single .act)
  rw [chosen] at hstart
  refine (hstart.tail .act).trans (.head .consult ?_)
  obtain ⟨uri?, huri, rfl⟩ := exists_of_prepared prepared
  split
  · next e he => cases huri.symm.trans he
  · next he =>
    cases huri.symm.trans he
    exact .head .consult (setHeaders_reaches _ _ _)
  · next uri he =>
    cases huri.symm.trans he
    exact .head .act <| .head .consult (setHeaders_reaches _ _ _)

theorem approached_sent (p : Proxy) (t : Target) (r : Request) (x : Exchange) :
    (p.approached t r x).world.sent = x.world.sent := by
  change ((x.world.choose p.balancer).1).sent = _
  unfold World.choose
  split <;> rfl

/-! ### To the target and back -/

def handed (out : Request) (reply : Reply) (x : Exchange) : Exchange :=
  let taken := Operation.takeBody.apply x
  match reply with
  | .unreachable _ => taken
  | _ => (Operation.outside (·.record out)).apply taken

def replied (p : Proxy) (t : Target) : Reply → Except ProxyError Response
  | .unreachable reason => .error (.unreachable t.text reason)
  | .canceled => .error (.canceled t.name)
  | .answered response =>
    match p.modify { response with headers := response.headers.withoutHop } with
    | .error reason => .error (.modifyResponse t.text reason)
    | .ok modified => .ok modified

theorem forward_reaches {p : Proxy} {t : Target} {x : Exchange} {out : Request}
    (sendable : Outbound.request t.url x.context.request = .ok out)
    (present : x.context.cancelled = false) :
    Reaches chain ⟨.handler i (p.forward t), ws, x⟩
      ⟨.handler i (conclude (p.replied t (p.network.request t out))), ws,
        handed out (p.network.request t out) x⟩ := by
  refine .head .consult <| .head .act ?_
  rw [sendable]
  simp only [present, Bool.false_eq_true, if_false]
  cases p.network.request t out with
  | unreachable reason => exact .refl
  | canceled => exact .single .act
  | answered response =>
    refine .head .act ?_
    simp only [replied]
    cases p.modify { response with headers := response.headers.withoutHop } <;> exact .refl

def upgraded (t : Target) (upgradable : Bool) : Reply → Except ProxyError Response
  | .unreachable reason => .error (.unreachable t.text reason)
  | .canceled => .error (.unreachable t.text "canceled")
  | .answered response =>
    if response.status.code ≠ 101 then .ok response
    else if upgradable then .ok { response with body := [] }
    else .error (.upgrade t.text "connection does not support upgrades")

theorem tunnel_reaches {p : Proxy} {t : Target} {x : Exchange} {out : Request}
    (sendable : Outbound.upgradeRequest t.url x.context.request = .ok out) :
    let reply := p.network.connect t out
    Reaches chain ⟨.handler i (p.tunnel t), ws, x⟩
      ⟨.handler i (conclude (upgraded t x.context.request.upgradable reply)), ws,
        handed out reply x⟩ := by
  intro reply
  refine .head .consult <| .head .act ?_
  rw [sendable]
  simp only [reply]
  cases p.network.connect t out with
  | unreachable reason => exact .refl
  | canceled => exact .single .act
  | answered response =>
    refine .head .act ?_
    simp only [upgraded]
    split
    · exact .refl
    · split <;> exact .refl

def settled (p : Proxy) (t : Target) (r out : Request) (reply : Reply)
    (result : Except ProxyError Response) (x : Exchange) : Exchange :=
  concluded (handed out reply (p.approached t r x)) result

theorem Asks.reaches {p : Proxy} {x : Exchange} {t : Target} {r out : Request}
    (h : p.Asks x t r out) :
    let reply := p.network.request t out
    Reaches chain ⟨.handler i p.program, ws, x⟩
      ⟨.handler i .done, ws, p.settled t r out reply (p.replied t reply) x⟩ := by
  intro reply
  have hforward : Reaches chain ⟨.handler i (p.forward t), ws, p.approached t r x⟩
      ⟨.handler i (conclude (p.replied t reply)), ws, handed out reply (p.approached t r x)⟩ :=
    forward_reaches (by simp [h.sendable]) (by simp [h.present])
  refine (approached_reaches h.chosen h.prepared).trans <| .head .consult ?_
  rw [if_neg (by simp [h.plain])]
  exact hforward.trans (conclude_reaches chain i ws _ _)

theorem Upgrades.reaches_upgraded {p : Proxy} {x : Exchange} {t : Target} {r out : Request}
    (h : p.Upgrades x t r out) :
    let reply := p.network.connect t out
    Reaches chain ⟨.handler i p.program, ws, x⟩
      ⟨.handler i .done, ws, p.settled t r out reply (upgraded t r.upgradable reply) x⟩ := by
  intro reply
  have htunnel : Reaches chain ⟨.handler i (p.tunnel t), ws, p.approached t r x⟩
      ⟨.handler i (conclude (upgraded t r.upgradable reply)), ws,
        handed out reply (p.approached t r x)⟩ := tunnel_reaches (by simp [h.sendable])
  refine (approached_reaches h.chosen h.prepared).trans <| .head .consult ?_
  rw [if_pos (by simp [h.websocket])]
  exact htunnel.trans (conclude_reaches chain i ws _ _)

theorem Upgrades.reaches {p : Proxy} {x : Exchange} {t : Target} {r out : Request}
    (h : p.Upgrades x t r out) {response : Response}
    (answered : p.network.connect t out = .answered response)
    (refused : response.status.code ≠ 101) :
    Reaches chain ⟨.handler i p.program, ws, x⟩
      ⟨.handler i .done, ws, p.settled t r out (.answered response) (.ok response) x⟩ := by
  have hreached : Reaches chain ⟨.handler i p.program, ws, x⟩ _ := h.reaches_upgraded
  simpa only [answered, upgraded, if_pos refused] using hreached

theorem concluded_world (x : Exchange) (result : Except ProxyError Response) :
    (concluded x result).world = x.world := by
  cases result with
  | ok r => rfl
  | error e => cases e <;> rfl

theorem settled_sent {p : Proxy} {t : Target} {r out : Request} {reply : Reply}
    (reached : ∀ reason, reply ≠ .unreachable reason) (result : Except ProxyError Response)
    (x : Exchange) : (p.settled t r out reply result x).world.sent = x.world.sent ++ [out] := by
  rw [settled, concluded_world]
  cases reply with
  | unreachable reason => exact absurd rfl (reached reason)
  | canceled | answered => exact congrArg (· ++ [out]) (approached_sent p t r x)

theorem settled_writer (p : Proxy) (t : Target) (r out : Request) (reply : Reply)
    (response : Response) (x : Exchange) :
    (p.settled t r out reply (.ok response) x).context.writer =
      x.context.writer.writeResponse response := by
  cases reply <;> rfl

theorem exists_of_isOk {ε α : Type} {x : Except ε α} (h : x.isOk = true) : ∃ a, x = .ok a := by
  cases x with
  | error e => cases h
  | ok a => exact ⟨a, rfl⟩

def echo : Target :=
  ⟨"a", { scheme := "http", slashes := true, host := some "a", path := "/" }, none⟩

def answering (response : Response) : Proxy where
  balancer := 0
  network := ⟨fun _ _ => .answered response, fun _ _ => .answered response⟩

def echoing : World := { balancers := [{ kind := .roundRobin, set := ⟨[echo]⟩ }] }

end Proxy

end Gateway
