import Gateway.Proofs.Exchange.Answer
import Gateway.Proofs.Exchange.Gate
import Gateway.Proxy.Handler

/-! What a request can come to at a proxy: the answer of the target that was chosen, or one error.
The program of the proxy gets to one of these with the response as it was before. -/

namespace Gateway

namespace ProxyError

/-- The same error but for the cause, which is kept from the client. -/
inductive SameButCause : ProxyError → ProxyError → Prop
  | same (e : ProxyError) : SameButCause e e
  | unreachable (target source source' : String) :
      SameButCause (.unreachable target source) (.unreachable target source')
  | upgrade (target source source' : String) :
      SameButCause (.upgrade target source) (.upgrade target source')
  | modifyResponse (target source source' : String) :
      SameButCause (.modifyResponse target source) (.modifyResponse target source')
  | pathRule (source source' : UriError) : SameButCause (.pathRule source) (.pathRule source')

def answer (e : ProxyError) : String :=
  String.ofList ("\x7b\"code\":".toList ++ (toString e.status.code).toList ++
    ",\"status\":\"error\",\"message\":".toList ++ Json.printString e.message ++ ['\x7d'])

theorem SameButCause.status_eq {e e' : ProxyError} (h : e.SameButCause e') :
    e.status = e'.status := by cases h <;> rfl

theorem SameButCause.answer_eq {e e' : ProxyError} (h : e.SameButCause e') :
    e.answer = e'.answer := by cases h <;> rfl

theorem code_mem (e : ProxyError) : e.status.code ∈ [499, 500, 502, 503] := by
  cases e <;> simp [status, Status.serviceUnavailable, Status.clientClosedRequest,
    Status.badGateway, Status.internalServerError]

theorem allowsBody_status (e : ProxyError) : e.status.allowsBody = true := by cases e <;> rfl

end ProxyError

def Request.tell (r : Request) (field : HeaderName × HeaderValue) : Request :=
  { r with headers := r.headers.insert field.1 field.2 }

namespace Proxy

theorem opening_failureBody (e : ProxyError) :
    (failureBody e).opening = "\x7b\"code\":".toList ++ (toString e.status.code).toList ++
      ",\"status\":\"error\",\"message\":".toList := by
  have hcode : ∀ s ∈ [Status.clientClosedRequest, .internalServerError, .badGateway,
      .serviceUnavailable], StatusBody.opening ⟨s, "", none⟩ =
        "\x7b\"code\":".toList ++ (toString s.code).toList ++
          ",\"status\":\"error\",\"message\":".toList := by
    decide
  exact hcode e.status (by cases e <;> simp [ProxyError.status])

theorem compact_failureBody (e : ProxyError) : (failureBody e).toJson.compact = e.answer := by
  have h := StatusBody.print_toJson (failureBody e)
  rw [opening_failureBody] at h
  exact congrArg String.ofList h

/-! ### The outcomes -/

def introduced (r : Request) : Request := (Outbound.clientHeaders r).foldl Request.tell r

def prepared (p : Proxy) (r : Request) : Except UriError Request :=
  (p.rules.apply r.uri).map fun uri? => introduced { r with uri := uri?.getD r.uri }

theorem exists_of_prepared {p : Proxy} {r r' : Request} (h : p.prepared r = .ok r') :
    ∃ uri?, p.rules.apply r.uri = .ok uri? ∧ r' = introduced { r with uri := uri?.getD r.uri } := by
  unfold prepared at h
  cases huri : p.rules.apply r.uri with
  | error e => simp [huri, Except.map] at h
  | ok uri? =>
    simp only [huri, Except.map, Except.ok.injEq] at h
    exact ⟨uri?, rfl, h.symm⟩

/-- What comes of a plain request: the answer of the target after the hook, or an error. -/
inductive Forwarded (p : Proxy) (cancelled : Bool) (t : Target) (r : Request) :
    Except ProxyError Response → Prop
  | unsendable {e : ProxyError} (failed : Outbound.request t.url r = .error e) :
      Forwarded p cancelled t r (.error e)
  | gone {out : Request} (sendable : Outbound.request t.url r = .ok out)
      (gone : cancelled = true) : Forwarded p cancelled t r (.error (.canceled t.name))
  | unreachable {out : Request} {reason : String}
      (sendable : Outbound.request t.url r = .ok out) (present : cancelled = false)
      (failed : p.network.request t out = .unreachable reason) :
      Forwarded p cancelled t r (.error (.unreachable t.text reason))
  | canceled {out : Request} (sendable : Outbound.request t.url r = .ok out)
      (present : cancelled = false) (canceled : p.network.request t out = .canceled) :
      Forwarded p cancelled t r (.error (.canceled t.name))
  | rejected {out : Request} {response : Response} {reason : String}
      (sendable : Outbound.request t.url r = .ok out) (present : cancelled = false)
      (answered : p.network.request t out = .answered response)
      (rejected : p.modify { response with headers := response.headers.withoutHop } =
        .error reason) : Forwarded p cancelled t r (.error (.modifyResponse t.text reason))
  | relayed {out : Request} {response modified : Response}
      (sendable : Outbound.request t.url r = .ok out) (present : cancelled = false)
      (answered : p.network.request t out = .answered response)
      (accepted : p.modify { response with headers := response.headers.withoutHop } =
        .ok modified) : Forwarded p cancelled t r (.ok modified)

/-- What comes of a request for a connection of its own. It has no hook: the answer of the target
is passed on as it is, and the bytes after an accepted upgrade go through the connection. -/
inductive Tunnelled (p : Proxy) (t : Target) (r : Request) : Except ProxyError Response → Prop
  | unsendable {e : ProxyError} (failed : Outbound.upgradeRequest t.url r = .error e) :
      Tunnelled p t r (.error e)
  | unreachable {out : Request} {reason : String}
      (sendable : Outbound.upgradeRequest t.url r = .ok out)
      (failed : p.network.connect t out = .unreachable reason) :
      Tunnelled p t r (.error (.unreachable t.text reason))
  | canceled {out : Request} (sendable : Outbound.upgradeRequest t.url r = .ok out)
      (canceled : p.network.connect t out = .canceled) :
      Tunnelled p t r (.error (.unreachable t.text "canceled"))
  | refused {out : Request} {response : Response}
      (sendable : Outbound.upgradeRequest t.url r = .ok out)
      (answered : p.network.connect t out = .answered response)
      (refused : response.status.code ≠ 101) : Tunnelled p t r (.ok response)
  | upgraded {out : Request} {response : Response}
      (sendable : Outbound.upgradeRequest t.url r = .ok out)
      (answered : p.network.connect t out = .answered response)
      (accepted : response.status.code = 101) (upgradable : r.upgradable = true) :
      Tunnelled p t r (.ok { response with body := [] })
  | stranded {out : Request} {response : Response}
      (sendable : Outbound.upgradeRequest t.url r = .ok out)
      (answered : p.network.connect t out = .answered response)
      (accepted : response.status.code = 101) (fixed : r.upgradable = false) :
      Tunnelled p t r (.error (.upgrade t.text "connection does not support upgrades"))

inductive Sent (p : Proxy) (cancelled : Bool) (t : Target) (r : Request)
    (result : Except ProxyError Response) : Prop
  | plain (websocket : r.isWebSocket = false) (forwarded : Forwarded p cancelled t r result)
  | upgrade (websocket : r.isWebSocket = true) (tunnelled : Tunnelled p t r result)

inductive Addressed (p : Proxy) (cancelled : Bool) (t : Target) (r : Request) :
    Except ProxyError Response → Prop
  | badPath {e : UriError} (failed : p.prepared r = .error e) :
      Addressed p cancelled t r (.error (.pathRule e))
  | sent {r' : Request} {result : Except ProxyError Response} (prepared : p.prepared r = .ok r')
      (sent : Sent p cancelled t r' result) : Addressed p cancelled t r result

/-- What comes of a request, with the target that is chosen for it if there is one. -/
inductive Outcome (p : Proxy) (x : Exchange) :
    Option Target → Except ProxyError Response → Prop
  | noTarget (empty : (x.world.choose p.balancer).2 = none) :
      Outcome p x none (.error .noTarget)
  | chosen {t : Target} {result : Except ProxyError Response}
      (chosen : (x.world.choose p.balancer).2 = some t)
      (addressed : Addressed p x.context.cancelled t x.context.request result) :
      Outcome p x (some t) result

/-- When the target answers, the hook decides. -/
theorem Outcome.eq_of_answered {p : Proxy} {x : Exchange} {target? : Option Target}
    {result : Except ProxyError Response} (h : Outcome p x target? result) {t : Target}
    {r out : Request} {response : Response} (chosen : (x.world.choose p.balancer).2 = some t)
    (prepared : p.prepared x.context.request = .ok r) (plain : r.isWebSocket = false)
    (sendable : Outbound.request t.url r = .ok out) (present : x.context.cancelled = false)
    (answered : p.network.request t out = .answered response) :
    target? = some t ∧
      result = (p.modify { response with headers := response.headers.withoutHop }).mapError
        (.modifyResponse t.text) := by
  cases h with
  | noTarget empty => simp [chosen] at empty
  | chosen hchosen addressed =>
    obtain rfl := Option.some.inj (chosen.symm.trans hchosen)
    refine ⟨rfl, ?_⟩
    cases addressed with
    | badPath failed => simp [prepared] at failed
    | sent hprepared sent =>
      obtain rfl := Except.ok.inj (prepared.symm.trans hprepared)
      cases sent with
      | upgrade websocket => simp [plain] at websocket
      | plain _ forwarded =>
        cases forwarded with
        | unsendable failed => simp [sendable] at failed
        | gone _ gone => simp [present] at gone
        | unreachable hsendable _ failed =>
          obtain rfl := Except.ok.inj (sendable.symm.trans hsendable)
          simp [answered] at failed
        | canceled hsendable _ canceled =>
          obtain rfl := Except.ok.inj (sendable.symm.trans hsendable)
          simp [answered] at canceled
        | rejected hsendable _ hanswered rejected =>
          obtain rfl := Except.ok.inj (sendable.symm.trans hsendable)
          obtain rfl := Reply.answered.inj (answered.symm.trans hanswered)
          rw [rejected]
          rfl
        | relayed hsendable _ hanswered accepted =>
          obtain rfl := Except.ok.inj (sendable.symm.trans hsendable)
          obtain rfl := Reply.answered.inj (answered.symm.trans hanswered)
          rw [accepted]
          rfl

/-! ### The way to them -/

def conclude : Except ProxyError Response → Program
  | .ok r => relay r
  | .error e => fail e

/-- Nothing but the request and the world outside has changed. -/
def Kept (x y : Exchange) : Prop :=
  ∃ request world, y = { x with context := { x.context with request }, world }

theorem Kept.refl (x : Exchange) : Kept x x := ⟨_, _, rfl⟩

theorem Kept.trans {x y z : Exchange} (h : Kept x y) (h' : Kept y z) : Kept x z := by
  obtain ⟨_, _, rfl⟩ := h
  obtain ⟨request, world, rfl⟩ := h'
  exact ⟨request, world, rfl⟩

open Machine

variable {chain : Chain} {i : Nat} {ws : List Waiting}

def Concludes (chain : Chain) (i : Nat) (ws : List Waiting) (program : Program) (x : Exchange)
    (possible : Except ProxyError Response → Prop) : Prop :=
  ∃ result y, possible result ∧ Kept x y ∧
    Reaches chain ⟨.handler i program, ws, x⟩ ⟨.handler i (conclude result), ws, y⟩

namespace Concludes

variable {program rest : Program} {x : Exchange}
  {possible possible' : Except ProxyError Response → Prop}

theorem here {result : Except ProxyError Response} (h : possible result)
    (hp : program = conclude result) : Concludes chain i ws program x possible := by
  subst hp
  exact ⟨result, x, h, .refl x, .refl⟩

theorem act {op : Operation} (hk : Kept x (op.apply x))
    (h : Concludes chain i ws rest (op.apply x) possible) (hop : op.panic? = none := by rfl) :
    Concludes chain i ws (.act op rest) x possible := by
  obtain ⟨result, y, hp, hy, hr⟩ := h
  exact ⟨result, y, hp, hk.trans hy, .head (.acts hop) hr⟩

theorem consult {k : Exchange → Program} (h : Concludes chain i ws (k x) x possible) :
    Concludes chain i ws (.consult k) x possible := by
  obtain ⟨result, y, hp, hy, hr⟩ := h
  exact ⟨result, y, hp, hy, .head .consult hr⟩

theorem imp (h : Concludes chain i ws program x possible)
    (himp : ∀ result, possible result → possible' result) :
    Concludes chain i ws program x possible' := by
  obtain ⟨result, y, hp, hy, hr⟩ := h
  exact ⟨result, y, himp result hp, hy, hr⟩

end Concludes

theorem forward_concludes (p : Proxy) (t : Target) (x : Exchange) :
    Concludes chain i ws (p.forward t) x
      (Forwarded p x.context.cancelled t x.context.request) := by
  refine .consult <| .act ⟨_, _, rfl⟩ ?_
  cases hout : Outbound.request t.url x.context.request with
  | error e => exact .here (.unsendable hout) rfl
  | ok out =>
    dsimp only
    cases hgone : x.context.cancelled with
    | true => exact .here (.gone hout rfl) rfl
    | false =>
      rw [if_neg Bool.false_ne_true]
      have hrecord : ∀ y, Kept y ((Operation.outside (·.record out)).apply y) :=
        fun y => ⟨_, _, rfl⟩
      cases hreply : p.network.request t out with
      | unreachable reason => exact .here (.unreachable hout rfl hreply) rfl
      | canceled => exact .act (hrecord _) <| .here (.canceled hout rfl hreply) rfl
      | answered response =>
        refine .act (hrecord _) ?_
        cases hmodify : p.modify { response with headers := response.headers.withoutHop } with
        | error reason => exact .here (.rejected hout rfl hreply hmodify) rfl
        | ok modified => exact .here (.relayed hout rfl hreply hmodify) rfl

theorem tunnel_concludes (p : Proxy) (t : Target) (x : Exchange) :
    Concludes chain i ws (p.tunnel t) x (Tunnelled p t x.context.request) := by
  refine .consult <| .act ⟨_, _, rfl⟩ ?_
  cases hout : Outbound.upgradeRequest t.url x.context.request with
  | error e => exact .here (.unsendable hout) rfl
  | ok out =>
    dsimp only
    have hrecord : ∀ y, Kept y ((Operation.outside (·.record out)).apply y) :=
      fun y => ⟨_, _, rfl⟩
    cases hreply : p.network.connect t out with
    | unreachable reason => exact .here (.unreachable hout hreply) rfl
    | canceled => exact .act (hrecord _) <| .here (.canceled hout hreply) rfl
    | answered response =>
      refine .act (hrecord _) ?_
      by_cases hcode : response.status.code = 101
      · rw [if_neg (not_not.mpr hcode)]
        cases hupgradable : x.context.request.upgradable with
        | true => exact .here (.upgraded hout hreply hcode hupgradable) rfl
        | false => exact .here (.stranded hout hreply hcode hupgradable) rfl
      · rw [if_pos hcode]
        exact .here (.refused hout hreply hcode) rfl

theorem send_concludes (p : Proxy) (t : Target) (x : Exchange) :
    Concludes chain i ws (p.send t) x (Sent p x.context.cancelled t x.context.request) := by
  refine .consult ?_
  cases hws : x.context.request.isWebSocket with
  | true => exact (tunnel_concludes p t x).imp fun _ h => .upgrade hws h
  | false => exact (forward_concludes p t x).imp fun _ h => .plain hws h

theorem setHeaders_concludes (p : Proxy) (t : Target) (headers : List (HeaderName × HeaderValue))
    (x : Exchange) :
    Concludes chain i ws (setHeaders (p.send t) headers) x
      (Sent p x.context.cancelled t (headers.foldl Request.tell x.context.request)) := by
  induction headers generalizing x with
  | nil => exact send_concludes p t x
  | cons h headers ih => exact .act ⟨_, _, rfl⟩ (ih ((Operation.setRequestHeader h.1 h.2).apply x))

theorem introduce_concludes (p : Proxy) (t : Target) (x : Exchange) :
    Concludes chain i ws (p.introduce t) x
      (Sent p x.context.cancelled t (introduced x.context.request)) :=
  .consult (setHeaders_concludes p t _ x)

theorem prepare_concludes (p : Proxy) (t : Target) (x : Exchange) :
    Concludes chain i ws (p.prepare t) x
      (Addressed p x.context.cancelled t x.context.request) := by
  refine .consult ?_
  cases huri : p.rules.apply x.context.request.uri with
  | error e =>
    have hbad : p.prepared x.context.request = .error e := by
      simp only [prepared, huri, Except.map]
    exact .here (.badPath hbad) rfl
  | ok uri? =>
    have hgood : p.prepared x.context.request =
        .ok (introduced { x.context.request with uri := uri?.getD x.context.request.uri }) := by
      simp only [prepared, huri, Except.map]
    cases uri? with
    | none => exact (introduce_concludes p t x).imp fun _ h => .sent hgood h
    | some uri =>
      refine .act ⟨_, _, rfl⟩ ?_
      exact (introduce_concludes p t _).imp fun _ h => .sent hgood h

def marked (p : Proxy) (x : Exchange) : Option Target → Exchange
  | none => x
  | some t => (Operation.setValue p.key (.target t)).apply x

theorem program_reaches (chain : Chain) (i : Nat) (ws : List Waiting) (p : Proxy) (x : Exchange) :
    ∃ target? result y, Outcome p x target? result ∧ Kept (p.marked x target?) y ∧
      Reaches chain ⟨.handler i p.program, ws, x⟩ ⟨.handler i (conclude result), ws, y⟩ := by
  have hstart : Reaches chain ⟨.handler i p.program, ws, x⟩ _ :=
    .head .consult (.single (.acts rfl))
  cases hchosen : (x.world.choose p.balancer).2 with
  | none =>
    rw [hchosen] at hstart
    exact ⟨none, .error .noTarget, _, .noTarget hchosen, ⟨_, _, rfl⟩, hstart⟩
  | some t =>
    rw [hchosen] at hstart
    obtain ⟨result, y, hresult, hy, hr⟩ := prepare_concludes p t
      (p.marked ((Operation.outside fun w => (w.choose p.balancer).1).apply x) (some t))
    exact ⟨some t, result, y, .chosen hchosen hresult, .trans ⟨_, _, rfl⟩ hy,
      (hstart.tail (.acts rfl)).trans hr⟩

end Proxy

end Gateway
