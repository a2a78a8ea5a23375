import Gateway.Proofs.Http.Headers
import Gateway.Proofs.Proxy.Delivery

/-! Which fields of a target's answer get through to the client. -/

namespace Gateway

/-- The field belongs to one connection, by its name or because the message says so. -/
def Headers.OfHop (h : Headers) (name : HeaderName) : Prop :=
  name ∈ hopByHop ∨ name ∈ h.connectionNames

instance (h : Headers) (name : HeaderName) : Decidable (h.OfHop name) :=
  inferInstanceAs (Decidable (_ ∨ _))

theorem Headers.getAll_withoutHop (h : Headers) (name : HeaderName) :
    h.withoutHop.getAll name = if h.OfHop name then [] else h.getAll name := by
  rw [withoutHop, getAll_foldl_remove, getAll_foldl_remove, ← ite_or]
  rfl

namespace Proxy

open Machine

/-- When the proxy is done the response has this status, and these fields were added to it. -/
def Relays (chain : Chain) (i : Nat) (n : Machine) (status : Status) (fields : Headers) : Prop :=
  ∃ y, Reaches chain n ⟨.handler i .done, n.waiting, y⟩ ∧ y.context.writer.status = status ∧
    y.context.writer.headers = n.exchange.context.writer.headers.appendAll fields

theorem relays_of_reaches {chain : Chain} {i : Nat} {n : Machine} {p : Proxy} {t : Target}
    {r out : Request} {reply : Reply} {response : Response}
    (h : Reaches chain n
      ⟨.handler i .done, n.waiting, p.settled t r out reply (.ok response) n.exchange⟩) :
    Relays chain i n response.status response.headers := by
  have hwriter := settled_writer p t r out reply response n.exchange
  exact ⟨_, h, by rw [hwriter]; rfl, by rw [hwriter]; rfl⟩

/-- Of the answer to a plain request no field of the connection gets through, and all others do as
they are. A refused upgrade is relayed with all of its fields. -/
theorem relayed_fields {p : Proxy} (hookless : ∀ r, p.modify r = .ok r) {chain : Chain} {i : Nat}
    {n : Machine} (enters : Enters chain i p.handler n) (t : Target) (r out : Request)
    (response : Response) :
    (p.Asks n.exchange t r out → p.network.request t out = .answered response →
      ∃ fields, Relays chain i n response.status fields ∧ ∀ name,
        fields.getAll name =
          if name ∈ Headers.hopByHop ∨ name ∈ response.headers.connectionNames then []
          else response.headers.getAll name) ∧
    (p.Upgrades n.exchange t r out → p.network.connect t out = .answered response →
      response.status.code ≠ 101 → Relays chain i n response.status response.headers) := by
  obtain ⟨activity, ws, x⟩ := n
  obtain rfl : activity = .handler i p.program := enters.activity
  constructor
  · intro asks answered
    have hreaches : Reaches chain ⟨.handler i p.program, ws, x⟩ _ := asks.reaches
    simp only [answered, replied, hookless] at hreaches
    have hrelays := relays_of_reaches (n := ⟨.handler i p.program, ws, x⟩) hreaches
    exact ⟨_, hrelays, response.headers.getAll_withoutHop⟩
  · intro upgrades answered refused
    exact relays_of_reaches (upgrades.reaches answered refused)

def refusal : Response where
  status := .forbidden
  headers := ⟨[("connection", .ofText "close, x-hop"), ("keep-alive", .ofText "timeout=5"),
    ("x-hop", .ofText "1"), ("x-app", .ofText "2")]⟩

theorem relayed_fields_refusal :
    let p := answering refusal
    let n : Machine := ⟨.handler 0 p.program, [], Exchange.enter { world := echoing } 0⟩
    Enters [p.handler] 0 p.handler n ∧ (∃ r out, p.Asks n.exchange echo r out) ∧
    ∃ fields, Relays [p.handler] 0 n .forbidden fields ∧
      fields.getAll "connection" = [] ∧ fields.getAll "keep-alive" = [] ∧
      fields.getAll "x-hop" = [] ∧ fields.getAll "x-app" = [.ofText "2"] := by
  intro p n
  have henters : Enters [p.handler] 0 p.handler n := ⟨rfl, rfl, rfl, rfl⟩
  obtain ⟨out, hout⟩ : ∃ out, Outbound.request echo.url (introduced {}) = .ok out :=
    exists_of_isOk (by decide +kernel)
  have hasks : p.Asks n.exchange echo (introduced {}) out := ⟨rfl, rfl, rfl, hout, rfl⟩
  obtain ⟨hplain, -⟩ := relayed_fields (fun _ => rfl) henters echo (introduced {}) out refusal
  obtain ⟨fields, hrelays, hfields⟩ := hplain hasks rfl
  refine ⟨henters, ⟨_, out, hasks⟩, fields, hrelays, ?_⟩
  simp only [hfields]
  decide +kernel

/-- The same answer to a request for a connection of its own keeps them all. -/
theorem refused_upgrade_unfiltered :
    let s := Site.new {} [(answering refusal).handler]
    let request : Request := { headers := ⟨[("upgrade", .ofText "websocket")]⟩ }
    (s.router.dispatch echoing request).outcome.toOption.map (fun r => (r.status, r.headers)) =
      some (refusal.status, refusal.headers) := by
  decide +kernel

end Proxy

end Gateway
