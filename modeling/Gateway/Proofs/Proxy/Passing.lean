import Gateway.Handler.Service
import Gateway.Handler.StaticFiles
import Gateway.Proofs.Exchange.Relayed
import Gateway.Proofs.Proxy.Connection
import Gateway.Proofs.Proxy.Introduction

/-! Handlers that relay a response, and the fields that they pass on as they are: on the way to a
target these are the ones that neither belong to a connection nor tell about the client. -/

namespace Gateway

variable {name : HeaderName}

namespace Proxy

def clientFields : List HeaderName := ["x-real-ip", "x-forwarded-proto", "x-forwarded-for"]

theorem mem_clientFields {r : Request} {field : HeaderName × HeaderValue}
    (h : field ∈ Outbound.clientHeaders r) : field.1 ∈ clientFields := by
  have htelling {n : HeaderName} {text : String} (hf : field ∈ r.telling n text) : field.1 = n := by
    unfold Request.telling at hf
    split at hf
    · cases hf
    · rw [List.mem_singleton.mp hf]
  rw [Outbound.clientHeaders_eq, List.mem_append, List.mem_append] at h
  rcases h with h | h | h
  · simp [htelling h, clientFields]
  · simp [htelling h, clientFields]
  · split at h
    · simp [htelling h, clientFields]
    · cases h

/-! ### Towards the client -/

theorem every_conclude (result : Except ProxyError Response) :
    (conclude result).Every (Operation.Spares name) := by
  cases result with
  | ok r => exact ⟨⟨trivial, trivial⟩, ⟨trivial, trivial⟩, trivial⟩
  | error e =>
    have hanswer : (fail e).Every (Operation.Spares name) := by
      cases e <;> simp [fail, report, Program.Every, Operation.Spares, Operation.SparesRequest,
        Operation.SparesResponse]
    exact hanswer

theorem every_forward (p : Proxy) (t : Target) : (p.forward t).Every (Operation.Spares name) := by
  refine fun x => ⟨⟨trivial, trivial⟩, ?_⟩
  cases Outbound.request t.url x.context.request with
  | error e => exact every_conclude (.error e)
  | ok out =>
    dsimp only
    split
    · exact every_conclude (.error _)
    · cases p.network.request t out with
      | unreachable reason => exact every_conclude (.error _)
      | canceled => exact ⟨⟨trivial, trivial⟩, every_conclude (.error _)⟩
      | answered r =>
        refine ⟨⟨trivial, trivial⟩, ?_⟩
        cases p.modify { r with headers := r.headers.withoutHop } with
        | error reason => exact every_conclude (.error _)
        | ok r => exact every_conclude (.ok r)

theorem every_tunnel (p : Proxy) (t : Target) : (p.tunnel t).Every (Operation.Spares name) := by
  refine fun x => ⟨⟨trivial, trivial⟩, ?_⟩
  cases Outbound.upgradeRequest t.url x.context.request with
  | error e => exact every_conclude (.error e)
  | ok out =>
    dsimp only
    cases p.network.connect t out with
    | unreachable reason => exact every_conclude (.error _)
    | canceled => exact ⟨⟨trivial, trivial⟩, every_conclude (.error _)⟩
    | answered r =>
      refine ⟨⟨trivial, trivial⟩, ?_⟩
      split
      · exact every_conclude (.ok _)
      · split
        · exact every_conclude (.ok _)
        · exact every_conclude (.error _)

theorem every_send (p : Proxy) (t : Target) : (p.send t).Every (Operation.Spares name) := by
  intro x
  dsimp only
  split
  · exact p.every_tunnel t
  · exact p.every_forward t

theorem every_setHeaders {rest : Program} (h : rest.Every (Operation.Spares name))
    {headers : List (HeaderName × HeaderValue)} (other : ∀ field ∈ headers, field.1 ≠ name) :
    (setHeaders rest headers).Every (Operation.Spares name) := by
  induction headers with
  | nil => exact h
  | cons field headers ih =>
    obtain ⟨hfield, hheaders⟩ := List.forall_mem_cons.mp other
    exact ⟨⟨hfield, trivial⟩, ih hheaders⟩

theorem every_introduce (p : Proxy) (t : Target) (other : name ∉ clientFields) :
    (p.introduce t).Every (Operation.Spares name) := by
  refine fun x => every_setHeaders (p.every_send t) fun field hfield => ?_
  rintro rfl
  exact other (mem_clientFields hfield)

theorem spares_handler (p : Proxy) (other : name ∉ clientFields) : p.handler.Spares name := by
  refine fun x => ⟨⟨trivial, trivial⟩, ?_⟩
  cases (x.world.choose p.balancer).2 with
  | none => exact every_conclude (.error _)
  | some t =>
    refine ⟨⟨trivial, trivial⟩, fun y => ?_⟩
    dsimp only
    split
    · exact every_conclude (.error _)
    · exact p.every_introduce t other
    · exact ⟨⟨trivial, trivial⟩, p.every_introduce t other⟩

end Proxy

/-- A proxy, a service that gets the request as it is, or the files of a directory. -/
inductive Handler.Relaying : Handler → Prop
  | proxy (p : Proxy) : Relaying p.handler
  | service (label : String) (service : Request → Response) :
      Relaying ⟨label, Service.program service fun _ rest => rest⟩
  | files (s : FileServer) (root : List String) : Relaying (StaticFiles.handler s root)

theorem Handler.Relaying.spares {h : Handler} (relaying : h.Relaying)
    (other : name ∉ Proxy.clientFields) : h.Spares name := by
  cases relaying with
  | proxy p => exact p.spares_handler other
  | service label service => exact fun x => ⟨⟨trivial, trivial⟩, ⟨trivial, trivial⟩, trivial⟩
  | files t root =>
    intro x
    dsimp only
    split
    · exact ⟨⟨trivial, trivial⟩, trivial⟩
    · exact ⟨⟨trivial, trivial⟩, ⟨trivial, trivial⟩, trivial⟩

namespace Proxy

/-! ### Towards a target -/

open Machine

theorem getAll_prepared {p : Proxy} {q r : Request} (prepared : p.prepared q = .ok r)
    (other : name ∉ clientFields) : r.headers.getAll name = q.headers.getAll name := by
  obtain ⟨uri?, -, rfl⟩ := exists_of_prepared prepared
  simp only [clientFields, List.mem_cons, List.not_mem_nil, or_false, not_or] at other
  obtain ⟨hip, hproto, hfor⟩ := other
  rw [getAll_introduced _ hfor, if_neg hproto, if_neg hip]

theorem connectionNames_prepared {p : Proxy} {q r : Request} (prepared : p.prepared q = .ok r) :
    r.headers.connectionNames = q.headers.connectionNames := by
  obtain ⟨uri?, -, rfl⟩ := exists_of_prepared prepared
  exact connectionNames_introduced _

variable {p : Proxy} {x : Exchange} {t : Target} {r out : Request}

theorem Asks.getAll_out (h : p.Asks x t r out) (other : name ∉ clientFields)
    (foreign : name ∉ Headers.hopByHop) :
    (x.context.request.headers.Lists name → out.headers.getAll name = []) ∧
      (¬ x.context.request.headers.Lists name →
        out.headers.getAll name = x.context.request.headers.getAll name) := by
  have hfor : name ≠ "x-forwarded-for" := by
    rintro rfl
    exact other (by decide)
  have hiff : r.headers.OfHop name ↔ x.context.request.headers.Lists name := by
    rw [← Headers.mem_connectionNames_iff, ← connectionNames_prepared h.prepared]
    exact or_iff_right foreign
  rw [getAll_request h.sendable hfor, getAll_prepared h.prepared other]
  exact ⟨fun lists => if_pos (hiff.mpr lists), fun lists => if_neg (hiff.not.mpr lists)⟩

theorem Upgrades.getAll_out (h : p.Upgrades x t r out) (other : name ∉ clientFields) :
    out.headers.getAll name = x.context.request.headers.getAll name := by
  have hsendable := h.sendable
  unfold Outbound.upgradeRequest at hsendable
  cases huri : Outbound.uri t.url r.uri with
  | error e => simp [huri, bind, Except.bind] at hsendable
  | ok uri =>
    obtain rfl : _ = out := by
      simpa [huri, bind, Except.bind, pure, Except.pure] using hsendable
    exact getAll_prepared (r := r) h.prepared other

end Proxy

end Gateway
