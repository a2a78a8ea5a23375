import Gateway.Proofs.Exchange.Fields
import Gateway.Proofs.Exchange.Gate
import Gateway.Proofs.Exchange.Lockstep

/-! The responses that are relayed in the course of a run. While no handler names a field itself, the
request has of it what it had before, and the response has that and what the relayed responses bring,
in their order. -/

namespace Gateway

/-- Neither the request nor the response is changed under the name, but for relayed responses. -/
def Operation.Spares (name : HeaderName) (op : Operation) : Prop :=
  op.SparesRequest name ∧ op.SparesResponse name

def Handler.Spares (name : HeaderName) (h : Handler) : Prop :=
  h.program.Every (Operation.Spares name)

namespace Machine

variable {chain : Chain} {name : HeaderName} {m n : Machine}

/-- From here on the field is left alone, but for relayed responses. -/
def Spared (name : HeaderName) (chain : Chain) (m : Machine) : Prop :=
  ∀ n, Reaches chain m n → ∀ i op rest, n.activity = .handler i (.act op rest) → op.Spares name

theorem Spared.tail (h : Spared name chain m) (hs : Step chain m n) : Spared name chain n :=
  fun k hk => h k (.head hs hk)

theorem Reaches.getAll_request (h : Reaches chain m n) (spared : Spared name chain m) :
    n.exchange.context.request.headers.getAll name =
      m.exchange.context.request.headers.getAll name := by
  induction h with
  | refl => rfl
  | tail hr hs ih =>
    rcases hs.moves_or_acts with ⟨_, _, heq⟩ | ⟨i, op, rest, hact, heq⟩
    · rwa [heq]
    · have hspares := (spared _ hr i op rest hact).1
      rw [heq, hspares.getAll_apply, ih]

def relayed (m : Machine) : List Response :=
  match m.activity with
  | .handler _ (.act op _) => op.relayed
  | _ => []

theorem Step.getAll_relayed (content : name ≠ "content-type") (location : name ≠ "location")
    (h : Step chain m n) (spared : Spared name chain m) :
    n.exchange.context.writer.headers.getAll name =
      m.exchange.context.writer.headers.getAll name ++
        m.relayed.flatMap (·.headers.getAll name) := by
  cases h with
  | act =>
    have hspares := (spared _ .refl _ _ _ rfl).2
    exact hspares.getAll_apply content location _
  | _ => exact (List.append_nil _).symm

theorem Run.getAll_relayed (content : name ≠ "content-type") (location : name ≠ "location")
    {ms : List Machine} (h : Run chain m ms n) (spared : Spared name chain m) :
    n.exchange.context.writer.headers.getAll name =
      m.exchange.context.writer.headers.getAll name ++
        (ms.flatMap relayed).flatMap (·.headers.getAll name) := by
  induction h with
  | refl => exact (List.append_nil _).symm
  | head hs _ ih =>
    rw [ih (spared.tail hs), hs.getAll_relayed content location spared, List.flatMap_cons,
      List.flatMap_append, List.append_assoc]

theorem Run.trans {l : Machine} {ms ns : List Machine} (h : Run chain l ms m)
    (h' : Run chain m ns n) : Run chain l (ms ++ ns) n := by
  induction h with
  | refl => exact h'
  | head hs _ ih => exact .head hs (ih h')

end Machine

end Gateway
