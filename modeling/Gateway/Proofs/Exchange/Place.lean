import Gateway.Proofs.Exchange.Alike
import Gateway.Proofs.Exchange.Machine

/-! A chain leaves the context of a request at its place, and the shelf in order. -/

namespace Gateway

/-- From one state of a request to a later one the context stays at its place, no context comes or
goes, and every holder keeps using a store that exists. -/
structure Exchange.Steady (x y : Exchange) : Prop where
  place : y.context.place = x.context.place
  contexts : y.shelf.contexts = x.shelf.contexts
  valid : x.shelf.Valid → y.shelf.Valid

namespace Exchange.Steady

theorem refl (x : Exchange) : x.Steady x := ⟨rfl, rfl, id⟩

theorem trans {x y z : Exchange} (h : x.Steady y) (h' : y.Steady z) : x.Steady z :=
  ⟨h'.place.trans h.place, h'.contexts.trans h.contexts, h'.valid ∘ h.valid⟩

theorem apply (op : Operation) (x : Exchange) : x.Steady (op.apply x) where
  place := op.apply_place x
  contexts := by rw [op.apply_shelf, op.shelve_contexts]
  valid h := by
    rw [op.apply_shelf]
    exact op.shelve_valid h _

end Exchange.Steady

namespace Machine

theorem Step.steady {chain : Chain} {m n : Machine} (h : Step chain m n) :
    m.exchange.Steady n.exchange := by
  cases h with
  | act => exact .apply _ _
  | _ => exact ⟨rfl, rfl, id⟩

theorem Reaches.steady {chain : Chain} {m n : Machine} (h : Reaches chain m n) :
    m.exchange.Steady n.exchange := by
  induction h with
  | refl => exact .refl _
  | tail _ hs ih => exact ih.trans hs.steady

end Machine

theorem Chain.next_steady (chain : Chain) (x : Exchange) :
    x.Steady (chain.next x).exchange := by
  obtain ⟨m, hm, hh⟩ := Machine.reaches_next chain x
  rw [hh.exchange_eq]
  exact Machine.Reaches.steady hm

end Gateway
