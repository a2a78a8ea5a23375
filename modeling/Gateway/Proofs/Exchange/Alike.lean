import Gateway.Proofs.Exchange.Operation
import Gateway.Proofs.Values.Shelf

/-! Two requests under way that differ in nothing but the place where the shelf keeps the values of
their contexts, and the handlers that cannot tell them apart. -/

namespace Gateway

namespace Context

def moved (c : Context) (q : Nat) : Context := { c with place := q }

theorem abort_moved (c : Context) (q : Nat) (s : Status) :
    (c.moved q).abort s = (c.abort s).moved q := by
  unfold abort
  by_cases h : c.aborted = true
  · rw [if_pos h, if_pos (show (c.moved q).aborted = true from h)]
  · rw [if_neg h, if_neg (show ¬ (c.moved q).aborted = true from h)]
    rfl

theorem abortWith_moved (c : Context) (q : Nat) (s : Status) (body : Json) :
    (c.moved q).abortWith s body = ((c.abortWith s body).1.moved q, (c.abortWith s body).2) := by
  unfold abortWith abortRendering
  by_cases h : c.aborted = true
  · rw [if_pos h, if_pos (show (c.moved q).aborted = true from h)]
  · rw [if_neg h, if_neg (show ¬ (c.moved q).aborted = true from h)]
    rfl

end Context

/-- What an operation does to the values on the shelf, when the context has its own at a place. -/
def Operation.shelve (place : Nat) (s : Shelf) : Operation → Shelf
  | setValue n v => s.set (.context place) n v
  | removeValue n => s.erase (.context place) n
  | holdValues => s.share (.context place)
  | setHeld i n v => s.set (.handle i) n v
  | removeHeld i n => s.erase (.handle i) n
  | dropHandle i => s.drop i
  | _ => s

theorem Operation.apply_shelf (op : Operation) (x : Exchange) :
    (op.apply x).shelf = op.shelve x.context.place x.shelf := by cases op <;> rfl

theorem Operation.shelve_valid {s : Shelf} (hs : s.Valid) (op : Operation) (p : Nat) :
    (op.shelve p s).Valid := by
  cases op with
  | setValue n v => exact hs.modify _ _
  | removeValue n => exact hs.modify _ _
  | holdValues => exact hs.share _
  | setHeld i n v => exact hs.modify _ _
  | removeHeld i n => exact hs.modify _ _
  | dropHandle i => exact hs.drop i
  | _ => exact hs

theorem Operation.shelve_contexts (op : Operation) (p : Nat) (s : Shelf) :
    (op.shelve p s).contexts = s.contexts := by
  cases op <;> first | rfl | exact Shelf.contexts_modify _ _ _

theorem Shelf.Alike.shelve {p q : Nat} {s t : Shelf} (h : Shelf.Alike p q s t) (op : Operation) :
    Shelf.Alike p q (op.shelve p s) (op.shelve q t) := by
  cases op with
  | setValue n v => exact h.modify .own _
  | removeValue n => exact h.modify .own _
  | holdValues => exact h.share .own
  | setHeld i n v => exact h.modify (.handle i) _
  | removeHeld i n => exact h.modify (.handle i) _
  | dropHandle i => exact h.drop i
  | _ => exact h

namespace Exchange

/-- The same request with the values of its context at another place of another shelf. -/
def relocate (x : Exchange) (q : Nat) (t : Shelf) : Exchange :=
  { x with context := x.context.moved q, shelf := t }

theorem apply_relocate (op : Operation) (x : Exchange) (q : Nat) (t : Shelf) :
    op.apply (x.relocate q t) = (op.apply x).relocate q (op.shelve q t) := by
  cases op with
  | abort s =>
    simp only [Operation.apply, Operation.shelve, mapContext, relocate, Context.abort_moved]
  | abortWith s body =>
    simp only [Operation.apply, Operation.shelve, update, relocate, Context.abortWith_moved]
  | _ => rfl

/-- A request that is the same as another but for the place of its values, which look the same. -/
def Alike (x y : Exchange) : Prop :=
  ∃ q t, y = x.relocate q t ∧ Shelf.Alike x.context.place q x.shelf t

namespace Alike

variable {x y : Exchange}

theorem values_eq (h : x.Alike y) : x.values = y.values := by
  obtain ⟨q, t, rfl, hs⟩ := h
  exact hs.views .own

theorem handles_eq (h : x.Alike y) : x.shelf.handles.length = y.shelf.handles.length := by
  obtain ⟨q, t, rfl, hs⟩ := h
  exact hs.handles

theorem apply (h : x.Alike y) (op : Operation) : (op.apply x).Alike (op.apply y) := by
  obtain ⟨q, t, rfl, hs⟩ := h
  refine ⟨q, op.shelve q t, apply_relocate op x q t, ?_⟩
  rw [Operation.apply_place, Operation.apply_shelf]
  exact hs.shelve op

theorem visit (h : x.Alike y) (v : Visit) : (x.visit v).Alike (y.visit v) := by
  obtain ⟨q, t, rfl, hs⟩ := h
  exact ⟨q, t, rfl, hs⟩

theorem enter (h : x.Alike y) (i : Nat) : (x.enter i).Alike (y.enter i) := by
  obtain ⟨q, t, rfl, hs⟩ := h
  exact ⟨q, t, rfl, hs⟩

end Alike

end Exchange

/-- A program whose course depends on what handlers may know: the request, the response, the values
and the world, but not where the values are. -/
def Program.Uniform : Program → Prop
  | done => True
  | interrupt _ => True
  | act _ rest => rest.Uniform
  | consult k => (∀ x, (k x).Uniform) ∧ ∀ x y, x.Alike y → k x = k y
  | next rest => rest.Uniform
  | attempt rescue rest => (∀ why, (rescue why).Uniform) ∧ rest.Uniform

end Gateway
