import Gateway.Proofs.Exchange.Gate

/-! What a chain leaves alone: a quantity that no operation changes which a handler may still come
to do. The handlers that count are those from the cursor on, so a handler in front of it may do what
the later ones do not. -/

namespace Gateway

/-- Operations that satisfy `P` do not change the quantity, nor does the way through a chain. -/
structure Exchange.Untouched {α : Type} (f : Exchange → α) (P : Operation → Prop) : Prop where
  apply : ∀ op, P op → ∀ x, f (op.apply x) = f x
  enter : ∀ i x, f (x.enter i) = f x
  visit : ∀ v x, f (x.visit v) = f x

namespace Machine

variable {chain : Chain} {P : Operation → Prop}

/-- All that is still to be done satisfies `P`: by the handlers ahead, by the one that is at work,
and by those that wait. -/
structure Confined (chain : Chain) (P : Operation → Prop) (m : Machine) : Prop where
  ahead : ∀ i h, m.exchange.context.cursor ≤ i → chain[i]? = some h → h.program.Every P
  running : ∀ i p, m.activity = .handler i p → p.Every P
  waiting : ∀ i p, m.Keeps i p → p.Every P

theorem confined_start {x : Exchange}
    (hc : ∀ i h, x.context.cursor ≤ i → chain[i]? = some h → h.program.Every P) :
    Confined chain P ⟨.loop, [], x⟩ where
  ahead := hc
  running i p hp := by cases hp
  waiting := fun i p ⟨w, hw, _⟩ => by simp at hw

theorem Step.cursor_le {m n : Machine} (h : Step chain m n) :
    m.exchange.context.cursor ≤ n.exchange.context.cursor := by
  cases h with
  | enter => exact Nat.le_succ _
  | act => exact (Operation.apply_cursor _ _).ge
  | _ => exact le_rfl

theorem Reaches.cursor_le {m n : Machine} (h : Reaches chain m n) :
    m.exchange.context.cursor ≤ n.exchange.context.cursor := by
  induction h with
  | refl => exact le_rfl
  | tail _ hs ih => exact ih.trans hs.cursor_le

theorem Confined.leaves {m : Machine} (hm : Confined chain P m) {i : Nat} {p : Program}
    (hp : m.Leaves i p) : p.Every P := by
  rcases hp with hkeeps | ⟨q, hq, hafter⟩
  · exact hm.waiting i p hkeeps
  · exact (hm.running i q hq).after hafter

theorem Step.confined {m n : Machine} (h : Step chain m n) (hm : Confined chain P m) :
    Confined chain P n where
  ahead i g hi := hm.ahead i g (h.cursor_le.trans hi)
  waiting i p hp := hm.leaves (h.keeps hp)
  running i p hp := by
    rcases h.handler hp with ⟨g, rfl, hi, henters⟩ | hp
    · exact hm.ahead i g hi.ge henters.found
    · exact hm.leaves hp

variable {α : Type} {f : Exchange → α}

theorem Step.untouched (hf : Exchange.Untouched f P) {m n : Machine} (h : Step chain m n)
    (hm : Confined chain P m) : f n.exchange = f m.exchange := by
  cases h with
  | enter => exact hf.enter _ _
  | act => exact hf.apply _ (hm.running _ _ rfl).1 _
  | done | interrupt | unwind => exact hf.visit _ _
  | resume | consult | next | attempt | rescue => rfl

theorem Reaches.untouched (hf : Exchange.Untouched f P) {m n : Machine} (h : Reaches chain m n)
    (hm : Confined chain P m) : Confined chain P n ∧ f n.exchange = f m.exchange := by
  induction h with
  | refl => exact ⟨hm, rfl⟩
  | tail _ hs ih => exact ⟨hs.confined ih.1, (hs.untouched hf ih.1).trans ih.2⟩

end Machine

namespace Chain

open Machine

variable {chain : Chain} {x : Exchange}

theorem next_untouched {P : Operation → Prop} {α : Type} {f : Exchange → α}
    (hf : Exchange.Untouched f P)
    (hc : ∀ i h, x.context.cursor ≤ i → chain[i]? = some h → h.program.Every P) :
    f (chain.next x).exchange = f x := by
  obtain ⟨m, hr, hh⟩ := reaches_next chain x
  rw [hh.exchange_eq]
  exact (hr.untouched hf (confined_start hc)).2

theorem stopped_of_next {y : Exchange} (h : chain.next x = .finished y) : Stopped chain y := by
  obtain ⟨m, -, hh⟩ := reaches_next chain x
  rw [h] at hh
  cases hh with
  | finished stopped => exact stopped

theorem next_enter {h : Handler} (running : x.context.aborted = false)
    (found : chain[x.context.cursor]? = some h) :
    let advance := chain.advance (chain.length - (x.context.cursor + 1))
    chain.next x = match h.program.run advance (x.enter x.context.cursor) with
      | .interrupted y why => .interrupted (y.visit (.unwind x.context.cursor)) why
      | .finished y => advance (y.visit (.leave x.context.cursor)) := by
  have hlt : x.context.cursor < chain.length := (List.getElem?_eq_some_iff.mp found).1
  have hleft : chain.length - x.context.cursor = chain.length - (x.context.cursor + 1) + 1 := by
    omega
  rw [next, hleft]
  exact advance_enter running found _

theorem next_of_run {h : Handler} {y : Exchange} (running : x.context.aborted = false)
    (found : chain[x.context.cursor]? = some h)
    (run : h.program.run (chain.advance (chain.length - (x.context.cursor + 1)))
      (x.enter x.context.cursor) = .finished y)
    (stopped : Stopped chain y) : chain.next x = .finished (y.visit (.leave x.context.cursor)) := by
  have hleave : Stopped chain (y.visit (.leave x.context.cursor)) := stopped
  rw [next_enter running found, run]
  exact advance_stopped hleave _

theorem next_of_interrupt {h : Handler} {y : Exchange} {why : Interruption}
    (running : x.context.aborted = false) (found : chain[x.context.cursor]? = some h)
    (run : h.program.run (chain.advance (chain.length - (x.context.cursor + 1)))
      (x.enter x.context.cursor) = .interrupted y why) :
    chain.next x = .interrupted (y.visit (.unwind x.context.cursor)) why := by
  rw [next_enter running found, run]

end Chain

end Gateway
