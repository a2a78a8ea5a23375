import Gateway.Proofs.Exchange.Operation
import Mathlib.Data.Nat.Basic
import Mathlib.Logic.Relation
import Mathlib.Order.Basic

/-! A chain as a machine that takes one small step at a time. The handlers that wait for the rest of
the chain form a stack, and the loop that looks for the next handler runs on top of it. The machine
comes to an end, and to the same one as the chain. -/

namespace Gateway

/-- A handler that called for the rest of the chain: what it does when that returns, and what it does
when that is interrupted, if it is prepared for it. -/
structure Waiting where
  handler : Nat
  rescue? : Option (Interruption → Program)
  rest : Program

/-- The loop looks for the next handler, a handler has the rest of its program to do, or an
interruption passes through the handlers that wait. -/
inductive Activity where
  | loop
  | handler (i : Nat) (rest : Program)
  | interrupted (why : Interruption)

/-- The handler that waits on top of the stack is the one entered last. -/
structure Machine where
  activity : Activity
  waiting : List Waiting
  exchange : Exchange

namespace Machine

def Stopped (chain : Chain) (x : Exchange) : Prop :=
  x.context.aborted = true ∨ chain[x.context.cursor]? = none

inductive Step (chain : Chain) : Machine → Machine → Prop
  | enter {ws : List Waiting} {x : Exchange} {h : Handler} (running : x.context.aborted = false)
      (found : chain[x.context.cursor]? = some h) :
      Step chain ⟨.loop, ws, x⟩
        ⟨.handler x.context.cursor h.program, ws, x.enter x.context.cursor⟩
  | resume {w : Waiting} {ws : List Waiting} {x : Exchange} (stopped : Stopped chain x) :
      Step chain ⟨.loop, w :: ws, x⟩ ⟨.handler w.handler w.rest, ws, x⟩
  | done {i : Nat} {ws : List Waiting} {x : Exchange} :
      Step chain ⟨.handler i .done, ws, x⟩ ⟨.loop, ws, x.visit (.leave i)⟩
  | interrupt {i : Nat} {why : Interruption} {ws : List Waiting} {x : Exchange} :
      Step chain ⟨.handler i (.interrupt why), ws, x⟩ ⟨.interrupted why, ws, x.visit (.unwind i)⟩
  | act {i : Nat} {op : Operation} {rest : Program} {ws : List Waiting} {x : Exchange} :
      Step chain ⟨.handler i (.act op rest), ws, x⟩ ⟨.handler i (op.after rest), ws, op.apply x⟩
  | consult {i : Nat} {k : Exchange → Program} {ws : List Waiting} {x : Exchange} :
      Step chain ⟨.handler i (.consult k), ws, x⟩ ⟨.handler i (k x), ws, x⟩
  | next {i : Nat} {rest : Program} {ws : List Waiting} {x : Exchange} :
      Step chain ⟨.handler i (.next rest), ws, x⟩ ⟨.loop, ⟨i, none, rest⟩ :: ws, x⟩
  | attempt {i : Nat} {rescue : Interruption → Program} {rest : Program} {ws : List Waiting}
      {x : Exchange} :
      Step chain ⟨.handler i (.attempt rescue rest), ws, x⟩
        ⟨.loop, ⟨i, some rescue, rest⟩ :: ws, x⟩
  | rescue {why : Interruption} {i : Nat} {rescue : Interruption → Program} {rest : Program}
      {ws : List Waiting} {x : Exchange} :
      Step chain ⟨.interrupted why, ⟨i, some rescue, rest⟩ :: ws, x⟩
        ⟨.handler i (rescue why), ws, x⟩
  | unwind {why : Interruption} {i : Nat} {rest : Program} {ws : List Waiting} {x : Exchange} :
      Step chain ⟨.interrupted why, ⟨i, none, rest⟩ :: ws, x⟩
        ⟨.interrupted why, ws, x.visit (.unwind i)⟩

abbrev Reaches (chain : Chain) := Relation.ReflTransGen (Step chain)

inductive Halts (chain : Chain) : Machine → Ending → Prop
  | finished {x : Exchange} (stopped : Stopped chain x) : Halts chain ⟨.loop, [], x⟩ (.finished x)
  | interrupted {x : Exchange} {why : Interruption} :
      Halts chain ⟨.interrupted why, [], x⟩ (.interrupted x why)

theorem Step.acts {chain : Chain} {op : Operation} (h : op.panic? = none) {i : Nat} {rest : Program}
    {ws : List Waiting} {x : Exchange} :
    Step chain ⟨.handler i (.act op rest), ws, x⟩ ⟨.handler i rest, ws, op.apply x⟩ := by
  have hact : Step chain ⟨.handler i (.act op rest), ws, x⟩
      ⟨.handler i (op.after rest), ws, op.apply x⟩ := .act
  rwa [Operation.after_of_none h] at hact

theorem Step.deterministic {chain : Chain} {m n n' : Machine} (h : Step chain m n)
    (h' : Step chain m n') : n = n' := by
  cases h with
  | enter running found =>
    cases h' with
    | enter _ found' =>
      obtain rfl := Option.some.inj (found.symm.trans found')
      rfl
    | resume stopped => simp [Stopped, running, found] at stopped
  | resume stopped =>
    cases h' with
    | enter running found => simp [Stopped, running, found] at stopped
    | resume _ => rfl
  | _ => cases h'; rfl

theorem Halts.no_step {chain : Chain} {m n : Machine} {e : Ending} (h : Halts chain m e) :
    ¬ Step chain m n := by
  intro hs
  cases h with
  | finished stopped =>
    cases hs with
    | enter running found => simp [Stopped, running, found] at stopped
  | interrupted => cases hs

theorem Halts.exchange_eq {chain : Chain} {m : Machine} {e : Ending} (h : Halts chain m e) :
    e.exchange = m.exchange := by cases h <;> rfl

/-- The machine gets from the loop to what the ending says, with the same handlers waiting. -/
def LoopReaches (chain : Chain) (ws : List Waiting) (x : Exchange) : Ending → Prop
  | .finished y => Stopped chain y ∧ Reaches chain ⟨.loop, ws, x⟩ ⟨.loop, ws, y⟩
  | .interrupted y why => Reaches chain ⟨.loop, ws, x⟩ ⟨.interrupted why, ws, y⟩

theorem LoopReaches.head {chain : Chain} {ws : List Waiting} {x y : Exchange} {e : Ending}
    (hs : Reaches chain ⟨.loop, ws, x⟩ ⟨.loop, ws, y⟩) (h : LoopReaches chain ws y e) :
    LoopReaches chain ws x e := by
  cases e with
  | finished z => exact ⟨h.1, hs.trans h.2⟩
  | interrupted z why => exact hs.trans h

/-- The same for a handler and the rest of its program. -/
def HandlerReaches (chain : Chain) (i : Nat) (p : Program) (ws : List Waiting) (x : Exchange) :
    Ending → Prop
  | .finished y => Reaches chain ⟨.handler i p, ws, x⟩ ⟨.handler i .done, ws, y⟩
  | .interrupted y why =>
    Reaches chain ⟨.handler i p, ws, x⟩ ⟨.interrupted why, ws, y.visit (.unwind i)⟩

theorem HandlerReaches.head {chain : Chain} {i : Nat} {p q : Program} {ws : List Waiting}
    {x y : Exchange} {e : Ending} (hs : Reaches chain ⟨.handler i p, ws, x⟩ ⟨.handler i q, ws, y⟩)
    (h : HandlerReaches chain i q ws y e) : HandlerReaches chain i p ws x e := by
  cases e with
  | finished z => exact hs.trans h
  | interrupted z why => exact hs.trans h

/-- What the rest of the chain does from a cursor that leaves at most `left` handlers: the machine
does the same, and the cursor does not move back. -/
def Simulates (chain : Chain) (advance : Exchange → Ending) (left : Nat) : Prop :=
  ∀ ws x, chain.length ≤ x.context.cursor + left →
    LoopReaches chain ws x (advance x) ∧
      x.context.cursor ≤ (advance x).exchange.context.cursor

theorem run_simulated {chain : Chain} {advance : Exchange → Ending} {left : Nat}
    (hadv : Simulates chain advance left) (i : Nat) (p : Program) (ws : List Waiting)
    (x : Exchange) (hx : chain.length ≤ x.context.cursor + left) :
    HandlerReaches chain i p ws x (p.run advance x) ∧
      x.context.cursor ≤ (p.run advance x).exchange.context.cursor := by
  induction p generalizing x with
  | done => exact ⟨.refl, le_rfl⟩
  | interrupt why => exact ⟨.single .interrupt, le_rfl⟩
  | act op rest ih =>
    simp only [Program.run]
    cases hp : op.panic? with
    | none =>
      obtain ⟨hr, hc⟩ := ih (op.apply x) (by simpa using hx)
      exact ⟨hr.head (.single (.acts hp)), (op.apply_cursor x).ge.trans hc⟩
    | some p =>
      have hact : Step chain ⟨.handler i (.act op rest), ws, x⟩
          ⟨.handler i (op.after rest), ws, op.apply x⟩ := .act
      rw [Operation.after_of_some hp] at hact
      exact ⟨(Relation.ReflTransGen.single hact).tail .interrupt, (op.apply_cursor x).ge⟩
  | consult k ih =>
    obtain ⟨hr, hc⟩ := ih x x hx
    exact ⟨hr.head (.single .consult), hc⟩
  | next rest ih =>
    obtain ⟨hl, hc⟩ := hadv (⟨i, none, rest⟩ :: ws) x hx
    simp only [Program.run]
    cases he : advance x with
    | finished y =>
      simp only [he, LoopReaches] at hl hc
      obtain ⟨hr, hc'⟩ := ih y (hx.trans (Nat.add_le_add_right hc left))
      refine ⟨hr.head ?_, hc.trans hc'⟩
      exact (hl.2.head .next).tail (.resume hl.1)
    | interrupted y why =>
      simp only [he, LoopReaches] at hl hc
      exact ⟨(hl.head .next).tail .unwind, hc⟩
  | attempt rescue rest ihr ih =>
    obtain ⟨hl, hc⟩ := hadv (⟨i, some rescue, rest⟩ :: ws) x hx
    simp only [Program.run]
    cases he : advance x with
    | finished y =>
      simp only [he, LoopReaches] at hl hc
      obtain ⟨hr, hc'⟩ := ih y (hx.trans (Nat.add_le_add_right hc left))
      refine ⟨hr.head ?_, hc.trans hc'⟩
      exact (hl.2.head .attempt).tail (.resume hl.1)
    | interrupted y why =>
      simp only [he, LoopReaches] at hl hc
      obtain ⟨hr, hc'⟩ := ihr why y (hx.trans (Nat.add_le_add_right hc left))
      refine ⟨hr.head ?_, hc.trans hc'⟩
      exact (hl.head .attempt).tail .rescue

theorem advance_stopped {chain : Chain} {x : Exchange} (h : Stopped chain x) (left : Nat) :
    chain.advance left x = .finished x := by
  cases left with
  | zero => rfl
  | succ left =>
    rw [Chain.advance]
    by_cases ha : x.context.aborted = true
    · rw [if_pos ha]
    · rw [if_neg ha]
      simp only [h.resolve_left ha]

theorem advance_enter {chain : Chain} {x : Exchange} {h : Handler}
    (running : x.context.aborted = false) (found : chain[x.context.cursor]? = some h)
    (left : Nat) : chain.advance (left + 1) x =
      match h.program.run (chain.advance left) (x.enter x.context.cursor) with
      | .interrupted y why => .interrupted (y.visit (.unwind x.context.cursor)) why
      | .finished y => chain.advance left (y.visit (.leave x.context.cursor)) := by
  rw [Chain.advance, if_neg (by simp [running])]
  dsimp only
  generalize chain[x.context.cursor]? = handler? at found ⊢
  subst found
  rfl

theorem advance_simulated (chain : Chain) (left : Nat) :
    Simulates chain (chain.advance left) left := by
  induction left with
  | zero =>
    intro ws x hx
    exact ⟨⟨.inr (List.getElem?_eq_none_iff.mpr hx), .refl⟩, le_rfl⟩
  | succ left ih =>
    intro ws x hx
    by_cases hs : Stopped chain x
    · rw [advance_stopped hs]
      exact ⟨⟨hs, .refl⟩, le_rfl⟩
    · simp only [Stopped, not_or, Bool.not_eq_true, ← Option.isSome_iff_ne_none] at hs
      obtain ⟨h, hf⟩ := Option.isSome_iff_exists.mp hs.2
      have henter : Step chain ⟨.loop, ws, x⟩
          ⟨.handler x.context.cursor h.program, ws, x.enter x.context.cursor⟩ := .enter hs.1 hf
      have hcur : (x.enter x.context.cursor).context.cursor = x.context.cursor + 1 := rfl
      obtain ⟨hr, hc⟩ := run_simulated ih x.context.cursor h.program ws
        (x.enter x.context.cursor) (by omega)
      rw [hcur] at hc
      rw [advance_enter hs.1 hf]
      cases he : h.program.run (chain.advance left) (x.enter x.context.cursor) with
      | interrupted y why =>
        rw [he] at hr hc
        exact ⟨Relation.ReflTransGen.head henter hr, Nat.le_of_succ_le hc⟩
      | finished y =>
        rw [he] at hr hc
        have hpre : Reaches chain ⟨.loop, ws, x⟩
            ⟨.loop, ws, y.visit (.leave x.context.cursor)⟩ :=
          (Relation.ReflTransGen.head henter hr).tail .done
        have hy : chain.length ≤ (y.visit (.leave x.context.cursor)).context.cursor + left := by
          have : x.context.cursor + 1 ≤ (y.visit (.leave x.context.cursor)).context.cursor := hc
          omega
        obtain ⟨hl, hc'⟩ := ih ws (y.visit (.leave x.context.cursor)) hy
        exact ⟨hl.head hpre, (Nat.le_of_succ_le hc).trans hc'⟩

theorem loopReaches_next (chain : Chain) (ws : List Waiting) (x : Exchange) :
    LoopReaches chain ws x (chain.next x) :=
  (advance_simulated chain (chain.length - x.context.cursor) ws x (by omega)).1

theorem reaches_next (chain : Chain) (x : Exchange) :
    ∃ m, Reaches chain ⟨.loop, [], x⟩ m ∧ Halts chain m (chain.next x) := by
  have h := loopReaches_next chain [] x
  cases he : chain.next x with
  | finished y =>
    rw [he] at h
    exact ⟨_, h.2, .finished h.1⟩
  | interrupted y why =>
    rw [he] at h
    exact ⟨_, h, .interrupted⟩

theorem Reaches.total {chain : Chain} {s m n : Machine} (hm : Reaches chain s m)
    (hn : Reaches chain s n) : Reaches chain m n ∨ Reaches chain n m :=
  Relation.ReflTransGen.total_of_right_unique (fun _ _ _ h h' => h.deterministic h') hm hn

theorem Halts.of_reaches {chain : Chain} {s m n : Machine} {e : Ending} (hn : Reaches chain s n)
    (h : Halts chain n e) (hm : Reaches chain s m) : Reaches chain m n := by
  rcases Reaches.total hm hn with hr | hr
  · exact hr
  · rcases Relation.ReflTransGen.cases_head hr with rfl | ⟨_, hs, _⟩
    · exact .refl
    · exact absurd hs h.no_step

theorem Halts.unique {chain : Chain} {m n n' : Machine} {e e' : Ending} (hr : Reaches chain m n)
    (h : Halts chain n e) (hr' : Reaches chain m n') (h' : Halts chain n' e') : e = e' := by
  have hn : Reaches chain n' n := h.of_reaches hr hr'
  rcases Relation.ReflTransGen.cases_head hn with rfl | ⟨_, hs, _⟩
  · cases h <;> cases h' <;> rfl
  · exact absurd hs h'.no_step

end Machine

end Gateway
