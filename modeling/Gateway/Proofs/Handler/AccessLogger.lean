import Gateway.Proofs.Exchange.Orderly
import Gateway.Proofs.Exchange.Untouched
import Gateway.Proofs.Handler.Recovery

/-! The log entries of requests. No handler but the logger writes one; the logger does when the rest
of its chain has returned. With a recovery handler in front of that rest, it does so in orderly runs, and
in these only. -/

namespace Gateway

def Event.completed? : Event → Option AccessRecord
  | requestCompleted record => some record
  | _ => none

def Exchange.completed (x : Exchange) : List AccessRecord := x.events.filterMap Event.completed?

def Operation.Unlogged : Operation → Prop
  | emit (.requestCompleted _) => False
  | _ => True

def Handler.Unlogged (h : Handler) : Prop := h.program.Every Operation.Unlogged

/-! ### Who writes no entry -/

theorem Context.render_completed (c : Context) (s : Status) (r : Render) :
    (c.render s r).2.filterMap Event.completed? = [] := by
  simp only [render]
  cases (r.fill s c.writer).2 <;> rfl

theorem Context.abortWith_completed (c : Context) (s : Status) (body : Json) :
    (c.abortWith s body).2.filterMap Event.completed? = [] := by
  unfold abortWith abortRendering
  split
  · rfl
  · exact render_completed _ s (.json body)

theorem Exchange.completed_update {f : Context → Context × List Event} (x : Exchange)
    (hf : (f x.context).2.filterMap Event.completed? = []) : (x.update f).completed = x.completed := by
  simp only [completed, update, List.filterMap_append, hf, List.append_nil]

theorem Operation.Unlogged.completed_apply {op : Operation} (h : op.Unlogged) (x : Exchange) :
    (op.apply x).completed = x.completed := by
  cases op with
  | abortWith s body => exact x.completed_update (x.context.abortWith_completed s body)
  | render s r => exact x.completed_update (x.context.render_completed s r)
  | emit e =>
    have he : e.completed? = none := by
      cases e with
      | requestCompleted record => exact h.elim
      | _ => rfl
    simp [apply, Exchange.completed, he]
  | _ => rfl

theorem Exchange.completed_untouched :
    Exchange.Untouched Exchange.completed Operation.Unlogged where
  apply _ h x := h.completed_apply x
  enter _ _ := rfl
  visit _ _ := rfl

open Machine

namespace AccessLogger

variable {chain : Chain} {x y : Exchange}

def logged (request : Request) (error : String) (y : Exchange) : Exchange :=
  (Operation.emit (.requestCompleted (complete (facts request) y.context error))).apply y

theorem every_program {P : Operation → Prop}
    (emit : ∀ record, P (.emit (.requestCompleted record))) : handler.program.Every P := by
  intro _ x
  unfold entry
  split
  · exact ⟨emit _, trivial⟩
  · trivial

theorem next_of_finished (running : x.context.aborted = false)
    (found : chain[x.context.cursor]? = some handler)
    (rest : chain.next (x.enter x.context.cursor) = .finished y) :
    chain.next x = match errorText y.context with
      | .ok error =>
        .finished ((logged x.context.request error y).visit (.leave x.context.cursor))
      | .error p => .interrupted (y.visit (.unwind x.context.cursor)) (.panic p) := by
  have hrest : chain.advance (chain.length - (x.context.cursor + 1)) (x.enter x.context.cursor) =
      .finished y := rest
  have hstopped : Stopped chain y := Chain.stopped_of_next rest
  cases herror : errorText y.context with
  | ok error =>
    refine Chain.next_of_run running found ?_ hstopped
    simp only [handler, program, Program.run, hrest, entry, herror]
    rfl
  | error p =>
    refine Chain.next_of_interrupt running found ?_
    simp only [handler, program, Program.run, hrest, entry, herror]

theorem next_of_interrupted {why : Interruption} (running : x.context.aborted = false)
    (found : chain[x.context.cursor]? = some handler)
    (rest : chain.next (x.enter x.context.cursor) = .interrupted y why) :
    chain.next x = .interrupted (y.visit (.unwind x.context.cursor)) why := by
  have hrest : chain.advance (chain.length - (x.context.cursor + 1)) (x.enter x.context.cursor) =
      .interrupted y why := rest
  refine Chain.next_of_interrupt running found ?_
  simp only [handler, program, Program.run, hrest]

theorem completed_behind {rest : Chain} (hrest : ∀ h ∈ rest, h.Unlogged) {x : Exchange}
    (start : x.context.cursor = 0) :
    (Chain.next (handler :: rest) (x.enter x.context.cursor)).exchange.completed = x.completed := by
  refine Chain.next_untouched Exchange.completed_untouched fun i h hi hfound => ?_
  have hi : 1 ≤ i := by simpa [Exchange.enter, Exchange.visit, Exchange.mapContext, start] using hi
  obtain ⟨i, rfl⟩ := Nat.exists_eq_add_of_le' hi
  exact hrest h (List.mem_of_getElem? (l := rest) hfound)

end AccessLogger

end Gateway
