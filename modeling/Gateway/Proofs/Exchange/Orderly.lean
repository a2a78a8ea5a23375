import Gateway.Handler.AccessLogger
import Gateway.Handler.Recovery
import Gateway.Handler.RequestId
import Gateway.Handler.Script
import Gateway.Proofs.Exchange.Gate

/-! Chains in which nothing worse than a panic gets through to the first two handlers, one that is over
when its payload has been dropped, and whose errors can be displayed in the end. Scripts without anything
else make such chains. -/

namespace Gateway

def Interruption.Harmless : Interruption → Prop
  | panic p => p.dropped? = none
  | dropped => False

def Report.Displayable (r : Report) : Prop := ∃ text, r = .text text

def Context.Displayable (c : Context) : Prop := ∀ report ∈ c.errors, report.Displayable

def Operation.Displayable : Operation → Prop
  | recordError report => report.Displayable
  | _ => True

theorem Context.Displayable.append {c c' : Context} (h : c.Displayable) {reports : List Report}
    (new : ∀ report ∈ reports, report.Displayable) (heq : c'.errors = c.errors ++ reports) :
    c'.Displayable := by
  unfold Displayable
  rw [heq]
  exact List.forall_mem_append.mpr ⟨h, new⟩

theorem Context.Displayable.render {c : Context} (h : c.Displayable) (s : Status) (r : Render) :
    (c.render s r).1.Displayable := by
  refine h.append (fun report hmem => ?_) rfl
  obtain ⟨text, -, rfl⟩ := Option.map_eq_some_iff.mp (Option.mem_toList.mp hmem)
  exact ⟨text, rfl⟩

theorem Operation.Displayable.apply {op : Operation} (h : op.Displayable) {x : Exchange}
    (hx : x.context.Displayable) : (op.apply x).context.Displayable := by
  cases op with
  | abort s =>
    obtain ⟨_, ha⟩ := x.context.abort_frame s
    exact hx.append (List.forall_mem_nil _)
      ((congrArg Context.errors ha).trans (List.append_nil _).symm)
  | abortWith s body =>
    simp only [Operation.apply, Exchange.update, Context.abortWith, Context.abortRendering]
    split
    · exact hx
    · refine Context.Displayable.render ?_ s (.json body)
      exact hx
  | render s r => exact hx.render s r
  | recordError report => exact hx.append (List.forall_mem_singleton.mpr h) rfl
  | _ => exact hx

/-- A program that causes none but harmless interruptions, as long as those are that it catches, and
records what can be displayed. -/
def Program.Tame : Program → Prop
  | done => True
  | interrupt why => why.Harmless
  | act op rest => op.Displayable ∧ rest.Tame
  | consult k => ∀ x, x.context.Displayable → (k x).Tame
  | next rest => rest.Tame
  | attempt rescue rest => (∀ why, why.Harmless → (rescue why).Tame) ∧ rest.Tame

def Handler.Tame (h : Handler) : Prop := h.program.Tame

namespace Machine

def Waiting.Tame (w : Waiting) : Prop :=
  w.rest.Tame ∧ ∀ f, w.rescue? = some f → ∀ why, why.Harmless → (f why).Tame

/-- All that is left to do is tame, and nothing has gone wrong so far. -/
structure Tame (m : Machine) : Prop where
  handler : ∀ i p, m.activity = .handler i p → p.Tame
  interrupted : ∀ why, m.activity = .interrupted why → why.Harmless
  waiting : ∀ w ∈ m.waiting, Waiting.Tame w
  displayable : m.exchange.context.Displayable

end Machine

namespace Chain

open Machine

end Chain

namespace AccessLogger

end AccessLogger

/-- An action that does not panic with a payload whose drop is a panic, nor records what cannot be
displayed. -/
def Action.Tame : Action → Prop
  | panic p => p.dropped? = none
  | act op => op.Displayable
  | _ => True

end Gateway
