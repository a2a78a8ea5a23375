import Gateway.Exchange.Program

/-! What the operations of handlers leave alone: the cursor and the place of the context, the visits,
and, once it is set, the mark of an abort. -/

namespace Gateway

namespace Context

theorem render_frame (c : Context) (s : Status) (r : Render) :
    ∃ writer errors, (c.render s r).1 = { c with writer, errors } := ⟨_, _, rfl⟩

theorem abort_of_aborted {c : Context} (h : c.aborted = true) (s : Status) : c.abort s = c :=
  if_pos h

theorem abortWith_of_aborted {c : Context} (h : c.aborted = true) (s : Status) (body : Json) :
    c.abortWith s body = (c, []) := if_pos h

theorem abort_frame (c : Context) (s : Status) :
    ∃ writer, c.abort s = { c with writer, aborted := true } := by
  cases h : c.aborted with
  | true => exact ⟨c.writer, by rw [abort_of_aborted h, ← h]⟩
  | false => exact ⟨c.writer.setStatus s, by simp [abort, h, setStatus, mapWriter]⟩

theorem abortWith_frame (c : Context) (s : Status) (body : Json) :
    ∃ writer errors, (c.abortWith s body).1 = { c with writer, errors, aborted := true } := by
  cases h : c.aborted with
  | true => exact ⟨c.writer, c.errors, by rw [abortWith_of_aborted h, ← h]⟩
  | false =>
    simp only [abortWith, abortRendering, h, Bool.false_eq_true, if_false]
    obtain ⟨writer, errors, hr⟩ :=
      render_frame (({ c with aborted := true }).mapWriter (·.clearBody)) s (.json body)
    exact ⟨writer, errors, hr⟩

end Context

namespace Operation

theorem apply_frame (op : Operation) (x : Exchange) :
    ∃ request writer errors aborted,
      (op.apply x).context = { x.context with request, writer, errors, aborted } := by
  cases op with
  | abort s =>
    obtain ⟨_, h⟩ := x.context.abort_frame s
    exact ⟨_, _, _, _, h⟩
  | abortWith s body =>
    obtain ⟨_, _, h⟩ := x.context.abortWith_frame s body
    exact ⟨_, _, _, _, h⟩
  | render s r =>
    obtain ⟨_, _, h⟩ := x.context.render_frame s r
    exact ⟨_, _, _, _, h⟩
  | _ => exact ⟨_, _, _, _, rfl⟩

@[simp] theorem apply_cursor (op : Operation) (x : Exchange) :
    (op.apply x).context.cursor = x.context.cursor := by
  obtain ⟨_, _, _, _, h⟩ := apply_frame op x
  rw [h]

@[simp] theorem apply_place (op : Operation) (x : Exchange) :
    (op.apply x).context.place = x.context.place := by
  obtain ⟨_, _, _, _, h⟩ := apply_frame op x
  rw [h]

@[simp] theorem apply_params (op : Operation) (x : Exchange) :
    (op.apply x).context.params = x.context.params := by
  obtain ⟨_, _, _, _, h⟩ := apply_frame op x
  rw [h]

@[simp] theorem apply_visits (op : Operation) (x : Exchange) :
    (op.apply x).visits = x.visits := by cases op <;> rfl

theorem apply_aborted {x : Exchange} (h : x.context.aborted = true) (op : Operation) :
    (op.apply x).context.aborted = true := by
  cases op with
  | abort s =>
    obtain ⟨_, ha⟩ := x.context.abort_frame s
    exact congrArg Context.aborted ha
  | abortWith s body =>
    obtain ⟨_, _, ha⟩ := x.context.abortWith_frame s body
    exact congrArg Context.aborted ha
  | skip => rfl
  | _ => exact h

theorem after_of_none {op : Operation} (h : op.panic? = none) (rest : Program) :
    op.after rest = rest := by rw [after, h, Option.elim_none]

theorem after_of_some {op : Operation} {p : Payload} (h : op.panic? = some p) (rest : Program) :
    op.after rest = .panic p := by rw [after, h, Option.elim_some]

theorem after_keeps {Q : Program → Prop} {op : Operation} {rest : Program} (h : Q rest)
    (panics : ∀ p, op.panic? = some p → Q (.panic p)) : Q (op.after rest) := by
  cases hp : op.panic? with
  | none => exact (after_of_none hp rest).symm ▸ h
  | some p => exact (after_of_some hp rest).symm ▸ panics p hp

/-- An operation that does not keep the later handlers from running, by a panic or otherwise. -/
def Quiet : Operation → Prop
  | abort _ => False
  | abortWith .. => False
  | skip => False
  | render _ r => r.mistyped = false
  | _ => True

theorem Quiet.after_eq {op : Operation} (h : op.Quiet) (rest : Program) : op.after rest = rest := by
  have hpanic : op.panic? = none := by
    cases op with
    | render s r => exact if_neg (by simp [show r.mistyped = false from h])
    | _ => rfl
  exact after_of_none hpanic rest

theorem Quiet.apply_aborted {op : Operation} (h : op.Quiet) (x : Exchange) :
    (op.apply x).context.aborted = x.context.aborted := by
  cases op with
  | abort s => exact h.elim
  | abortWith s body => exact h.elim
  | skip => exact h.elim
  | _ => rfl

theorem apply_abort_of_aborted {x : Exchange} (h : x.context.aborted = true) (s : Status) :
    (abort s).apply x = x := by
  simp [apply, Exchange.mapContext, Context.abort_of_aborted h]

theorem apply_abortWith_of_aborted {x : Exchange} (h : x.context.aborted = true) (s : Status)
    (body : Json) : (abortWith s body).apply x = x := by
  simp [apply, Exchange.update, Context.abortWith_of_aborted h]

end Operation

end Gateway
