import Gateway.Proofs.Exchange.Operation
import Gateway.Proofs.Http.Rendering

/-! The fields of one name, in a request and in its response. An operation that does not name them
leaves those of the request alone, and adds to the response no others than those of a response that
it relays. -/

namespace Gateway

namespace Operation

variable {name : HeaderName}

def SparesRequest (name : HeaderName) : Operation → Prop
  | setRequestHeader n _ => n ≠ name
  | editRequest f => ∀ r, (f r).headers.getAll name = r.headers.getAll name
  | _ => True

def SparesResponse (name : HeaderName) : Operation → Prop
  | setHeader n _ => n ≠ name
  | appendHeader n _ => n ≠ name
  | resetWriter => False
  | _ => True

def relayed : Operation → List Response
  | writeResponse r => [r]
  | _ => []

theorem SparesRequest.getAll_apply {op : Operation} (h : op.SparesRequest name) (x : Exchange) :
    (op.apply x).context.request.headers.getAll name =
      x.context.request.headers.getAll name := by
  cases op with
  | setRequestHeader n v => exact (Headers.getAll_insert _ n name v).trans (if_neg h)
  | editRequest f => exact h _
  | abort s =>
    obtain ⟨_, ha⟩ := x.context.abort_frame s
    exact congrArg (·.request.headers.getAll name) ha
  | abortWith s body =>
    obtain ⟨_, _, ha⟩ := x.context.abortWith_frame s body
    exact congrArg (·.request.headers.getAll name) ha
  | _ => rfl

theorem SparesResponse.getAll_apply (content : name ≠ "content-type") (location : name ≠ "location")
    {op : Operation} (h : op.SparesResponse name) (x : Exchange) :
    (op.apply x).context.writer.headers.getAll name =
      x.context.writer.headers.getAll name ++ op.relayed.flatMap (·.headers.getAll name) := by
  have hkept : x.context.writer.headers.getAll name =
      x.context.writer.headers.getAll name ++ [] := (List.append_nil _).symm
  cases op with
  | setHeader n v =>
    exact ((Headers.getAll_insert _ n name v).trans (if_neg h)).trans hkept
  | appendHeader n v =>
    exact (Headers.getAll_append _ n name v).trans (congrArg _ (if_neg h))
  | resetWriter => exact h.elim
  | writeResponse r =>
    exact (Headers.getAll_appendAll _ _ name).trans (congrArg _ (List.flatMap_singleton ..).symm)
  | write chunk => exact (congrArg (·.getAll name) (Writer.headers_write _ chunk)).trans hkept
  | render s r => exact (r.getAll_fill s _ location content).trans hkept
  | abort s =>
    simp only [apply, Exchange.mapContext, Context.abort]
    split <;> exact hkept
  | abortWith s body =>
    simp only [apply, Exchange.update, Context.abortWith, Context.abortRendering]
    split
    · exact hkept
    · exact ((Render.json body).getAll_fill s _ location content).trans hkept
  | _ => exact hkept

end Operation

end Gateway
