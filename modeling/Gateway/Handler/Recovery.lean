import Gateway.Exchange.Program

/-! A panic of the rest of the chain becomes an answer with its message. -/

namespace Gateway.Recovery

def body (p : Payload) : StatusBody := { code := .internalServerError, message := p.message }

/-- The payload is dropped last. -/
def release (p : Payload) : Program := p.dropped?.elim .done .panic

theorem release_of_none {p : Payload} (h : p.dropped? = none) : release p = .done := by
  rw [release, h]
  rfl

def rescue : Interruption → Program
  | .panic p => .consult fun x =>
    .act (.emit (.handlerPanicked p.message x.context.request.uri.path)) <|
    .act (.abortWith .internalServerError (body p).toJson) <| release p
  | .dropped => .interrupt .dropped

def handler : Handler := ⟨"recovery", .attempt rescue .done⟩

end Gateway.Recovery
