import Gateway.Exchange.Program

/-! Handlers that hand the request to a service and relay its answer. -/

namespace Gateway.Service

/-- The service gets the whole request, whose body is gone afterwards; `before` may look at it
first. -/
def program (service : Request → Response) (before : Request → Program → Program) : Program :=
  .consult fun x =>
    .act .takeBody <| before x.context.request <|
      .act (.writeResponse (service x.context.request)) .done

end Gateway.Service
