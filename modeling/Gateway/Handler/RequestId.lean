import Gateway.Exchange.Program
import Gateway.Text.Hex

/-! An id for each request, taken from the request or made anew, and given to the later handlers
and to the client. -/

namespace Gateway.RequestId

/-- Where new ids come from: random ones, the same text each time, or texts that follow from the
number of ids made before. -/
inductive Generator where
  | random
  | fixed (id : String)
  | counted (id : Nat → String)

/-- The id of number `n`: 32 digits in which a step to the next number changes most. -/
def idOfNumber (n : Nat) : String :=
  let mixed := (n + 1) * 0x9E3779B97F4A7C15F39CC0605CEDC835
  String.ofList (Hex.padded 32 (mixed % 0x100000000000000000000000000000000))

def Generator.next (ids : Nat) : Generator → String
  | random => idOfNumber ids
  | fixed id => id
  | counted id => id ids

def install (id : HeaderValue) : Program :=
  .act (.setRequestHeader "x-request-id" id) <|
  .act (.setHeader "x-request-id" id) <| .next .done

def countId (w : World) : World := { w with ids := w.ids + 1 }

/-- An id that cannot be sent is logged, and the request goes on without. -/
def program (g : Generator) : Program :=
  .consult fun x =>
    let inbound := x.context.request.headers.text "x-request-id"
    if !inbound.isEmpty then install (.ofText inbound)
    else
      .act (.outside countId) <|
        match HeaderValue.ofText? (g.next x.world.ids) with
        | some id => install id
        | none => .act (.emit (.requestIdRefused HeaderValue.refusal)) (.next .done)

def handler (g : Generator) : Handler := ⟨"request_id", program g⟩

end Gateway.RequestId
