/-! What keeps code from returning: a panic, or that nobody waits for it any longer. -/

namespace Gateway

/-- What a panic carries: a message, or a value of another type. Dropping such a value may be a panic
in turn. -/
inductive Payload where
  | text (message : String)
  | other
  | raising (next : Payload)
deriving DecidableEq, Repr

namespace Payload

def message : Payload → String
  | text m => m
  | _ => "panic"

def dropped? : Payload → Option Payload
  | raising p => some p
  | _ => none

end Payload

/-- A handler is thrown out by a panic, or it gets no further and is dropped by one that called it. -/
inductive Interruption where
  | panic (payload : Payload)
  | dropped
deriving DecidableEq, Repr

/-- An error that was recorded. Displaying it gives a text or is a panic. -/
inductive Report where
  | text (message : String)
  | broken (payload : Payload)
deriving DecidableEq, Repr

def Report.display : Report → Except Payload String
  | text m => .ok m
  | broken p => .error p

end Gateway
