import Gateway.Exchange.Program

/-! Handlers given as lists of actions, which report what they see. -/

namespace Gateway

/-- One action of a script. `note` reports what it reads under the action's name, `hold` keeps a
handle on the values in place of the one kept before, and `keep` writes through it. -/
inductive Action where
  | next
  | panic (payload : Payload)
  | act (op : Operation)
  | note (name : String) (read : Exchange → Json)
  | hold
  | release
  | keep (name : String) (value : Stored)

namespace Action

def observe (o : Observation) (w : World) : World :=
  { w with observations := w.observations ++ [o] }

def setKept (kept : Option Nat) (w : World) : World := { w with kept }

def releaseKept (rest : Program) : Program :=
  .consult fun x =>
    match x.world.kept with
    | none => rest
    | some i => .act (.dropHandle i) <| .act (.outside (setKept none)) rest

def holdValues (rest : Program) : Program :=
  .consult fun x =>
    .act .holdValues <| .act (.outside (setKept (some x.shelf.handles.length))) rest

def program (handler : String) (rest : Program) : Action → Program
  | next => .next rest
  | panic p => .panic p
  | act op => .act op rest
  | note name read => .consult fun x => .act (.outside (observe ⟨handler, name, read x⟩)) rest
  | hold => releaseKept (holdValues rest)
  | release => releaseKept rest
  | keep name value => .consult fun x =>
    match x.world.kept with
    | none => rest
    | some i => .act (.setHeld i name value) rest

end Action

namespace Script

def program (handler : String) (actions : List Action) : Program :=
  actions.foldr (fun a rest => a.program handler rest) .done

def handler (name : String) (actions : List Action) : Handler := ⟨name, program name actions⟩

end Script

end Gateway
