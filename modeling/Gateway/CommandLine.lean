import Gateway.Startup

/-! The command line: which configuration to use, and whether only to check it. -/

namespace Gateway.CommandLine

structure Options where
  config : Option String := none
  check : Bool := false
deriving DecidableEq, Repr, Inhabited

inductive Refusal where
  | missingValue (option : String)
  | unexpected (argument : String)
deriving DecidableEq, Repr

def Refusal.message : Refusal → String
  | missingValue option => "a value is required for '" ++ option ++ "' but none was supplied"
  | unexpected argument => "unexpected argument '" ++ argument ++ "' found"

def parse (o : Options) : List String → Except Refusal Options
  | [] => .ok o
  | "--check" :: rest => parse { o with check := true } rest
  | [arg] =>
    if arg = "--config" ∨ arg = "-c" then .error (.missingValue arg) else .error (.unexpected arg)
  | arg :: value :: rest =>
    if arg = "--config" ∨ arg = "-c" then parse { o with config := some value } rest
    else .error (.unexpected arg)

def padded (width : Nat) (s : String) : String := s ++ String.ofList (List.replicate (width - s.length) ' ')

def routeTable (routes : List RouteInfo) : List String :=
  routes.map fun r => padded 8 r.method ++ " " ++ padded 40 r.path ++ " " ++ r.handlerName

end Gateway.CommandLine
