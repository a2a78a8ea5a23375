import Gateway.Number.Shortest

/-! Values of a data format: null, booleans, numbers, text, lists and fields. -/

namespace Gateway

inductive Number where
  | int (value : Int)
  | real (value : Binary64)
deriving DecidableEq, Repr

def Number.toReal : Number → Binary64
  | .int i => .ofInt i
  | .real x => x

/-- The fields of an object are in the order in which they are printed. -/
inductive Json where
  | null
  | bool (value : Bool)
  | num (value : Number)
  | str (text : String)
  | arr (items : List Json)
  | obj (fields : List (String × Json))
deriving Repr, Inhabited

/-- Field lists in ascending order of the names, each name once. -/
abbrev Fields := List (String × Json)

namespace Fields

def insert (name : String) (value : Json) : Fields → Fields
  | [] => [(name, value)]
  | (n, v) :: rest =>
    if name < n then (name, value) :: (n, v) :: rest
    else if name = n then (name, value) :: rest
    else (n, v) :: insert name value rest

def ofList (fields : List (String × Json)) : Fields :=
  fields.foldl (fun out (n, v) => insert n v out) []

def get? (fields : Fields) (name : String) : Option Json :=
  (fields.find? (·.1 == name)).map (·.2)

end Fields

namespace Json

def ofNat (n : Nat) : Json := .num (.int n)

def ofFields (fields : List (String × Json)) : Json := .obj (Fields.ofList fields)

def ofOption : Option Json → Json
  | none => .null
  | some v => v

def field? : Json → String → Option Json
  | .obj fields, name => Fields.get? fields name
  | _, _ => none

def text? : Json → Option String
  | .str s => some s
  | _ => none

def real? : Json → Option Binary64
  | .num n => some n.toReal
  | _ => none

end Json

end Gateway
