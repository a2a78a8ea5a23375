import Gateway.Balance.Target
import Gateway.Json

/-! Values that handlers keep for one another during a request, each under a name and with a type
of its own. -/

namespace Gateway

inductive Stored where
  | text (value : String)
  | flag (value : Bool)
  | integer (value : Int)
  | json (value : Json)
  | target (value : Target)
  | claims (value : Fields)
deriving Repr

/-- The types of values. -/
inductive Stored.Kind where
  | text
  | flag
  | integer
  | json
  | target
  | claims
deriving DecidableEq, Repr

def Stored.kind : Stored → Kind
  | text _ => .text
  | flag _ => .flag
  | integer _ => .integer
  | json _ => .json
  | target _ => .target
  | claims _ => .claims

/-- Named values, each name once. -/
structure Values where
  entries : List (String × Stored) := []
deriving Repr, Inhabited

namespace Values

def get? (vs : Values) (name : String) : Option Stored :=
  (vs.entries.find? (·.1 == name)).map (·.2)

/-- A value of another type counts as none. -/
def getOf? (vs : Values) (kind : Stored.Kind) (name : String) : Option Stored :=
  (vs.get? name).filter (·.kind == kind)

def contains (vs : Values) (name : String) : Bool := (vs.get? name).isSome

def remove (vs : Values) (name : String) : Values := ⟨vs.entries.filter (·.1 != name)⟩

def set (vs : Values) (name : String) (value : Stored) : Values :=
  ⟨(name, value) :: (vs.remove name).entries⟩

def size (vs : Values) : Nat := vs.entries.length

def claims? (vs : Values) (name : String) : Option Fields :=
  match vs.get? name with
  | some (.claims c) => some c
  | _ => none

end Values

end Gateway
