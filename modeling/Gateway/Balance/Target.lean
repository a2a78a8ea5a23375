import Gateway.Number.Binary64
import Gateway.Url

/-! Backends to which requests are forwarded, and the sets that balancers choose from. -/

namespace Gateway

/-- The name is unique in a set, and only weighted balancers look at the weight. -/
structure Target where
  name : String
  url : Url
  weight : Option Binary64 := none
deriving DecidableEq, Repr

namespace Target

def ofText (name url : String) (weight : Option Binary64) : Except UrlError Target :=
  (Url.parse url).map fun url => { name, url, weight }

def text (t : Target) : String := t.name ++ " (" ++ t.url.text ++ ")"

end Target

structure TargetSet where
  targets : List Target := []
deriving DecidableEq, Repr, Inhabited

namespace TargetSet

def names (s : TargetSet) : List String := s.targets.map (·.name)

def size (s : TargetSet) : Nat := s.targets.length

/-- A target whose name is taken is refused. -/
def add (s : TargetSet) (t : Target) : TargetSet × Bool :=
  if s.names.contains t.name then (s, false) else (⟨s.targets ++ [t]⟩, true)

def remove (s : TargetSet) (name : String) : TargetSet × Bool :=
  (⟨s.targets.filter (·.name != name)⟩, s.names.contains name)

end TargetSet

end Gateway
