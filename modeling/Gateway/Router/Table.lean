import Gateway.Exchange.Program
import Gateway.Route.Matcher

/-! The routes of one method. -/

namespace Gateway

/-- Patterns and chains at equal places, and the matcher of the patterns. -/
structure Table where
  patterns : List String := []
  chains : List Chain := []
  matcher : Matcher := Matcher.build []

namespace Table

/-- The matcher is built anew with every route. -/
def add (t : Table) (pattern : String) (chain : Chain) : Table where
  patterns := t.patterns ++ [pattern]
  chains := t.chains ++ [chain]
  matcher := Matcher.build (t.patterns ++ [pattern])

def find? (t : Table) (path : String) : Option (Chain × String × Hit) := do
  let hit ← t.matcher.find? path
  let chain ← t.chains[hit.index]?
  let pattern ← t.patterns[hit.index]?
  return (chain, pattern, hit)

end Table

abbrev Tables := List (Method × Table)

namespace Tables

def get? (ts : Tables) (m : Method) : Option Table := (ts.find? (·.1 == m)).map (·.2)

def put (m : Method) (t : Table) : Tables → Tables
  | [] => [(m, t)]
  | (n, u) :: rest => if n = m then (m, t) :: rest else (n, u) :: put m t rest

def add (ts : Tables) (m : Method) (pattern : String) (chain : Chain) : Tables :=
  put m (((ts.get? m).getD {}).add pattern chain) ts

def servesOther (ts : Tables) (m : Method) (path : String) : Bool :=
  ts.any fun (n, t) => n != m && (t.matcher.find? path).isSome

end Tables

end Gateway
