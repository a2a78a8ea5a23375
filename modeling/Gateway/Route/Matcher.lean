import Gateway.Route.Pattern
import Gateway.Text.Utf8

/-! Looking up the best pattern for a path: exact patterns first, then the templates with
priority, then the others. -/

namespace Gateway

abbrev Params := List (String × String)

namespace Params

def get? (ps : Params) (name : String) : Option String := (ps.find? (·.1 == name)).map (·.2)

def value (ps : Params) (name : String) : String := (ps.get? name).getD ""

def values (ps : Params) : List String := ps.map (·.2)

end Params

/-- A pattern of a table that matches a path, with its place in the table. -/
structure Hit where
  index : Nat
  params : Params
  pattern : String
deriving DecidableEq, Repr

/-- What makes one template better than another, compared from the left: it is the literal path,
it has more tokens, it is longer. -/
structure Rank where
  literal : Bool
  tokens : Nat
  size : Nat
deriving DecidableEq, Repr

namespace Rank

def lt (a b : Rank) : Bool :=
  (!a.literal && b.literal) ||
    (a.literal == b.literal && (a.tokens < b.tokens || (a.tokens == b.tokens && a.size < b.size)))

end Rank

structure Candidate where
  index : Nat
  rank : Rank
  text : String
  names : List (List Char)
  captures : List (List Char)
deriving Repr

namespace Candidate

def ofMatch (index : Nat) (text : String) (t : Template) (start : Nat)
    (captures : List (List Char)) : Candidate where
  index
  rank :=
    { literal := captures.isEmpty && start == 0
      tokens := captures.length
      size := (Utf8.encode (String.ofList t.escaped)).length }
  text
  names := t.names
  captures

/-- A template whose last token is empty does not serve the path. -/
def ofTemplate? (index : Nat) (text : String) (t : Template) (path : List Char) :
    Option Candidate :=
  match t.find? path with
  | none => none
  | some (start, captures) =>
    if captures.getLast? = some [] then none else some (ofMatch index text t start captures)

/-- One slash at the end of a captured text is not part of the value. -/
def withoutSlash (s : List Char) : List Char :=
  if s.getLast? = some '/' then s.dropLast else s

def hit (c : Candidate) : Hit where
  index := c.index
  params := (c.names.zip c.captures).map fun (n, v) =>
    (String.ofList n, String.ofList (withoutSlash v))
  pattern := c.text

/-- The better of two candidates, the first one unless the second ranks higher. -/
def better (a b : Candidate) : Candidate := if a.rank.lt b.rank then b else a

def best? : List Candidate → Option Candidate
  | [] => none
  | c :: cs => some (cs.foldl better c)

end Candidate

/-- Patterns in the order of registration, each with its index. -/
structure Matcher where
  patterns : List (Nat × Pattern)
deriving DecidableEq, Repr

namespace Matcher

def build (patterns : List String) : Matcher :=
  ⟨(patterns.map Pattern.ofText).zipIdx.map fun (p, i) => (i, p)⟩

def size (m : Matcher) : Nat := m.patterns.length

def sameText (a b : String) : Bool := a.toLower == b.toLower

def exactHitAt? (path : String) : Nat × Pattern → Option Hit
  | (i, .exact s) => if sameText s path then some ⟨i, [], s⟩ else none
  | (_, .template ..) => none

def exactHit? (m : Matcher) (path : String) : Option Hit := m.patterns.findSome? (exactHitAt? path)

def candidateAt? (priority : Bool) (path : String) : Nat × Pattern → Option Candidate
  | (i, .template p s t) =>
    if p = priority then Candidate.ofTemplate? i s t path.toList else none
  | (_, .exact _) => none

def candidates (m : Matcher) (priority : Bool) (path : String) : List Candidate :=
  m.patterns.filterMap (candidateAt? priority path)

def find? (m : Matcher) (path : String) : Option Hit :=
  match m.exactHit? path with
  | some hit => some hit
  | none =>
    match Candidate.best? (m.candidates true path) with
    | some c => some c.hit
    | none => (Candidate.best? (m.candidates false path)).map Candidate.hit

end Matcher

end Gateway
