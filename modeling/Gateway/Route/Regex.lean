import Gateway.Route.Pattern

/-! Regular expressions of characters, lazy groups and anchors, and what a matcher finds with them
that tries the places of a text from the left and the choices of a group from the shortest. -/

namespace Gateway

/-- A group captures any text without a line feed, as short as possible. -/
inductive Regex.Atom where
  | char (c : Char)
  | group
  | start
  | stop
deriving DecidableEq, Repr

abbrev Regex := List Regex.Atom

namespace Regex

/-- Reads the source of an expression; `none` when there is other syntax in it. -/
def parse? : List Char → Option Regex
  | [] => some []
  | '^' :: cs => (parse? cs).map (.start :: ·)
  | '$' :: cs => (parse? cs).map (.stop :: ·)
  | '(' :: '.' :: '*' :: '?' :: ')' :: cs => (parse? cs).map (.group :: ·)
  | '\\' :: c :: cs =>
    if Template.isSpecial c then (parse? cs).map (.char c :: ·) else none
  | c :: cs => if Template.isSpecial c then none else (parse? cs).map (.char c :: ·)

def groups (e : Regex) : Nat := e.count .group

/-- What a group can take in front of a text and what it leaves, the shortest part first. -/
def splits : List Char → List (List Char × List Char)
  | [] => [([], [])]
  | c :: cs =>
    ([], c :: cs) :: if c = '\n' then [] else (splits cs).map fun (v, rest) => (c :: v, rest)

/-- The texts of the groups for every way to match in front of a text, the preferred one first.
Nothing of the whole text stands before this part of it when `front` holds. -/
def ways : Regex → (front : Bool) → List Char → List (List (List Char))
  | [], _, _ => [[]]
  | .char c :: e, _, s =>
    match s with
    | [] => []
    | d :: ds => if c = d then ways e false ds else []
  | .group :: e, front, s =>
    (splits s).flatMap fun (v, rest) => (ways e (front && v.isEmpty) rest).map (v :: ·)
  | .start :: e, front, s => if front then ways e front s else []
  | .stop :: e, front, s => if s.isEmpty then ways e front s else []

/-- All matches in a text, each with the number of characters before it; one that starts earlier is
preferred. -/
def occurrences (e : Regex) (s : List Char) : List (Nat × List (List Char)) :=
  (List.range (s.length + 1)).flatMap fun n => (ways e (n == 0) (s.drop n)).map (n, ·)

def search? (e : Regex) (s : List Char) : Option (Nat × List (List Char)) := (occurrences e s).head?

end Regex

end Gateway
