import Gateway.Route.Pattern

/-! Canonical paths, and patterns below a group. -/

namespace Gateway.Path

/-- The segments that are left when `.` and empty segments are dropped and `..` takes back the
segment before it; the last one is first. -/
def resolve (segments : List (List Char)) : List (List Char) :=
  segments.foldl (fun kept s =>
    if s = [] ∨ s = ['.'] then kept
    else if s = ['.', '.'] then kept.tail
    else s :: kept) []

def render (segments : List (List Char)) : List Char :=
  '/' :: ['/'].intercalate segments

def endsWithSlash (path : List Char) : Bool := path.getLast? == some '/'

/-- The absolute path without `.`, `..` and empty segments; a slash at the end stays. -/
def cleanChars (path : List Char) : List Char :=
  let cleaned := render (resolve (Text.pieces '/' path)).reverse
  if endsWithSlash path && 1 < cleaned.length then cleaned ++ ['/'] else cleaned

def clean (path : String) : String := String.ofList (cleanChars path.toList)

/-- A pattern below `base`. Its marker and caret stay in front, a slash at its end stays, and an
empty one is `base` itself. -/
def join (base relative : String) : String :=
  let (marker, rest) := Pattern.splitMarker relative.toList
  if rest.isEmpty then marker ++ base
  else
    let (caret, rest) := match rest with
      | '^' :: r => ("^", r)
      | r => ("", r)
    let joined := cleanChars (base.toList ++ '/' :: rest)
    let joined := if endsWithSlash rest && !endsWithSlash joined then joined ++ ['/'] else joined
    marker ++ caret ++ String.ofList joined

end Gateway.Path
