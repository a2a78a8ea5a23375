import Gateway.Text.Split

/-! Route patterns: exact texts, and templates of characters and named tokens. A template
matches the end of a path, and its start too when it is anchored. -/

namespace Gateway

/-- A template of the kind `priority` is tried before one of the kind `generic`. -/
inductive PatternKind where
  | exact
  | priority
  | generic
deriving DecidableEq, Repr

def PatternKind.text : PatternKind → String
  | exact => "exact"
  | priority => "prefix"
  | generic => "generic"

/-- A literal character, or a token that stands for any text without a line feed. -/
inductive Piece where
  | char (c : Char)
  | token (name : List Char)
deriving DecidableEq, Repr

structure Template where
  anchored : Bool
  pieces : List Piece
deriving DecidableEq, Repr

namespace Template

def isNameChar (c : Char) : Bool := c.isAlphanum || c == '_'

/-- A colon or star before a name starts a token; one without a name is a colon. -/
def readPieces : List Char → List Piece
  | [] => []
  | c :: cs =>
    if c = ':' ∨ c = '*' then
      if (cs.takeWhile isNameChar).isEmpty then .char ':' :: readPieces cs
      else .token (cs.takeWhile isNameChar) :: readPieces (cs.dropWhile isNameChar)
    else .char c :: readPieces cs
termination_by cs => cs.length
decreasing_by
  all_goals simp only [List.length_cons]
  · omega
  · have := (List.dropWhile_sublist (l := cs) isNameChar).length_le; omega
  · omega

/-- A caret at the start anchors the template and is not part of it. -/
def ofText : List Char → Template
  | '^' :: cs => ⟨true, readPieces cs⟩
  | cs => ⟨false, readPieces cs⟩

def names (t : Template) : List (List Char) :=
  t.pieces.filterMap fun | .token n => some n | .char _ => none

/-- The shortest part of a text after which `rest` succeeds, in front of what `rest` captures.
The part has no line feed. -/
def lazily (rest : List Char → Option (List (List Char))) :
    List Char → Option (List (List Char))
  | [] => (rest []).map ([] :: ·)
  | c :: cs =>
    match rest (c :: cs) with
    | some captures => some ([] :: captures)
    | none =>
      if c = '\n' then none
      else
        match lazily rest cs with
        | some (first :: captures) => some ((c :: first) :: captures)
        | _ => none

/-- The texts of the tokens when the pieces make up the whole text, each token as short as
possible, the ones before it first. -/
def capture : List Piece → List Char → Option (List (List Char))
  | [], s => if s.isEmpty then some [] else none
  | .char c :: ps, s =>
    match s with
    | [] => none
    | d :: ds => if c = d then capture ps ds else none
  | .token _ :: ps, s => lazily (capture ps) s

/-- The number of characters before the first match, and the texts of its tokens. -/
def search (ps : List Piece) : List Char → Option (Nat × List (List Char))
  | [] => (capture ps []).map fun c => (0, c)
  | c :: cs =>
    match capture ps (c :: cs) with
    | some captures => some (0, captures)
    | none => (search ps cs).map fun (n, captures) => (n + 1, captures)

def find? (t : Template) (path : List Char) : Option (Nat × List (List Char)) :=
  if t.anchored then (capture t.pieces path).map fun c => (0, c) else search t.pieces path

def isSpecial (c : Char) : Bool := "\\.+*?()|[]\x7b\x7d^$#&-~".toList.contains c

def escape (c : Char) : List Char := if isSpecial c then ['\\', c] else [c]

/-- The escaped form of the template, tokens written with a colon. -/
def escaped (t : Template) : List Char :=
  (if t.anchored then ['^'] else []) ++ t.pieces.flatMap fun
    | .char c => escape c
    | .token n => ':' :: n

def expression (t : Template) : List Char :=
  (if t.anchored then ['^'] else []) ++ (t.pieces.flatMap fun
    | .char c => escape c
    | .token _ => "(.*?)".toList) ++ ['$']

end Template

/-- The text of a pattern is kept without its marker. -/
inductive Pattern where
  | exact (text : String)
  | template (priority : Bool) (text : String) (template : Template)
deriving DecidableEq, Repr

namespace Pattern

def exactMarker : String := "= "
def priorityMarker : String := "~ "

def splitMarker (pattern : List Char) : String × List Char :=
  match pattern with
  | '=' :: ' ' :: rest => (exactMarker, rest)
  | '~' :: ' ' :: rest => (priorityMarker, rest)
  | rest => ("", rest)

def ofText (pattern : String) : Pattern :=
  match pattern.toList with
  | '=' :: ' ' :: rest => .exact (String.ofList rest)
  | '~' :: ' ' :: rest => .template true (String.ofList rest) (.ofText rest)
  | rest => .template false pattern (.ofText rest)

def kind : Pattern → PatternKind
  | .exact _ => .exact
  | .template true .. => .priority
  | .template false .. => .generic

def text : Pattern → String
  | .exact s => s
  | .template _ s _ => s

def escaped : Pattern → String
  | .exact s => s
  | .template _ _ t => String.ofList t.escaped

def expression? : Pattern → Option String
  | .exact _ => none
  | .template _ _ t => some (String.ofList t.expression)

def names : Pattern → List String
  | .exact _ => []
  | .template _ _ t => t.names.map String.ofList

end Pattern

end Gateway
