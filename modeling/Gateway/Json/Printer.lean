import Gateway.Json
import Gateway.Text.Hex

/-! The text of a value, on one line or indented. -/

namespace Gateway.Json

def escapeChar (c : Char) : List Char :=
  if c = '"' then ['\\', '"']
  else if c = '\\' then ['\\', '\\']
  else if c = '\n' then ['\\', 'n']
  else if c = '\r' then ['\\', 'r']
  else if c = '\t' then ['\\', 't']
  else if c.toNat = 8 then ['\\', 'b']
  else if c.toNat = 12 then ['\\', 'f']
  else if c.toNat < 0x20 then ['\\', 'u'] ++ Hex.padded 4 c.toNat
  else [c]

def printString (s : String) : List Char :=
  ['"'] ++ s.toList.flatMap escapeChar ++ ['"']

/-- A number that has no decimal text is null. -/
def printNumber : Number → List Char
  | .int i => (toString i).toList
  | .real x => (x.text?.getD "null").toList

def separated (comma : List Char) : List (List Char) → List Char
  | [] => []
  | [p] => p
  | p :: ps => p ++ comma ++ separated comma ps

mutual

def print : Json → List Char
  | .null => ['n', 'u', 'l', 'l']
  | .bool b => (toString b).toList
  | .num n => printNumber n
  | .str s => printString s
  | .arr items => ['['] ++ separated [','] (printItems items) ++ [']']
  | .obj fields => ['\x7b'] ++ separated [','] (printFields fields) ++ ['\x7d']

def printItems : List Json → List (List Char)
  | [] => []
  | v :: vs => print v :: printItems vs

def printFields : List (String × Json) → List (List Char)
  | [] => []
  | (n, v) :: rest => (printString n ++ [':'] ++ print v) :: printFields rest

end

def compact (v : Json) : String := String.ofList (print v)

mutual

/-- Every item of a non-empty list or object stands on a line of its own. -/
def printIndented (indent : List Char) (depth : Nat) : Json → List Char
  | .arr items =>
    if items.isEmpty then ['[', ']']
    else ['['] ++ separated [','] (indentItems indent (depth + 1) items) ++
      newline indent depth ++ [']']
  | .obj fields =>
    if fields.isEmpty then ['\x7b', '\x7d']
    else ['\x7b'] ++ separated [','] (indentFields indent (depth + 1) fields) ++
      newline indent depth ++ ['\x7d']
  | v => print v

def indentItems (indent : List Char) (depth : Nat) : List Json → List (List Char)
  | [] => []
  | v :: vs =>
    (newline indent depth ++ printIndented indent depth v) :: indentItems indent depth vs

def indentFields (indent : List Char) (depth : Nat) : List (String × Json) → List (List Char)
  | [] => []
  | (n, v) :: rest =>
    (newline indent depth ++ printString n ++ [':', ' '] ++ printIndented indent depth v) ::
      indentFields indent depth rest

def newline (indent : List Char) (depth : Nat) : List Char :=
  '\n' :: (List.replicate depth indent).flatten

end

def pretty (indent : String) (v : Json) : String :=
  String.ofList (printIndented indent.toList 0 v)

end Gateway.Json
