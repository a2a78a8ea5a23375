import Gateway.Json.Parser
import Gateway.Text.Split

/-! Values of configuration files: strings, numbers, booleans, dates, arrays and inline tables. A
date is an object with one reserved field. -/

namespace Gateway.Toml

/-- A table while a document is read. It is implicit until a header names it, and `dotted` when a
dotted key made it. -/
inductive Node where
  | leaf (value : Json)
  | table (implicit dotted : Bool) (entries : List (String × Node))
  | tables (items : List (List (String × Node)))
deriving Inhabited

abbrev Entries := List (String × Node)

mutual

def Node.toJson : Node → Json
  | .leaf v => v
  | .table _ _ entries => .ofFields (entriesToJson entries)
  | .tables items => .arr (itemsToJson items)

def entriesToJson : List (String × Node) → List (String × Json)
  | [] => []
  | (n, v) :: rest => (n, v.toJson) :: entriesToJson rest

def itemsToJson : List (List (String × Node)) → List Json
  | [] => []
  | e :: rest => .ofFields (entriesToJson e) :: itemsToJson rest

end

namespace Entries

def get? (es : Entries) (key : String) : Option Node := (es.find? (·.1 == key)).map (·.2)

def put (es : Entries) (key : String) (node : Node) : Entries :=
  if es.any (·.1 == key) then es.map fun (k, v) => if k = key then (k, node) else (k, v)
  else es ++ [(key, node)]

/-- Sets a value below the dotted keys of a pair. No header may have opened the tables on the way;
the table that takes the value is made by a dotted key, which `dotted` says of `es`. -/
def setBelow (v : Node) : (dotted : Bool) → (keys : List String) → Entries → Option Entries
  | _, [], _ => none
  | dotted, [key], es =>
    if dotted && !es.any (·.1 == key) then some (es ++ [(key, v)]) else none
  | _, key :: k :: keys, es =>
    match get? es key with
    | none => (setBelow v true (k :: keys) []).map fun sub => es ++ [(key, .table true true sub)]
    | some (.table true dotted sub) =>
      (setBelow v dotted (k :: keys) sub).map fun sub => put es key (.table true dotted sub)
    | some (.tables items) =>
      match items.getLast? with
      | none => none
      | some last =>
        (setBelow v false (k :: keys) last).map fun last =>
          put es key (.tables (items.dropLast ++ [last]))
    | _ => none

def set (v : Node) : (keys : List String) → Entries → Option Entries
  | [key], es => if es.any (·.1 == key) then none else some (es ++ [(key, v)])
  | keys, es => setBelow v false keys es

/-- Applies `f` to the table that a header's keys lead to; missing tables are made, and an array
of tables stands for its last one. -/
def descend (f : Entries → Option Entries) : (keys : List String) → Entries → Option Entries
  | [], es => f es
  | key :: keys, es =>
    match get? es key with
    | none => (descend f keys []).map fun sub => es ++ [(key, .table true false sub)]
    | some (.table implicit dotted sub) =>
      (descend f keys sub).map fun sub => put es key (.table implicit dotted sub)
    | some (.tables items) =>
      match items.getLast? with
      | none => none
      | some last =>
        (descend f keys last).map fun last => put es key (.tables (items.dropLast ++ [last]))
    | some (.leaf _) => none

def openTable (key : String) (es : Entries) : Option Entries :=
  match get? es key with
  | none => some (es ++ [(key, .table false false [])])
  | some (.table true false sub) => some (put es key (.table false false sub))
  | _ => none

def openItem (key : String) (es : Entries) : Option Entries :=
  match get? es key with
  | none => some (es ++ [(key, .tables [[]])])
  | some (.tables items) => some (put es key (.tables (items ++ [[]])))
  | _ => none

end Entries

/-! ### Scalars -/

def isBlank (c : Char) : Bool := c == ' ' || c == '\t'

def skipBlank (s : List Char) : List Char := s.dropWhile isBlank

/-- Characters that may stand in comments and strings. -/
def isPlain (c : Char) : Bool := c == '\t' || (0x20 ≤ c.toNat && c.toNat != 0x7F)

def newline? : List Char → Option (List Char)
  | '\n' :: rest => some rest
  | '\r' :: '\n' :: rest => some rest
  | _ => none

/-- The text after a comment; `none` when it holds a control character. -/
def skipComment (s : List Char) : Option (List Char) :=
  match s with
  | '#' :: rest =>
    let after := rest.dropWhile isPlain
    match after with
    | [] => some []
    | _ => if (newline? after).isSome then some after else none
  | _ => some s

/-- Skips blanks, comments and line ends; `fuel` bounds the number of lines. -/
def skipLines : (fuel : Nat) → List Char → Option (List Char)
  | 0, _ => none
  | fuel + 1, s => do
    let s ← skipComment (skipBlank s)
    match newline? s with
    | some rest => skipLines fuel rest
    | none => some s

def hexEscape? (count : Nat) (s : List Char) : Option (Char × List Char) := do
  let digits := s.take count
  if digits.length < count then none
  let n ← digits.foldlM (fun n c => (Hex.value? c).map (n * 16 + ·)) 0
  if h : n.isValidChar then some (Char.ofNatAux n h, s.drop count) else none

def escape? : List Char → Option (Char × List Char)
  | 'b' :: r => some (Char.ofNat 8, r)
  | 't' :: r => some ('\t', r)
  | 'n' :: r => some ('\n', r)
  | 'f' :: r => some (Char.ofNat 12, r)
  | 'r' :: r => some ('\r', r)
  | '"' :: r => some ('"', r)
  | '\\' :: r => some ('\\', r)
  | 'u' :: r => hexEscape? 4 r
  | 'U' :: r => hexEscape? 8 r
  | _ => none

/-- A string on one line, after its opening quote. -/
def shortString (quote : Char) : (fuel : Nat) → List Char → (acc : List Char) →
    Option (String × List Char)
  | 0, _, _ => none
  | _ + 1, [], _ => none
  | fuel + 1, c :: rest, acc =>
    if c = quote then some (String.ofList acc.reverse, rest)
    else if c = '\\' ∧ quote = '"' then
      match escape? rest with
      | some (d, rest) => shortString quote fuel rest (d :: acc)
      | none => none
    else if isPlain c then shortString quote fuel rest (c :: acc)
    else none

def dropLineEnds : List Char → List Char
  | ' ' :: rest => dropLineEnds rest
  | '\t' :: rest => dropLineEnds rest
  | '\n' :: rest => dropLineEnds rest
  | '\r' :: '\n' :: rest => dropLineEnds rest
  | s => s

/-- What follows a backslash at the end of a line: blanks and line ends up to other text. -/
def lineContinuation? (s : List Char) : Option (List Char) :=
  (newline? (skipBlank s)).map dropLineEnds

/-- A string over several lines, after its opening quotes. -/
def longString (quote : Char) : (fuel : Nat) → List Char → (acc : List Char) →
    Option (String × List Char)
  | 0, _, _ => none
  | _ + 1, [], _ => none
  | fuel + 1, c :: rest, acc =>
    if c = quote then
      let quotes := (c :: rest).takeWhile (· == quote)
      if quotes.length < 3 then longString quote fuel rest (c :: acc)
      else if 5 < quotes.length then none
      else
        some (String.ofList (acc.reverse ++ List.replicate (quotes.length - 3) quote),
          (c :: rest).drop quotes.length)
    else if c = '\\' ∧ quote = '"' then
      match lineContinuation? rest with
      | some rest => longString quote fuel rest acc
      | none =>
        match escape? rest with
        | some (d, rest) => longString quote fuel rest (d :: acc)
        | none => none
    else
      match newline? (c :: rest) with
      | some rest => longString quote fuel rest ('\n' :: acc)
      | none => if isPlain c then longString quote fuel rest (c :: acc) else none

def string? (s : List Char) : Option (String × List Char) :=
  let long (quote : Char) (rest : List Char) :=
    longString quote (rest.length + 1) ((newline? rest).getD rest) []
  match s with
  | '"' :: '"' :: '"' :: rest => long '"' rest
  | '\'' :: '\'' :: '\'' :: rest => long '\'' rest
  | '"' :: rest => shortString '"' (rest.length + 1) rest []
  | '\'' :: rest => shortString '\'' (rest.length + 1) rest []
  | _ => none

/-- Digits with single underscores between them. -/
def digits? (isDigit : Char → Bool) (s : List Char) : Option (List Char) :=
  let parts := Text.pieces '_' s
  if parts.all fun p => !p.isEmpty && p.all isDigit then some parts.flatten else none

def splitSign : List Char → Bool × List Char
  | '-' :: r => (true, r)
  | '+' :: r => (false, r)
  | r => (false, r)

def inRange (i : Int) : Bool := -0x8000000000000000 ≤ i && i < 0x8000000000000000

/-- Decimal digits without needless zeros in front. -/
def decimal? (s : List Char) : Option Nat := do
  let ds ← digits? Char.isDigit s
  if 1 < ds.length && ds.head? == some '0' then none else some (Json.digitsValue ds)

def integer? (s : List Char) : Option Json :=
  let inRadix (radix : Nat) (r : List Char) : Option Int := do
    let ds ← digits? (fun c => (Hex.value? c).any (· < radix)) r
    return (ds.foldl (fun n c => n * radix + (Hex.value? c).getD 0) 0 : Nat)
  let value : Option Int :=
    match s with
    | '0' :: 'x' :: r => inRadix 16 r
    | '0' :: 'o' :: r => inRadix 8 r
    | '0' :: 'b' :: r => inRadix 2 r
    | _ =>
      let (negative, r) := splitSign s
      (decimal? r).map fun n => if negative then -(n : Int) else n
  (value.filter inRange).map fun i => .num (.int i)

/-- A real that is too large is refused; one that is too small is minus infinity. -/
def real? (s : List Char) : Option Json :=
  let (negative, r) := splitSign s
  if r = "inf".toList then some (.num (.real (.infinite negative)))
  else if r = "nan".toList then some (.num (.real .nan))
  else
    let mantissa := r.takeWhile fun c => c != 'e' && c != 'E'
    let exponent? : Option Int :=
      match r.drop mantissa.length with
      | [] => some 0
      | _ :: e =>
        let (minus, ds) := splitSign e
        (digits? Char.isDigit ds).map fun ds =>
          if minus then -(Json.digitsValue ds : Int) else Json.digitsValue ds
    let pointed := Text.cut '.' mantissa
    if pointed.isNone && mantissa.length = r.length then none
    else do
      let e ← exponent?
      let (whole, fraction) := pointed.getD (mantissa, [])
      let _ ← decimal? whole
      let ws ← digits? Char.isDigit whole
      let fs ← if pointed.isSome then digits? Char.isDigit fraction else some []
      match Binary64.ofDecimal negative (Json.digitsValue (ws ++ fs)) (e - fs.length) with
      | .infinite false => none
      | x => some (.num (.real x))

/-! ### Dates and times -/

def twoDigits? : List Char → Option (Nat × List Char)
  | a :: b :: rest =>
    if a.isDigit && b.isDigit then some (Json.digitsValue [a, b], rest) else none
  | _ => none

def daysIn (year month : Nat) : Nat :=
  if month = 2 then if year % 4 = 0 ∧ (year % 100 ≠ 0 ∨ year % 400 = 0) then 29 else 28
  else if [4, 6, 9, 11].contains month then 30 else 31

def expect? (c : Char) : List Char → Option (List Char)
  | d :: rest => if c = d then some rest else none
  | [] => none

def date? (s : List Char) : Option (List Char) := do
  let (c, s) ← twoDigits? s
  let (y, s) ← twoDigits? s
  let (m, s) ← twoDigits? (← expect? '-' s)
  let (d, s) ← twoDigits? (← expect? '-' s)
  if 1 ≤ m && m ≤ 12 && 1 ≤ d && d ≤ daysIn (c * 100 + y) m then some s else none

def time? (s : List Char) : Option (List Char) := do
  let (h, s) ← twoDigits? s
  let (m, s) ← twoDigits? (← expect? ':' s)
  let (sec, s) ← twoDigits? (← expect? ':' s)
  if 23 < h || 59 < m || 60 < sec then none
  match s with
  | '.' :: r =>
    let fraction := r.takeWhile Char.isDigit
    if fraction.isEmpty then none else some (r.drop fraction.length)
  | _ => some s

def offset? (s : List Char) : Option (List Char) :=
  match s with
  | 'Z' :: r => some r
  | 'z' :: r => some r
  | c :: r =>
    if c = '+' ∨ c = '-' then do
      let (h, s) ← twoDigits? r
      let (m, s) ← twoDigits? (← expect? ':' s)
      if 23 < h || 59 < m then none else some s
    else some s
  | [] => some []

/-- A date, a time, or both with an optional offset. -/
def isDateTime (s : List Char) : Bool :=
  match date? s with
  | some [] => true
  | some (c :: rest) =>
    (c == 'T' || c == 't' || c == ' ') && ((time? rest).bind offset?) == some []
  | none => time? s == some []

def isScalarChar (c : Char) : Bool :=
  c.isAlphanum || c == '_' || c == '+' || c == '-' || c == '.' || c == ':'

/-- The characters of a number, word or date at the start of a text; a blank may stand between a
date and a time. -/
def scalarText (s : List Char) : List Char :=
  let first := s.takeWhile isScalarChar
  match s.drop first.length with
  | ' ' :: d :: rest =>
    if d.isDigit && date? first == some [] then
      first ++ ' ' :: (d :: rest).takeWhile isScalarChar
    else first
  | _ => first

def scalar? (s : List Char) : Option (Json × List Char) :=
  let word := scalarText s
  let value : Option Json :=
    if word = "true".toList then some (.bool true)
    else if word = "false".toList then some (.bool false)
    else if isDateTime word then
      some (.obj [("$__toml_private_datetime", .str (String.ofList word))])
    else (integer? word).or (real? word)
  value.map fun v => (v, s.drop word.length)

/-! ### Keys and values -/

def isBareKeyChar (c : Char) : Bool := c.isAlphanum || c == '_' || c == '-'

def simpleKey? (s : List Char) : Option (String × List Char) :=
  match s with
  | '"' :: rest => shortString '"' (rest.length + 1) rest []
  | '\'' :: rest => shortString '\'' (rest.length + 1) rest []
  | _ =>
    let key := s.takeWhile isBareKeyChar
    if key.isEmpty then none else some (String.ofList key, s.drop key.length)

/-- The number of levels of values, and of keys with dots between them. -/
def maxDepth : Nat := 79

/-- At most `fuel` keys with dots between them, and blanks around the dots. -/
def dottedKey? : (fuel : Nat) → List Char → Option (List String × List Char)
  | 0, _ => none
  | fuel + 1, s => do
    let (key, rest) ← simpleKey? (skipBlank s)
    match skipBlank rest with
    | '.' :: rest =>
      let (keys, rest) ← dottedKey? fuel rest
      return (key :: keys, rest)
    | rest => return ([key], rest)

mutual

def value? : (fuel depth : Nat) → List Char → Option (Json × List Char)
  | 0, _, _ => none
  | fuel + 1, depth, s =>
    match s with
    | '"' :: _ => (string? s).map fun (t, rest) => (.str t, rest)
    | '\'' :: _ => (string? s).map fun (t, rest) => (.str t, rest)
    | '[' :: rest =>
      match depth with
      | 0 => none
      | depth + 1 => (items? fuel depth rest).map fun (vs, rest) => (.arr vs, rest)
    | '\x7b' :: rest =>
      match depth with
      | 0 => none
      | depth + 1 =>
        match skipBlank rest with
        | '\x7d' :: rest => some (.obj [], rest)
        | rest =>
          (pairs? fuel depth rest []).map fun (es, rest) =>
            ((Node.table false false es).toJson, rest)
    | _ => scalar? s

def items? : (fuel depth : Nat) → List Char → Option (List Json × List Char)
  | 0, _, _ => none
  | fuel + 1, depth, s => do
    match ← skipLines (s.length + 1) s with
    | ']' :: rest => return ([], rest)
    | s =>
      let (v, rest) ← value? fuel depth s
      match ← skipLines (rest.length + 1) rest with
      | ',' :: rest =>
        let (vs, rest) ← items? fuel depth rest
        return (v :: vs, rest)
      | ']' :: rest => return ([v], rest)
      | _ => none

def pairs? : (fuel depth : Nat) → List Char → Entries → Option (Entries × List Char)
  | 0, _, _, _ => none
  | fuel + 1, depth, s, es => do
    let (keys, rest) ← dottedKey? maxDepth s
    match rest with
    | '=' :: rest =>
      let (v, rest) ← value? fuel depth (skipBlank rest)
      let es ← Entries.set (.leaf v) keys es
      match skipBlank rest with
      | ',' :: rest => pairs? fuel depth rest es
      | '\x7d' :: rest => return (es, rest)
      | _ => none
    | _ => none

end

end Gateway.Toml
