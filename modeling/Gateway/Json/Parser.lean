import Gateway.Json
import Gateway.Text.Hex

/-! Reading a value from text: strict grammar, at most 127 levels of lists and objects, and of
two fields of one name the last. -/

namespace Gateway.Json

def isSpace (c : Char) : Bool := c == ' ' || c == '\n' || c == '\t' || c == '\r'

def skipSpace (s : List Char) : List Char := s.dropWhile isSpace

def hex4? : List Char → Option (Nat × List Char)
  | a :: b :: c :: d :: rest => do
    let a ← Hex.value? a
    let b ← Hex.value? b
    let c ← Hex.value? c
    let d ← Hex.value? d
    return (((a * 16 + b) * 16 + c) * 16 + d, rest)
  | _ => none

def simpleEscape? : Char → Option Char
  | '"' => some '"'
  | '\\' => some '\\'
  | '/' => some '/'
  | 'b' => some (Char.ofNat 8)
  | 'f' => some (Char.ofNat 12)
  | 'n' => some '\n'
  | 'r' => some '\r'
  | 't' => some '\t'
  | _ => none

/-- A code point escape after `\u`; a high surrogate needs its low one. -/
def codePoint? (s : List Char) : Option (Char × List Char) := do
  let (n, rest) ← hex4? s
  if 0xD800 ≤ n ∧ n ≤ 0xDBFF then
    match rest with
    | '\\' :: 'u' :: rest =>
      let (low, rest) ← hex4? rest
      if 0xDC00 ≤ low ∧ low ≤ 0xDFFF then
        some (Char.ofNat (0x10000 + (n - 0xD800) * 0x400 + (low - 0xDC00)), rest)
      else none
    | _ => none
  else if 0xDC00 ≤ n ∧ n ≤ 0xDFFF then none
  else some (Char.ofNat n, rest)

/-- The rest of a string after its opening quote; `fuel` bounds the number of characters. -/
def stringTail : (fuel : Nat) → List Char → (acc : List Char) → Option (String × List Char)
  | 0, _, _ => none
  | _ + 1, [], _ => none
  | fuel + 1, c :: rest, acc =>
    if c = '"' then some (String.ofList acc.reverse, rest)
    else if c = '\\' then
      match rest with
      | 'u' :: tail =>
        match codePoint? tail with
        | some (d, tail) => stringTail fuel tail (d :: acc)
        | none => none
      | e :: tail =>
        match simpleEscape? e with
        | some d => stringTail fuel tail (d :: acc)
        | none => none
      | [] => none
    else if c.toNat < 0x20 then none
    else stringTail fuel rest (c :: acc)

def digitsValue (digits : List Char) : Nat :=
  digits.foldl (fun n c => n * 10 + (c.toNat - 48)) 0

/-- The digits of a number gathered in a word of 64 bits, with a power of ten. -/
structure Significand where
  word : Nat
  scale : Int := 0

def Significand.push? (s : Significand) (c : Char) : Option Nat :=
  let n := s.word * 10 + (c.toNat - 48)
  if n < 0x10000000000000000 then some n else none

/-- The digits before the point: those from the first that has no room only scale the number. -/
def Significand.ofWhole (digits : List Char) : Significand :=
  digits.foldl (fun s c =>
    match if s.scale = 0 then s.push? c else none with
    | some n => { s with word := n }
    | none => { s with scale := s.scale + 1 }) { word := 0 }

/-- The digits after the point; those from the first that has no room do not count. -/
def Significand.addFraction : Significand → List Char → Significand
  | s, [] => s
  | s, c :: rest =>
    match s.push? c with
    | some n => addFraction { word := n, scale := s.scale - 1 } rest
    | none => s

/-- Divides by a power of ten, by `10 ^ 308` at a time. A word of 64 bits is zero after two such
steps. -/
def divideByTens : (steps : Nat) → Binary64 → (k : Nat) → Binary64
  | 0, x, _ => x
  | steps + 1, x, k =>
    if k ≤ 308 then x / Binary64.tenTo k
    else divideByTens steps (x / Binary64.tenTo 308) (k - 308)

/-- The word as a number, multiplied or divided by the power of ten; a number that is too large
is refused. -/
def Significand.real? (s : Significand) (negative : Bool) : Option Binary64 :=
  let x := Binary64.ofInt s.word
  let scaled :=
    if s.word = 0 then x
    else if 308 < s.scale then .infinite false
    else if 0 ≤ s.scale then x * Binary64.tenTo s.scale.toNat
    else divideByTens 3 x (-s.scale).toNat
  match scaled with
  | .finite _ m e proper => some (.finite negative m e proper)
  | _ => none

/-- A whole number that is no integer of 64 bits, and minus zero, is a real. -/
def Significand.number? (s : Significand) (negative : Bool) : Option Number :=
  if s.scale = 0 ∧ !negative then some (.int s.word)
  else if s.scale = 0 ∧ s.word ≠ 0 ∧ s.word ≤ 0x8000000000000000 then some (.int (-(s.word : Int)))
  else (s.real? negative).map .real

def exponent? (s : List Char) : Option (Int × List Char) :=
  let (negative, s) := match s with
    | '-' :: r => (true, r)
    | '+' :: r => (false, r)
    | r => (false, r)
  let digits := s.takeWhile Char.isDigit
  if digits.isEmpty then none
  else
    let n : Int := digitsValue digits
    some (if negative then -n else n, s.drop digits.length)

def number? (s : List Char) : Option (Number × List Char) :=
  let (negative, s) := match s with
    | '-' :: r => (true, r)
    | r => (false, r)
  let whole := match s with
    | '0' :: _ => ['0']
    | r => r.takeWhile Char.isDigit
  let rest := s.drop whole.length
  if whole.isEmpty then none
  else if whole = ['0'] && (rest.head?.any Char.isDigit) then none
  else
    let (fraction, afterPoint, pointed) := match rest with
      | '.' :: r => (r.takeWhile Char.isDigit, r.dropWhile Char.isDigit, true)
      | r => ([], r, false)
    if pointed && fraction.isEmpty then none
    else
      let digits := (Significand.ofWhole whole).addFraction fraction
      let plain : Option (Number × List Char) :=
        (if pointed then (digits.real? negative).map Number.real else digits.number? negative).map
          fun n => (n, afterPoint)
      match afterPoint with
      | c :: r =>
        if c = 'e' ∨ c = 'E' then do
          let (e, rest) ← exponent? r
          let x ← { digits with scale := digits.scale + e }.real? negative
          return (.real x, rest)
        else plain
      | [] => plain

def keyword? (word : String) (value : Json) (s : List Char) : Option (Json × List Char) :=
  if s.take word.length = word.toList then some (value, s.drop word.length) else none

mutual

def value? : (fuel depth : Nat) → List Char → Option (Json × List Char)
  | 0, _, _ => none
  | fuel + 1, depth, s =>
    match skipSpace s with
    | [] => none
    | 'n' :: r => keyword? "null" .null ('n' :: r)
    | 't' :: r => keyword? "true" (.bool true) ('t' :: r)
    | 'f' :: r => keyword? "false" (.bool false) ('f' :: r)
    | '"' :: r => (stringTail (r.length + 1) r []).map fun (s, rest) => (.str s, rest)
    | '[' :: r =>
      match depth with
      | 0 => none
      | depth + 1 =>
        match skipSpace r with
        | ']' :: rest => some (.arr [], rest)
        | r => (items? fuel depth r).map fun (vs, rest) => (.arr vs, rest)
    | '\x7b' :: r =>
      match depth with
      | 0 => none
      | depth + 1 =>
        match skipSpace r with
        | '\x7d' :: rest => some (.obj [], rest)
        | r => (members? fuel depth r).map fun (fs, rest) => (ofFields fs, rest)
    | r => (number? r).map fun (n, rest) => (.num n, rest)

def items? : (fuel depth : Nat) → List Char → Option (List Json × List Char)
  | 0, _, _ => none
  | fuel + 1, depth, s =>
    match value? fuel depth s with
    | none => none
    | some (v, rest) =>
      match skipSpace rest with
      | ',' :: rest => (items? fuel depth rest).map fun (vs, rest) => (v :: vs, rest)
      | ']' :: rest => some ([v], rest)
      | _ => none

def members? : (fuel depth : Nat) → List Char → Option (List (String × Json) × List Char)
  | 0, _, _ => none
  | fuel + 1, depth, s =>
    match skipSpace s with
    | '"' :: r =>
      match stringTail (r.length + 1) r [] with
      | none => none
      | some (name, rest) =>
        match skipSpace rest with
        | ':' :: rest =>
          match value? fuel depth rest with
          | none => none
          | some (v, rest) =>
            match skipSpace rest with
            | ',' :: rest => (members? fuel depth rest).map fun (fs, rest) => ((name, v) :: fs, rest)
            | '\x7d' :: rest => some ([(name, v)], rest)
            | _ => none
        | _ => none
    | _ => none

end

def parse? (text : String) : Option Json :=
  let s := text.toList
  match value? (s.length + 1) 127 s with
  | some (v, rest) => if (skipSpace rest).isEmpty then some v else none
  | none => none

end Gateway.Json
