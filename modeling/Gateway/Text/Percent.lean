import Gateway.Text.Hex
import Gateway.Text.Utf8

/-! Percent encoding, and the name and value pairs of a query string. -/

namespace Gateway.Percent

def hexByte? (b : UInt8) : Option Nat := Hex.value? (Char.ofNat b.toNat)

/-- Each `%` with two hexadecimal digits is one byte; any other `%` stands for itself. -/
def decode : List UInt8 → List UInt8
  | [] => []
  | 0x25 :: x :: y :: rest =>
    match hexByte? x, hexByte? y with
    | some h, some l => UInt8.ofNat (h * 16 + l) :: decode rest
    | _, _ => 0x25 :: decode (x :: y :: rest)
  | b :: rest => b :: decode rest

def escape (b : UInt8) : List Char :=
  ['%', Hex.upperDigit (b.toNat / 16), Hex.upperDigit (b.toNat % 16)]

/-- Encodes the bytes of every character outside ASCII and of those that `mustEscape`. -/
def encode (mustEscape : Char → Bool) (text : List Char) : List Char :=
  text.flatMap fun c =>
    if c.toNat ≥ 0x80 || mustEscape c then (Utf8.encodeChar c).flatMap escape else [c]

end Gateway.Percent

namespace Gateway.Query

def splitBytes (sep : UInt8) : List UInt8 → List (List UInt8)
  | [] => [[]]
  | b :: bs =>
    if b = sep then [] :: splitBytes sep bs
    else match splitBytes sep bs with
      | [] => [[b]]
      | p :: ps => (b :: p) :: ps

/-- A part of a pair: `+` is a blank, escapes are resolved, ill-formed text is replaced. -/
def part (bytes : List UInt8) : String :=
  Utf8.decodeLossy (Percent.decode (bytes.map fun b => if b = 0x2B then 0x20 else b))

/-- The pairs of a query in order; a pair without `=` has an empty value, empty pairs are left out. -/
def pairs (query : String) : List (String × String) :=
  (splitBytes 0x26 (Utf8.encode query)).filterMap fun pair =>
    if pair.isEmpty then none
    else
      let name := pair.takeWhile (· != 0x3D)
      some (part name, part ((pair.drop name.length).drop 1))

def find? (query name : String) : Option String :=
  ((pairs query).find? (·.1 == name)).map (·.2)

end Gateway.Query
