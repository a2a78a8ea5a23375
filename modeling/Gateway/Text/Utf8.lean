/-! UTF-8: the bytes of a text, strict reading, and reading that replaces each maximal ill-formed
part by the replacement character. -/

namespace Gateway

abbrev Bytes := List UInt8

namespace Utf8

def encodeChar (c : Char) : Bytes :=
  let n := c.toNat
  if n < 0x80 then [UInt8.ofNat n]
  else if n < 0x800 then [UInt8.ofNat (0xC0 + n / 64), UInt8.ofNat (0x80 + n % 64)]
  else if n < 0x10000 then
    [UInt8.ofNat (0xE0 + n / 4096), UInt8.ofNat (0x80 + n / 64 % 64), UInt8.ofNat (0x80 + n % 64)]
  else
    [UInt8.ofNat (0xF0 + n / 262144), UInt8.ofNat (0x80 + n / 4096 % 64),
      UInt8.ofNat (0x80 + n / 64 % 64), UInt8.ofNat (0x80 + n % 64)]

def encode (s : String) : Bytes := s.toList.flatMap encodeChar

/-- How many bytes follow a lead byte, the range of the first of them, and the payload bits. -/
def lead (b : Nat) : Option (Nat × Nat × Nat × Nat) :=
  if 0xC2 ≤ b ∧ b ≤ 0xDF then some (1, 0x80, 0xBF, b - 0xC0)
  else if b = 0xE0 then some (2, 0xA0, 0xBF, 0)
  else if b = 0xED then some (2, 0x80, 0x9F, 0xD)
  else if 0xE1 ≤ b ∧ b ≤ 0xEF then some (2, 0x80, 0xBF, b - 0xE0)
  else if b = 0xF0 then some (3, 0x90, 0xBF, 0)
  else if 0xF1 ≤ b ∧ b ≤ 0xF3 then some (3, 0x80, 0xBF, b - 0xF0)
  else if b = 0xF4 then some (3, 0x80, 0x8F, 4)
  else none

/-- Reads `n` continuation bytes; the bytes that fit are consumed even when one is missing. -/
def continuation (lo hi acc : Nat) : (n : Nat) → Bytes → Option Nat × Bytes
  | 0, bytes => (some acc, bytes)
  | _ + 1, [] => (none, [])
  | n + 1, b :: bytes =>
    if lo ≤ b.toNat ∧ b.toNat ≤ hi then
      continuation 0x80 0xBF (acc * 64 + (b.toNat - 0x80)) n bytes
    else (none, b :: bytes)

theorem continuation_length_le (lo hi acc n : Nat) (bytes : Bytes) :
    (continuation lo hi acc n bytes).2.length ≤ bytes.length := by
  induction n generalizing lo hi acc bytes with
  | zero => simp [continuation]
  | succ n ih =>
    cases bytes with
    | nil => simp [continuation]
    | cons b bytes =>
      rw [continuation]
      split
      · exact Nat.le_succ_of_le (ih ..)
      · simp

/-- The characters of a byte string, `none` standing for an ill-formed part. -/
def scan : Bytes → List (Option Char)
  | [] => []
  | b :: bytes =>
    if b.toNat < 0x80 then some (Char.ofNat b.toNat) :: scan bytes
    else match lead b.toNat with
      | none => none :: scan bytes
      | some (n, lo, hi, acc) =>
        have := continuation_length_le lo hi acc n bytes
        (continuation lo hi acc n bytes).1.map Char.ofNat ::
          scan (continuation lo hi acc n bytes).2
termination_by bytes => bytes.length

def decode? (bytes : Bytes) : Option String :=
  ((scan bytes).mapM id).map String.ofList

def decodeLossy (bytes : Bytes) : String :=
  String.ofList ((scan bytes).map fun c => c.getD '\uFFFD')

end Utf8

end Gateway
