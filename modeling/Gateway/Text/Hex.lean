/-! Hexadecimal digits. -/

namespace Gateway.Hex

def digit (n : Nat) : Char :=
  if n < 10 then Char.ofNat (48 + n) else Char.ofNat (87 + n)

def upperDigit (n : Nat) : Char :=
  if n < 10 then Char.ofNat (48 + n) else Char.ofNat (55 + n)

def value? (c : Char) : Option Nat :=
  if '0' ≤ c ∧ c ≤ '9' then some (c.toNat - 48)
  else if 'a' ≤ c ∧ c ≤ 'f' then some (c.toNat - 87)
  else if 'A' ≤ c ∧ c ≤ 'F' then some (c.toNat - 55)
  else none

def ofNat (n : Nat) : String := String.ofList (Nat.toDigits 16 n)

/-- The number in `width` digits, higher ones dropped. -/
def padded (width n : Nat) : List Char :=
  (List.range width).reverse.map fun i => digit (n / Nat.pow 16 i % 16)

end Gateway.Hex
