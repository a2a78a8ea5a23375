import Gateway.Number.Binary64

/-! The fewest decimal digits that read back as the same number, nearest to it among those, and
their layout: positional from 10⁻⁵ up to 10¹⁶, with an exponent outside. -/

namespace Gateway.Binary64

def compareScaled (a : Nat) (e : Int) (b : Nat) (k : Int) : Ordering :=
  let left := a * Nat.pow 2 e.toNat * Nat.pow 10 (-k).toNat
  let right := b * Nat.pow 10 k.toNat * Nat.pow 2 (-e).toNat
  compare left right

def quotient (a : Nat) (e k : Int) : Nat :=
  (a * Nat.pow 2 e.toNat * Nat.pow 10 (-k).toNat) / (Nat.pow 10 k.toNat * Nat.pow 2 (-e).toNat)

def decimalSize (m : Nat) (e : Int) : Int :=
  let whole := quotient m e 0
  if 0 < whole then (Nat.toDigits 10 whole).length
  else
    match (List.range 400).find? fun (k : Nat) => 0 < quotient m e (-(k : Int)) with
    | some k => 1 - (k : Int)
    | none => 0

/-- One of the two multiples of `10 ^ k` next to the number, if it reads back as the number.
All bounds are in quarters of the last binary place. -/
def onGrid (m : Nat) (e k : Int) : Option Nat :=
  let low := if m = 0x10000000000000 ∧ minExponent < e then 4 * m - 1 else 4 * m - 2
  let high := 4 * m + 2
  let reads (c : Nat) : Bool :=
    let below := compareScaled low (e - 2) c k
    let above := compareScaled high (e - 2) c k
    if m % 2 = 0 then below != .gt && above != .lt else below == .lt && above == .gt
  let c := quotient m e k
  match reads c, reads (c + 1) with
  | true, true =>
    -- twice the number against the sum of both neighbours
    match compareScaled (2 * m) e (2 * c + 1) k with
    | .lt => some c
    | .gt => some (c + 1)
    | .eq => some (c + c % 2)
  | true, false => some c
  | false, true => some (c + 1)
  | false, false => none

/-- Digits `d` and exponent `k`, the number being `d · 10 ^ k`. -/
def shortest (m : Nat) (e : Int) : Nat × Int :=
  let size := decimalSize m e
  let hit := (List.range 17).findSome? fun (n : Nat) =>
    let k := size - ((n : Int) + 1)
    (onGrid m e k).map fun c => (c, k)
  hit.getD (0, 0)

/-- Trailing zeros moved from the digits to the exponent; the first argument bounds the moves. -/
def stripZeros : Nat → Nat → Int → Nat × Int
  | 0, d, k => (d, k)
  | n + 1, d, k => if d ≠ 0 ∧ d % 10 = 0 then stripZeros n (d / 10) (k + 1) else (d, k)

def layout (d : Nat) (k : Int) : List Char :=
  let digits := Nat.toDigits 10 d
  let point := (digits.length : Int) + k
  if 0 ≤ k ∧ point ≤ 16 then digits ++ List.replicate k.toNat '0' ++ ['.', '0']
  else if 0 < point ∧ point ≤ 16 then
    digits.take point.toNat ++ ['.'] ++ digits.drop point.toNat
  else if -5 < point ∧ point ≤ 0 then
    ['0', '.'] ++ List.replicate (-point).toNat '0' ++ digits
  else
    let fraction := digits.drop 1
    digits.take 1 ++ (if fraction.isEmpty then [] else '.' :: fraction) ++ ['e'] ++
      (toString (point - 1)).toList

/-- The text of a finite number; other numbers have none. -/
def text? : Binary64 → Option String
  | finite negative m e _ =>
    let body :=
      if m = 0 then ['0', '.', '0']
      else
        let (d, k) := shortest m e
        let (d, k) := stripZeros 20 d k
        layout d k
    some (String.ofList (if negative then '-' :: body else body))
  | _ => none

end Gateway.Binary64
