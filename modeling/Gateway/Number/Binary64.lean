/-! Binary floating point numbers of 64 bits, kept as sign, mantissa and exponent, with exact
arithmetic followed by one rounding to the nearest number, ties to the even mantissa. -/

namespace Gateway

def Binary64.minExponent : Int := -1074

/-- A finite number is `± mantissa · 2 ^ exponent`, a whole multiple of the least positive one. -/
inductive Binary64 where
  | nan
  | infinite (negative : Bool)
  | finite (negative : Bool) (mantissa : Nat) (exponent : Int)
      (proper : Binary64.minExponent ≤ exponent)
deriving DecidableEq, Repr, Inhabited

namespace Binary64

def signedZero (negative : Bool) : Binary64 := finite negative 0 minExponent (Int.le_refl _)

def zero : Binary64 := signedZero false

/-- The quotient rounded to the nearest number, halves to the even one. -/
def divRound (num den : Nat) : Nat :=
  let q := num / den
  let twice := 2 * (num % den)
  if twice < den then q
  else if den < twice then q + 1
  else q + q % 2

def inUnits (num den : Nat) (e : Int) : Nat :=
  if 0 ≤ e then divRound num (den * Nat.pow 2 e.toNat) else divRound (num * Nat.pow 2 (-e).toNat) den

def wholeUnits (num den : Nat) (e : Int) : Nat :=
  if 0 ≤ e then num / (den * Nat.pow 2 e.toNat) else num * Nat.pow 2 (-e).toNat / den

/-- The exponent in whose units a quotient is rounded. -/
def spacing (num den : Nat) : Int :=
  let guess := max ((num.log2 : Int) - den.log2 - 53) minExponent
  if wholeUnits num den guess < 0x20000000000000 then guess else guess + 1

theorem minExponent_le_spacing (num den : Nat) : minExponent ≤ spacing num den := by
  unfold spacing
  dsimp only
  split <;> omega

def bounded (negative : Bool) (mantissa : Nat) (exponent : Int)
    (proper : minExponent ≤ exponent) : Binary64 :=
  if 971 < exponent then infinite negative else finite negative mantissa exponent proper

def ofRatio (negative : Bool) (num den : Nat) : Binary64 :=
  if num = 0 then signedZero negative
  else
    let e := spacing num den
    let m := inUnits num den e
    have proper : minExponent ≤ e := minExponent_le_spacing num den
    if m = 0x20000000000000 then bounded negative 0x10000000000000 (e + 1) (by omega)
    else bounded negative m e proper

def ofScaled (negative : Bool) (m : Nat) (e : Int) : Binary64 :=
  if 0 ≤ e then ofRatio negative (m * Nat.pow 2 e.toNat) 1 else ofRatio negative m (Nat.pow 2 (-e).toNat)

def ofDecimal (negative : Bool) (digits : Nat) (exponent : Int) : Binary64 :=
  let size := (Nat.toDigits 10 digits).length + exponent
  if digits = 0 ∨ size < -400 then signedZero negative
  else if 400 < size then infinite negative
  else if 0 ≤ exponent then ofRatio negative (digits * Nat.pow 10 exponent.toNat) 1
  else ofRatio negative digits (Nat.pow 10 (-exponent).toNat)

def ofInt (i : Int) : Binary64 := ofRatio (i < 0) i.natAbs 1

def isFinite : Binary64 → Bool
  | finite .. => true
  | _ => false

def aligned (s : Bool) (m : Nat) (e : Int) (s' : Bool) (m' : Nat) (e' : Int) : Int × Int :=
  let least := min e e'
  let signed (negative : Bool) (mantissa : Nat) (exponent : Int) : Int :=
    (if negative then -1 else 1) * (mantissa * Nat.pow 2 (exponent - least).toNat : Nat)
  (signed s m e, signed s' m' e')

/-- The order of the numbers; every comparison with `nan` is false. -/
def lt : Binary64 → Binary64 → Bool
  | nan, _ => false
  | _, nan => false
  | infinite s, infinite s' => s && !s'
  | infinite s, finite .. => s
  | finite .., infinite s' => !s'
  | finite s m e _, finite s' m' e' _ =>
    let (a, b) := aligned s m e s' m' e'
    a < b

def le (a b : Binary64) : Bool :=
  match a, b with
  | nan, _ => false
  | _, nan => false
  | a, b => !lt b a

def add : Binary64 → Binary64 → Binary64
  | nan, _ => nan
  | _, nan => nan
  | infinite s, infinite s' => if s = s' then infinite s else nan
  | infinite s, finite .. => infinite s
  | finite .., infinite s' => infinite s'
  | finite s m e _, finite s' m' e' _ =>
    let (a, b) := aligned s m e s' m' e'
    let negative := if a + b = 0 then s && s' else decide (a + b < 0)
    ofScaled negative (a + b).natAbs (min e e')

def mul : Binary64 → Binary64 → Binary64
  | nan, _ => nan
  | _, nan => nan
  | infinite s, infinite s' => infinite (s != s')
  | infinite s, finite s' m .. => if m = 0 then nan else infinite (s != s')
  | finite s m .., infinite s' => if m = 0 then nan else infinite (s != s')
  | finite s m e _, finite s' m' e' _ => ofScaled (s != s') (m * m') (e + e')

def div : Binary64 → Binary64 → Binary64
  | nan, _ => nan
  | _, nan => nan
  | infinite _, infinite _ => nan
  | infinite s, finite s' .. => infinite (s != s')
  | finite s .., infinite s' => signedZero (s != s')
  | finite s m e _, finite s' m' e' _ =>
    if m' = 0 then if m = 0 then nan else infinite (s != s')
    else ofRatio (s != s') (m * Nat.pow 2 (e - e').toNat) (m' * Nat.pow 2 (e' - e).toNat)

def tenTo (k : Nat) : Binary64 := ofDecimal false 1 k

instance : OfNat Binary64 0 := ⟨zero⟩
instance : Add Binary64 := ⟨add⟩
instance : Mul Binary64 := ⟨mul⟩
instance : Div Binary64 := ⟨div⟩
instance : LT Binary64 := ⟨fun a b => lt a b = true⟩
instance : LE Binary64 := ⟨fun a b => le a b = true⟩
instance (a b : Binary64) : Decidable (a < b) := inferInstanceAs (Decidable (lt a b = true))
instance (a b : Binary64) : Decidable (a ≤ b) := inferInstanceAs (Decidable (le a b = true))

end Binary64

end Gateway
