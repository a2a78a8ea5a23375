/-! Punycode: text beyond ASCII in letters, digits and hyphens. -/

namespace Gateway.Punycode

def base : Nat := 36

/-- A delta brought down to at most 455, and what that adds to the bias. -/
def shrink (delta k : Nat) : Nat × Nat :=
  if 455 < delta then shrink (delta / 35) (k + base) else (delta, k)
termination_by delta
decreasing_by exact Nat.div_lt_self (by omega) (by omega)

/-- The bias after a delta; `first` damps the very first one. -/
def adapt (delta points : Nat) (first : Bool) : Nat :=
  let delta := if first then delta / 700 else delta / 2
  let (delta, k) := shrink (delta + delta / points) 0
  k + base * delta / (delta + 38)

def threshold (k bias : Nat) : Nat :=
  if k ≤ bias then 1 else if bias + 26 ≤ k then 26 else k - bias

theorem threshold_pos (k bias : Nat) : 0 < threshold k bias := by
  unfold threshold
  split
  · omega
  · split <;> omega

def digit (n : Nat) : Char :=
  if n < 26 then Char.ofNat (97 + n) else Char.ofNat (22 + n)

def digitValue? (c : Char) : Option Nat :=
  if c.isDigit then some (c.toNat - 22)
  else if c.isAlpha then some (c.toLower.toNat - 97)
  else none

def encodeNumber (q k bias : Nat) : List Char :=
  let t := threshold k bias
  if q < t then [digit q]
  else digit (t + (q - t) % (base - t)) :: encodeNumber ((q - t) / (base - t)) (k + base) bias
termination_by q
decreasing_by
  have := threshold_pos k bias
  have := Nat.div_le_self (q - threshold k bias) (base - threshold k bias)
  omega

structure Encoder where
  next : Nat := 128
  delta : Nat := 0
  bias : Nat := 72
  handled : Nat
  out : List Char

/-- The code points equal to `m` are written in the order of the text. -/
def Encoder.pass (basic m : Nat) (text : List Char) (e : Encoder) : Encoder :=
  let e := { e with delta := e.delta + (m - e.next) * (e.handled + 1) }
  let e := text.foldl (fun (e : Encoder) c =>
    if c.toNat < m then { e with delta := e.delta + 1 }
    else if c.toNat = m then
      { e with
        out := e.out ++ encodeNumber e.delta base e.bias
        bias := adapt e.delta (e.handled + 1) (e.handled == basic)
        delta := 0
        handled := e.handled + 1 }
    else e) e
  { e with delta := e.delta + 1, next := m + 1 }

def encode (text : List Char) : List Char :=
  let basic := text.filter (·.toNat < 128)
  let points := ((text.map Char.toNat).filter (128 ≤ ·)).eraseDups.mergeSort
  let start := if basic.isEmpty then [] else basic ++ ['-']
  (points.foldl (fun (e : Encoder) m => e.pass basic.length m text)
    { handled := basic.length, out := start }).out

/-- The number at the start of a digit string. -/
def decodeNumber : List Char → (i w k bias : Nat) → Option (Nat × List Char)
  | [], _, _, _, _ => none
  | c :: cs, i, w, k, bias =>
    match digitValue? c with
    | none => none
    | some d =>
      let i := i + d * w
      let t := threshold k bias
      if d < t then some (i, cs) else decodeNumber cs i (w * (base - t)) (k + base) bias

def decodeTail : (fuel : Nat) → List Char → (out : List Char) → (n i bias : Nat) → Option (List Char)
  | 0, _, _, _, _, _ => none
  | _ + 1, [], out, _, _, _ => some out
  | fuel + 1, cs, out, n, i, bias =>
    match decodeNumber cs i 1 base bias with
    | none => none
    | some (j, rest) =>
      let size := out.length + 1
      let n := n + j / size
      if h : n.isValidChar then
        let place := j % size
        decodeTail fuel rest (out.take place ++ Char.ofNatAux n h :: out.drop place) n (place + 1)
          (adapt (j - i) size (i == 0))
      else none

def decode? (s : List Char) : Option (List Char) :=
  let tail := (s.reverse.takeWhile (· != '-')).reverse
  let head := (s.take (s.length - tail.length)).dropLast
  decodeTail (s.length + 1) tail head 128 0 72

end Gateway.Punycode
