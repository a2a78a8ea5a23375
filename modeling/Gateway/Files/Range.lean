import Gateway.Text.Blank

/-! The part of a file that a request asks for. -/

namespace Gateway

/-- A range from a byte on, up to a byte or the end, or the last bytes. -/
inductive RangeSpec where
  | between (first last : Nat)
  | tail (first : Nat)
  | suffix (count : Nat)
deriving DecidableEq, Repr

namespace RangeSpec

def number? (digits : List Char) : Option Nat :=
  let n := digits.foldl (fun n c => n * 10 + (c.toNat - 48)) 0
  if !digits.isEmpty && digits.all Char.isDigit && n < 0x10000000000000000 then some n else none

def ofText? (s : List Char) : Option RangeSpec :=
  match Text.cut '-' (Text.trim Text.isBlank s) with
  | some ([], count) => (number? count).map suffix
  | some (first, []) => (number? first).map tail
  | some (first, last) => do return between (← number? first) (← number? last)
  | none => none

def listOfText? (s : String) : Option (List RangeSpec) := do
  let ranges ← Text.dropStart? "bytes=".toList s.toList
  (Text.pieces ',' ranges).mapM ofText?

def bounds? (size : Nat) (r : RangeSpec) : Option (Nat × Nat) :=
  let (first, last) := match r with
    | between first last => (some first, min last (size - 1))
    | tail first => (some first, size - 1)
    | suffix count => (if size < count then none else some (size - count), size - 1)
  match first with
  | some first => if first ≤ last then some (first, last) else none
  | none => none

def overlap (a b : Nat × Nat) : Bool := a.1 ≤ b.2 && b.1 ≤ a.2

/-- The bounds of all ranges, which must not overlap. -/
def listBounds? (size : Nat) (ranges : List RangeSpec) : Option (List (Nat × Nat)) := do
  let bounds ← ranges.mapM (bounds? size)
  if bounds.zipIdx.any fun (a, i) => (bounds.drop (i + 1)).any (overlap a) then none
  else some bounds

end RangeSpec

end Gateway
