import Gateway.Text.Hex

/-! Internet addresses and the addresses of sockets, with their textual forms. -/

namespace Gateway

/-- The four octets, or the eight groups of 16 bits. -/
inductive IpAddr where
  | v4 (octets : List Nat)
  | v6 (groups : List Nat)
deriving DecidableEq, Repr

/-- A zone is part of some addresses of the longer kind. -/
structure SocketAddr where
  ip : IpAddr
  zone : Nat := 0
  port : Nat
deriving DecidableEq, Repr

namespace Ipv6

/-- Start and length of the first longest run of zeros in the groups. -/
def longestZeros (groups : List Nat) : Nat × Nat :=
  let runs := (List.range groups.length).map fun i =>
    (i, ((groups.drop i).takeWhile (· == 0)).length)
  runs.foldl (fun best run => if best.2 < run.2 then run else best) (0, 0)

def joinGroups (groups : List Nat) : String :=
  ":".intercalate (groups.map Hex.ofNat)

/-- Lower-case groups, the first longest run of at least two zeros written as `::`. -/
def text (groups : List Nat) : String :=
  let (start, size) := longestZeros groups
  if 1 < size then
    joinGroups (groups.take start) ++ "::" ++ joinGroups (groups.drop (start + size))
  else joinGroups groups

end Ipv6

namespace IpAddr

def dotted (octets : List Nat) : String := ".".intercalate (octets.map toString)

/-- An address that stands for one of the shorter kind ends in dotted form. -/
def text : IpAddr → String
  | v4 octets => dotted octets
  | v6 [0, 0, 0, 0, 0, 0xFFFF, a, b] =>
    "::ffff:" ++ dotted [a / 256, a % 256, b / 256, b % 256]
  | v6 groups => Ipv6.text groups

end IpAddr

namespace SocketAddr

def hostText (a : SocketAddr) : String :=
  match a.ip with
  | .v4 _ => a.ip.text
  | .v6 _ => "[" ++ a.ip.text ++ (if a.zone = 0 then "" else "%" ++ toString a.zone) ++ "]"

def text (a : SocketAddr) : String := a.hostText ++ ":" ++ toString a.port

/-- A number below `bound` at the start of a text. It has at most `most` digits, and no zero before
others unless `zeroStart`. -/
def number? (radix bound : Nat) (most : Option Nat) (zeroStart : Bool) (s : List Char) :
    Option (Nat × List Char) :=
  let digits := s.takeWhile fun c => (Hex.value? c).any (· < radix)
  let n := digits.foldl (fun n c => n * radix + (Hex.value? c).getD 0) 0
  if digits.isEmpty || bound ≤ n || most.any (· < digits.length) ||
      (!zeroStart && 1 < digits.length && digits.head? == some '0') then none
  else some (n, s.drop digits.length)

def char? (c : Char) : List Char → Option (List Char)
  | d :: rest => if c = d then some rest else none
  | [] => none

def octets? (s : List Char) : Option (List Nat × List Char) := do
  let octet := number? 10 256 (some 3) false
  let (a, s) ← octet s
  let (b, s) ← octet (← char? '.' s)
  let (c, s) ← octet (← char? '.' s)
  let (d, s) ← octet (← char? '.' s)
  return ([a, b, c, d], s)

/-- Up to `limit` groups; an address of four octets may stand for the last two. The flag tells
whether it did. -/
def groups? : (limit : Nat) → (first : Bool) → List Char → List Nat × Bool × List Char
  | 0, _, s => ([], false, s)
  | limit + 1, first, s =>
    match (if first then some s else char? ':' s) with
    | none => ([], false, s)
    | some r =>
      match (if 0 < limit then octets? r else none) with
      | some (o, rest) =>
        ([o.getD 0 0 * 256 + o.getD 1 0, o.getD 2 0 * 256 + o.getD 3 0], true, rest)
      | none =>
        match number? 16 65536 (some 4) true r with
        | none => ([], false, s)
        | some (g, rest) =>
          let (gs, dottedEnd, rest) := groups? limit false rest
          (g :: gs, dottedEnd, rest)

def ipv6? (s : List Char) : Option (List Nat × List Char) :=
  let (head, dottedEnd, rest) := groups? 8 true s
  if head.length = 8 then some (head, rest)
  else if dottedEnd then none
  else match rest with
    | ':' :: ':' :: rest =>
      let (tail, _, rest) := groups? (7 - head.length) true rest
      some (head ++ List.replicate (8 - head.length - tail.length) 0 ++ tail, rest)
    | _ => none

def port? (s : List Char) : Option Nat := do
  let (port, rest) ← number? 10 65536 none true (← char? ':' s)
  if rest.isEmpty then some port else none

def parse? (text : String) : Option SocketAddr :=
  match text.toList with
  | '[' :: s => do
    let (groups, s) ← ipv6? s
    let (zone, s) ← match s with
      | '%' :: r => number? 10 0x100000000 none true r
      | r => some (0, r)
    return { ip := .v6 groups, zone, port := ← port? (← char? ']' s) }
  | s => do
    let (octets, s) ← octets? s
    return { ip := .v4 octets, port := ← port? s }

def refusal : String := "invalid socket address syntax"

end SocketAddr

end Gateway
