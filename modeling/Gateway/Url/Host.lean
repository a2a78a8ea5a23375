import Gateway.Net.Address
import Gateway.Text.Percent
import Gateway.Text.Split
import Gateway.Url.Punycode

/-! Hosts of URLs: domain names, and internet addresses in all the forms that are understood. -/

namespace Gateway

inductive UrlError where
  | relativeWithoutBase
  | emptyHost
  | invalidPort
  | invalidIpv4
  | invalidIpv6
  | invalidDomainName
  | invalidDomainChar
deriving DecidableEq, Repr

def UrlError.message : UrlError → String
  | relativeWithoutBase => "relative URL without a base"
  | emptyHost => "empty host"
  | invalidPort => "invalid port number"
  | invalidIpv4 => "invalid IPv4 address"
  | invalidIpv6 => "invalid IPv6 address"
  | invalidDomainName => "invalid international domain name"
  | invalidDomainChar => "invalid domain character"

namespace Host

/-- A part of an address in octal, hexadecimal or decimal; `none` when it is no number. -/
def number? (part : List Char) : Option Nat :=
  let inRadix (radix : Nat) (digits : List Char) : Option Nat :=
    if digits.all fun c => (Hex.value? c).any (· < radix) then
      some (digits.foldl (fun n c => n * radix + (Hex.value? c).getD 0) 0)
    else none
  match part with
  | [] => none
  | ['0'] => some 0
  | '0' :: 'x' :: digits => inRadix 16 digits
  | '0' :: 'X' :: digits => inRadix 16 digits
  | '0' :: digits => inRadix 8 digits
  | digits => inRadix 10 digits

def labels (name : List Char) : List (List Char) :=
  let parts := Text.pieces '.' name
  if parts.getLast? = some [] && 1 < parts.length then parts.dropLast else parts

def endsInNumber (name : List Char) : Bool :=
  match (labels name).getLast? with
  | none => false
  | some last => (!last.isEmpty && last.all Char.isDigit) || (number? last).isSome

/-- One to four numbers; the last fills the octets that are left. -/
def ipv4? (name : List Char) : Option IpAddr := do
  let numbers ← (labels name).mapM number?
  let last ← numbers.getLast?
  let front := numbers.dropLast
  if 4 < numbers.length || front.any (255 < ·) || Nat.pow 256 (4 - front.length) ≤ last then none
  else
    let value := (front.zipIdx.foldl (fun n (p, i) => n + p * Nat.pow 256 (3 - i)) last)
    some (.v4 [value / 16777216 % 256, value / 65536 % 256, value / 256 % 256, value % 256])

/-- What a domain name may not contain. -/
def isForbidden (c : Char) : Bool :=
  c.toNat ≤ 0x20 || c.toNat == 0x7F || "%#/:<>?@[\\]^|".toList.contains c

/-- The form under which characters beyond ASCII are compared: letters in lower case, full-width
forms as ASCII, other full stops as a dot, soft hyphens dropped. -/
def fold (c : Char) : List Char :=
  let n := c.toNat
  let even := n % 2 == 0
  if n < 0x80 then [c.toLower]
  else if n == 0xAD || n == 0x200B || n == 0x2060 || n == 0xFEFF then []
  else if n == 0x3002 || n == 0xFF0E || n == 0xFF61 then ['.']
  else if n == 0xA0 || n == 0x3000 then [' ']
  else if n == 0xAA then ['a']
  else if n == 0xBA then ['o']
  else if n == 0xB2 || n == 0xB3 then [Char.ofNat (n - 0x80)]
  else if n == 0xB9 then ['1']
  else if n == 0xB5 then ['μ']
  else if n == 0xFB00 then ['f', 'f']
  else if n == 0xFB01 then ['f', 'i']
  else if n == 0xFB02 then ['f', 'l']
  else if 0xFF01 ≤ n && n ≤ 0xFF5E then [(Char.ofNat (n - 0xFEE0)).toLower]
  else if 0xC0 ≤ n && n ≤ 0xDE && n != 0xD7 then [Char.ofNat (n + 32)]
  else if 0x100 ≤ n && n ≤ 0x12F || 0x14A ≤ n && n ≤ 0x177 then
    [if even then Char.ofNat (n + 1) else c]
  else if 0x139 ≤ n && n ≤ 0x148 || 0x179 ≤ n && n ≤ 0x17E then
    [if even then c else Char.ofNat (n + 1)]
  else if 0x391 ≤ n && n ≤ 0x3A9 then [Char.ofNat (n + 32)]
  else if 0x410 ≤ n && n ≤ 0x42F then [Char.ofNat (n + 32)]
  else if 0x400 ≤ n && n ≤ 0x40F then [Char.ofNat (n + 80)]
  else if 0x1E00 ≤ n && n ≤ 0x1E95 || 0x1EA0 ≤ n && n ≤ 0x1EFF then
    [if even then Char.ofNat (n + 1) else c]
  else [c]

/-- Characters that no name contains: controls, marks of direction, joiners, and code points for
private use or without a character. -/
def isExcluded (c : Char) : Bool :=
  let n := c.toNat
  (0x80 ≤ n && n ≤ 0xA0) || (0x2000 ≤ n && n ≤ 0x200F) || (0x2028 ≤ n && n ≤ 0x202F) ||
    (0x205F ≤ n && n ≤ 0x206F) || n == 0x3000 || (0xE000 ≤ n && n ≤ 0xF8FF) ||
    (0xFFF0 ≤ n && n ≤ 0xFFFF) || 0xE0000 ≤ n

def isFolded (label : List Char) : Bool := label.all fun c => fold c == [c] && !isExcluded c

def label? (label : List Char) : Option (List Char) :=
  if label.any fun c => isForbidden c || isExcluded c then none
  else if label.all (·.toNat < 0x80) then
    match Text.dropStart? "xn--".toList label with
    | some rest =>
      match Punycode.decode? rest with
      | some decoded =>
        if decoded.all (·.toNat < 0x80) || !isFolded decoded then none else some label
      | none => none
    | none => some label
  else some ("xn--".toList ++ Punycode.encode label)

def domain? (name : List Char) : Option (List Char) := do
  let labels ← (Text.pieces '.' (name.flatMap fold)).mapM label?
  return ['.'].intercalate labels

def bracketed? (s : List Char) : Except UrlError String :=
  match s.getLast?, SocketAddr.ipv6? (s.drop 1).dropLast with
  | some ']', some (groups, []) => .ok ("[" ++ Ipv6.text groups ++ "]")
  | _, _ => .error .invalidIpv6

def parse (s : List Char) : Except UrlError String :=
  match s with
  | '[' :: _ => bracketed? s
  | _ =>
    let decoded := Utf8.decodeLossy (Percent.decode (Utf8.encode (String.ofList s)))
    match domain? decoded.toList with
    | none => .error .invalidDomainName
    | some name =>
      if name.isEmpty then .error .emptyHost
      else if endsInNumber name then
        match ipv4? name with
        | some ip => .ok ip.text
        | none => .error .invalidIpv4
      else .ok (String.ofList name)

/-- The host of any other URL is kept as it is, controls encoded. -/
def parseOpaque (s : List Char) : Except UrlError String :=
  match s with
  | '[' :: _ => bracketed? s
  | _ =>
    if s.any fun c => c.toNat == 0 || "\t\n\r #/:<>?@[\\]^|".toList.contains c then
      .error .invalidDomainChar
    else .ok (String.ofList (Percent.encode (fun c => c.toNat < 0x20 || c.toNat == 0x7F) s))

end Host

end Gateway
