import Gateway.Text.Blank
import Gateway.Text.Utf8

/-! Header fields: lower-case names with values that are bytes, several values of one name in
their order. -/

namespace Gateway

def isTokenChar (c : Char) : Bool :=
  c.isAlphanum || "!#$%&'*+-.^_\x60|~".toList.contains c

/-- A method name; its case matters. -/
abbrev Method := String

def Method.ofText? (s : String) : Option Method :=
  if !s.isEmpty && s.toList.all isTokenChar then some s else none

def Method.refusal : String := "invalid HTTP method"

abbrev HeaderName := String

def HeaderName.ofText? (s : String) : Option HeaderName :=
  if !s.isEmpty && s.toList.all isTokenChar then some s.toLower else none

def HeaderName.refusal : String := "invalid HTTP header name"

structure HeaderValue where
  bytes : Bytes
deriving DecidableEq, Repr, Inhabited

namespace HeaderValue

/-- Tab and every byte from the blank on except DEL. -/
def isValidByte (b : UInt8) : Bool := (0x20 ≤ b && b != 0x7F) || b == 0x09

def isVisibleByte (b : UInt8) : Bool := (0x20 ≤ b && b < 0x7F) || b == 0x09

def ofBytes? (bytes : Bytes) : Option HeaderValue :=
  if bytes.all isValidByte then some ⟨bytes⟩ else none

def ofText? (s : String) : Option HeaderValue := ofBytes? (Utf8.encode s)

def ofText (s : String) : HeaderValue := ⟨Utf8.encode s⟩

/-- Whether a text that is part of the program can be a value. -/
def isStatic (s : String) : Bool := (Utf8.encode s).all isVisibleByte

/-- The value as text, when it is visible ASCII and tabs. -/
def text? (v : HeaderValue) : Option String :=
  if v.bytes.all isVisibleByte then some (String.ofList (v.bytes.map fun b => Char.ofNat b.toNat))
  else none

def refusal : String := "failed to parse header value"

def staticRefusal : String := "HeaderValue::from_static with invalid bytes"

end HeaderValue

structure Headers where
  entries : List (HeaderName × HeaderValue) := []
deriving DecidableEq, Repr, Inhabited

namespace Headers

def empty : Headers := ⟨[]⟩

def getAll (h : Headers) (name : HeaderName) : List HeaderValue :=
  h.entries.filterMap fun (n, v) => if n = name then some v else none

def get? (h : Headers) (name : HeaderName) : Option HeaderValue := (h.getAll name).head?

def contains (h : Headers) (name : HeaderName) : Bool := h.entries.any (·.1 == name)

def append (h : Headers) (name : HeaderName) (value : HeaderValue) : Headers :=
  ⟨h.entries ++ [(name, value)]⟩

def remove (h : Headers) (name : HeaderName) : Headers := ⟨h.entries.filter (·.1 != name)⟩

/-- The one value of a name, in place of all that it had. -/
def insert (h : Headers) (name : HeaderName) (value : HeaderValue) : Headers :=
  (h.remove name).append name value

def appendAll (h other : Headers) : Headers := ⟨h.entries ++ other.entries⟩

def text? (h : Headers) (name : HeaderName) : Option String := (h.get? name).bind (·.text?)

def text (h : Headers) (name : HeaderName) : String := (h.text? name).getD ""

/-- The first value of a name without blanks around it, when something is left. -/
def trimmed? (h : Headers) (name : HeaderName) : Option String :=
  ((h.text? name).map Text.trimBlank).filter (!·.isEmpty)

end Headers

end Gateway
