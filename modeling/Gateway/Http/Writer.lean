import Gateway.Http.Message

/-! The response under construction. Nothing is sent before it is taken, so a later step may
replace what an earlier one wrote. -/

namespace Gateway

inductive Body where
  | empty
  | buffered (bytes : Bytes)
  | stream (bytes : Bytes)
deriving DecidableEq, Repr, Inhabited

def Body.bytes : Body → Bytes
  | empty => []
  | buffered bytes => bytes
  | stream bytes => bytes

/-- `size` counts all bytes, however many they are; `told` is what is left of that in a word. -/
structure Writer where
  status? : Option Status := none
  headers : Headers := {}
  body : Body := .empty
  size : Nat := 0
deriving DecidableEq, Repr, Inhabited

namespace Writer

def status (w : Writer) : Status := w.status?.getD .ok

def setStatus (w : Writer) (s : Status) : Writer := { w with status? := some s }

def setHeader (w : Writer) (name : HeaderName) (value : HeaderValue) : Writer :=
  { w with headers := w.headers.insert name value }

def appendHeader (w : Writer) (name : HeaderName) (value : HeaderValue) : Writer :=
  { w with headers := w.headers.append name value }

/-- A chunk is added to what is buffered and takes the place of a stream. -/
def write (w : Writer) (chunk : Bytes) : Writer :=
  if chunk.isEmpty then w
  else
    let body := match w.body with
      | .buffered bytes => .buffered (bytes ++ chunk)
      | _ => .buffered chunk
    { w with body, size := w.size + chunk.length }

def announced (h : Headers) : Nat :=
  ((h.text? "content-length").bind lengthOfText?).getD 0
where
  lengthOfText? (s : String) : Option Nat :=
    let digits := match s.toList with
      | '+' :: cs => cs
      | cs => cs
    let n := digits.foldl (fun n c => n * 10 + (c.toNat - 48)) 0
    if !digits.isEmpty && digits.all Char.isDigit && n < 0x10000000000000000 then some n else none

/-- The body is a stream from now on, of the announced size. -/
def writeStream (w : Writer) (bytes : Bytes) : Writer :=
  { w with body := .stream bytes, size := announced w.headers }

/-- A complete response is relayed: its headers are added to those present. -/
def writeResponse (w : Writer) (r : Response) : Writer :=
  { w with status? := some r.status, headers := w.headers.appendAll r.headers }.writeStream r.body

/-- Whether there is a body, if only an empty stream. -/
def written (w : Writer) : Bool := w.body != .empty

/-- The size that others are told. -/
def told (w : Writer) : UInt64 := .ofNat w.size

def clearBody (w : Writer) : Writer := { w with body := .empty, size := 0 }

def response (w : Writer) : Response where
  status := w.status
  headers := w.headers
  body := if w.status.allowsBody then w.body.bytes else []

def take (w : Writer) : Response × Writer := (w.response, {})

end Writer

end Gateway
