import Gateway.Exchange.Event
import Gateway.Exchange.Interruption
import Gateway.Http.Render
import Gateway.Json.Parser
import Gateway.Route.Matcher
import Gateway.Text.Percent

/-! The state of one request as it passes through its handlers. -/

namespace Gateway

/-- Why the body of a request is not handed out. -/
inductive BodyError where
  | tooLong
  | malformed
deriving DecidableEq, Repr

/-- The cursor is the place of the next handler; `aborted` keeps further ones from running. The
values of a context are not in it but on a shelf, under its place there. -/
structure Context where
  request : Request := {}
  writer : Writer := {}
  params : Params := []
  fullPath : String := ""
  handlerName : String := ""
  cursor : Nat := 0
  aborted : Bool := false
  place : Nat := 0
  errors : List Report := []
  cancelled : Bool := false
deriving Inhabited

namespace Context

/-- A context as good as new, in place of one that served a request; it keeps its place. -/
def reset (c : Context) : Context :=
  { c with
    request := {}
    writer := {}
    params := []
    fullPath := ""
    handlerName := ""
    cursor := 0
    aborted := false
    errors := []
    cancelled := false }

@[simp] theorem reset_place (c : Context) : c.reset.place = c.place := rfl

def mapWriter (c : Context) (f : Writer → Writer) : Context := { c with writer := f c.writer }

def setStatus (c : Context) (s : Status) : Context := c.mapWriter (·.setStatus s)

def recordError (c : Context) (report : Report) : Context :=
  { c with errors := c.errors ++ [report] }

/-- The response is filled; why that failed is recorded and logged. -/
def render (c : Context) (s : Status) (r : Render) : Context × List Event :=
  let filled := r.fill s c.writer
  ({ c with writer := filled.1, errors := c.errors ++ (filled.2.map .text).toList },
    (filled.2.map .renderFailed).toList)

def abort (c : Context) (s : Status) : Context :=
  if c.aborted then c else ({ c with aborted := true }).setStatus s

/-- The first abort replaces the body. -/
def abortRendering (c : Context) (s : Status) (r : Render) : Context × List Event :=
  if c.aborted then (c, [])
  else (({ c with aborted := true }).mapWriter (·.clearBody)).render s r

def abortWith (c : Context) (s : Status) (body : Json) : Context × List Event :=
  c.abortRendering s (.json body)

/-- The later handlers are left out, and the response stays as it is. -/
def skip (c : Context) : Context := { c with aborted := true }

def takeBody (c : Context) : Context := { c with request := { c.request with body := [] } }

def readBody (c : Context) (limit : Nat) : Except BodyError Bytes :=
  if limit < c.request.body.length then .error .tooLong else .ok c.request.body

def jsonLimit : Nat := 2 * 1024 * 1024

def readJson (c : Context) : Except BodyError Json := do
  let bytes ← c.readBody jsonLimit
  match (Utf8.decode? bytes).bind Json.parse? with
  | some v => .ok v
  | none => .error .malformed

def setRequestHeader (c : Context) (name : HeaderName) (value : HeaderValue) : Context :=
  { c with request := { c.request with headers := c.request.headers.insert name value } }

def setUri (c : Context) (uri : Uri) : Context :=
  { c with request := { c.request with uri } }

def query? (c : Context) (name : String) : Option String :=
  c.request.uri.query.bind fun q => Query.find? q name

/-- An empty value counts as none. -/
def queryOr (c : Context) (name default : String) : String :=
  ((c.query? name).filter (!·.isEmpty)).getD default

end Context

end Gateway
