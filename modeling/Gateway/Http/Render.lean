import Gateway.Http.StatusBody
import Gateway.Http.Writer

/-! Ways to fill a response: values as text, plain text, bytes, redirects, and chunks that may end
in a failure. -/

namespace Gateway

inductive Render where
  | json (value : Json)
  | indented (value : Json) (indent : String)
  | text (body : String)
  | data (contentType : String) (bytes : Bytes)
  | redirect (status : Status) (location : String)
  | chunks (contentType? : Option String) (chunks : List Bytes) (failure : Option String)

namespace Render

def jsonType : String := "application/json; charset=utf-8"

def contentType? : Render → Option String
  | json _ => some jsonType
  | indented .. => some jsonType
  | text _ => some "text/plain; charset=utf-8"
  | data contentType _ => some contentType
  | redirect .. => none
  | chunks contentType? .. => contentType?

/-- The caller's content type is no header value. -/
def mistyped : Render → Bool
  | data contentType _ => !HeaderValue.isStatic contentType
  | chunks (some contentType) .. => !HeaderValue.isStatic contentType
  | _ => false

/-- Four blanks stand for an empty indent. -/
def indentText (indent : String) : String := if indent.isEmpty then "    " else indent

def refusedStatus (s : Status) : String := "cannot redirect with status code " ++ s.text

/-- The body is written; the second part is why that failed. A redirect sets its status and
location or nothing. -/
def run (w : Writer) : Render → Writer × Option String
  | json value => (w.write (Utf8.encode (value.compact ++ "\n")), none)
  | indented value indent => (w.write (Utf8.encode (value.pretty (indentText indent) ++ "\n")), none)
  | text body => (w.write (Utf8.encode body), none)
  | data _ bytes => (w.write bytes, none)
  | redirect status location =>
    if !status.isRedirection && status != .created then (w, some (refusedStatus status))
    else
      match HeaderValue.ofText? location with
      | none => (w, some HeaderValue.refusal)
      | some value => ((w.setStatus status).setHeader "location" value, none)
  | chunks _ cs failure => (cs.foldl Writer.write w, failure)

/-- A writer gets a status, a content type and a body; the second part is why that failed. The body
is left out where the status has none, and one that fails halfway is withdrawn. Nothing follows the
status when there is a content type that cannot be set. -/
def fill (s : Status) (r : Render) (w : Writer) : Writer × Option String :=
  let w := w.setStatus s
  if r.mistyped then (w, none)
  else
    let w := match r.contentType? with
      | some t => w.setHeader "content-type" (.ofText t)
      | none => w
    if !s.allowsBody then (w, none)
    else
      match r.run w with
      | (w, none) => (w, none)
      | (w, some error) => (w.clearBody.setStatus .internalServerError, some error)

end Render

end Gateway
