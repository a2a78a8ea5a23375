import Gateway.Files.Range
import Gateway.Files.Tree
import Gateway.Http.Message
import Gateway.Text.Percent

/-! Answering requests for the files below a directory. -/

namespace Gateway

/-- A directory that is served: what is at a path, the answer to a request, and the file that the answer
is made of, if it is, by its names from the top. -/
structure FileServer where
  entry? : FilePath → Option FileEntry
  answer : Request → Response
  served? : Request → Option (List String)

namespace FileServer

/-- The text after the last dot of a name, unless the name starts with it. -/
def extension (name : String) : String :=
  let cs := name.toList
  let ext := (cs.reverse.takeWhile (· != '.')).reverse
  if ext.length + 1 < cs.length then (String.ofList ext).toLower else ""

def mediaType (name : String) : String :=
  match extension name with
  | "css" => "text/css"
  | "html" => "text/html"
  | "txt" => "text/plain"
  | "js" => "text/javascript"
  | "json" => "application/json"
  | _ => "application/octet-stream"

def headers (fields : List (String × String)) : Headers :=
  ⟨fields.map fun (n, v) => (n, .ofText v)⟩

def notFound : Response := { status := .notFound }

/-- The names that a path leads through, decoded; `none` when it leads up or is not text. -/
def names? (path : String) : Option (List String) := do
  let text ← Utf8.decode? (Percent.decode (Utf8.encode (String.ofList (path.toList.dropWhile (· == '/')))))
  if text.toList.head? = some '/' then none
  else
    let parts := PathPart.ofText text.toList
    if parts.contains .up then none else some (parts.filterMap PathPart.name?)

/-- A directory is asked for with a slash at the end. -/
def redirect (uri : Uri) : Response :=
  { status := .temporaryRedirect
    headers := headers [("location",
      Uri.text { uri with rawPath := uri.path ++ "/" })] }

/-- The content of a file, or the one part of it that is asked for. -/
def content (name : String) (bytes : Bytes) (r : Request) : Response :=
  let body (b : Bytes) : Bytes := if r.method = "HEAD" then [] else b
  let size := bytes.length
  let common := [("content-type", mediaType name), ("accept-ranges", "bytes")]
  let refused := common ++ [("content-range", "bytes */" ++ toString size)]
  match r.headers.text? "range" with
  | none =>
    { headers := headers (common ++ [("content-length", toString size)]), body := body bytes }
  | some range =>
    match (RangeSpec.listOfText? range).bind (RangeSpec.listBounds? size) with
    | some [(first, last)] =>
      let length := if size = 0 then 0 else last + 1 - first
      { status := .partialContent
        headers := headers (common ++
          [("content-range", "bytes " ++ toString first ++ "-" ++ toString last ++ "/" ++ toString size),
            ("content-length", toString length)])
        body := body ((bytes.drop first).take length) }
    | some _ =>
      { status := .rangeNotSatisfiable, headers := headers refused
        body := Utf8.encode "Cannot serve multipart range requests" }
    | none => { status := .rangeNotSatisfiable, headers := headers refused }

def file (t : FileTree) (names : List String) (r : Request) : Response :=
  match t.file? names with
  | some bytes => content (names.getLastD "") bytes r
  | none => notFound

def serve (t : FileTree) (root : List String) (r : Request) : Response :=
  match names? r.uri.path with
  | none => notFound
  | some names =>
    let names := root ++ names
    if t.isDirectory names then
      if r.uri.path.toList.getLast? = some '/' then file t (names ++ ["index.html"]) r
      else redirect r.uri
    else file t names r

/-- Where the file is that is asked for. With a slash, a directory is asked for its index file. -/
def place? (t : FileTree) (root : List String) (r : Request) : Option (List String) :=
  match names? r.uri.path with
  | none => none
  | some names =>
    let names := root ++ names
    if t.isDirectory names then
      if r.uri.path.toList.getLast? = some '/' then some (names ++ ["index.html"]) else none
    else some names

def fileFor? (t : FileTree) (root : List String) (r : Request) : Option (List String) :=
  (place? t root r).filter fun names => (t.file? names).isSome

def ofTree (t : FileTree) (root : List String) : FileServer where
  entry? := t.entry?
  answer := serve t root
  served? := fileFor? t root

end FileServer

end Gateway
