import Gateway.Exchange.Program
import Gateway.Files.Serve

/-! Serving the files of a directory under a route whose parameter is the path of the file. -/

namespace Gateway.StaticFiles

def parameter : String := "filepath"

/-- The path of a file below the root, unless it leads up or starts with a dot. -/
def resolve? (root : List String) (file : String) : Option FilePath :=
  let cs := file.toList.dropWhile (· == '/')
  let parts := PathPart.ofText cs
  if parts.all (·.name?.isSome) then
    let last := (Text.pieces '/' cs).getLastD []
    some ⟨root ++ parts.filterMap PathPart.name?, last = [] || last = ['.']⟩
  else none

/-- The path of the request that stands for the parameter, still encoded, with the query. -/
def delegatedUri? (raw : String) (uri : Uri) : Option Uri :=
  let path := "/" ++ String.ofList (raw.toList.dropWhile (· == '/'))
  let text := match uri.query with
    | some q => path ++ "?" ++ q
    | none => path
  match Uri.parse text with
  | .ok u => some u
  | .error _ => none

def decode? (raw : String) : Option String := Utf8.decode? (Percent.decode (Utf8.encode raw))

def delegated? (s : FileServer) (root : List String) (raw : String) (r : Request) :
    Option Request := do
  let path ← resolve? root (← decode? raw)
  let _ ← s.entry? path
  let uri ← delegatedUri? raw r.uri
  return { r with uri }

def program (s : FileServer) (root : List String) : Program :=
  .consult fun x =>
    match delegated? s root (x.context.params.value parameter) x.context.request with
    | none => .act (.abort .notFound) .done
    | some r => .act .takeBody <| .act (.writeResponse (s.answer r)) .done

def handler (s : FileServer) (root : List String) : Handler := ⟨"static_files", program s root⟩

def ofTree (t : FileTree) (root : List String) : Handler := handler (.ofTree t root) root

end Gateway.StaticFiles
