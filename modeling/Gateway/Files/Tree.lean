import Gateway.Text.Split
import Gateway.Text.Utf8

/-! A tree of files, and paths in it. -/

namespace Gateway

/-- A path below the top of a tree. One that ends in a slash or a dot names a directory only. -/
structure FilePath where
  names : List String
  directory : Bool := false
deriving DecidableEq, Repr, Inhabited

inductive PathPart where
  | normal (name : String)
  | here
  | up
deriving DecidableEq, Repr

namespace PathPart

/-- The parts of a relative path. Empty parts do not count, nor do dots after the first part. -/
def ofText (path : List Char) : List PathPart :=
  match Text.pieces '/' path with
  | [] => []
  | first :: rest => read true first ++ rest.flatMap (read false)
where
  read (first : Bool) (part : List Char) : List PathPart :=
    if part = [] then []
    else if part = ['.'] then (if first then [here] else [])
    else if part = ['.', '.'] then [up]
    else [normal (String.ofList part)]

def name? : PathPart → Option String
  | normal name => some name
  | _ => none

end PathPart

inductive FileEntry where
  | file (content : Bytes)
  | directory
deriving DecidableEq, Repr

/-- Files and directories by their names from the top; every start of such a path is a directory. -/
structure FileTree where
  files : List (List String × Bytes) := []
  directories : List (List String) := []
deriving Repr, Inhabited

namespace FileTree

def isDirectory (t : FileTree) (names : List String) : Bool :=
  names.isEmpty || t.directories.any names.isPrefixOf ||
    t.files.any fun (path, _) => names.length < path.length && names.isPrefixOf path

def file? (t : FileTree) (names : List String) : Option Bytes :=
  (t.files.find? (·.1 == names)).map (·.2)

def entry? (t : FileTree) (p : FilePath) : Option FileEntry :=
  if t.isDirectory p.names then some .directory
  else if p.directory then none
  else (t.file? p.names).map .file

end FileTree

end Gateway
