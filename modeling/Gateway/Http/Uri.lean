import Gateway.Text.Split
import Gateway.Text.Utf8

/-! Request targets: a path with an optional query, an absolute URI, a bare authority, or `*`. -/

namespace Gateway

/-- The path is kept as it was written and may be empty. -/
structure Uri where
  scheme : Option String := none
  authority : Option String := none
  rawPath : String := "/"
  query : Option String := none
deriving DecidableEq, Repr, Inhabited

inductive UriError where
  | invalidChar
  | invalidAuthority
  | invalidFormat
  | schemeMissing
  | tooLong
  | empty
  | schemeTooLong
deriving DecidableEq, Repr

def UriError.message : UriError → String
  | invalidChar => "invalid uri character"
  | invalidAuthority => "invalid authority"
  | invalidFormat => "invalid format"
  | schemeMissing => "scheme missing"
  | tooLong => "uri too long"
  | empty => "empty string"
  | schemeTooLong => "scheme too long"

namespace Uri

def written (u : Uri) : String :=
  match u.query with
  | some q => u.rawPath ++ "?" ++ q
  | none => u.rawPath

/-- An empty path reads as `/`, except in a bare authority. -/
def path (u : Uri) : String :=
  if u.rawPath.isEmpty then
    if u.query.isSome || u.scheme.isSome then "/" else ""
  else u.rawPath

def pathAndQuery? (u : Uri) : Option String :=
  if u.scheme.isSome || u.authority.isNone then
    some (if u.written.isEmpty then "/" else u.written)
  else none

/-- The host of the authority; an address in brackets keeps them. -/
def host? (u : Uri) : Option String :=
  u.authority.map fun a =>
    let afterUser := (Text.pieces '@' a.toList).getLastD []
    match afterUser with
    | '[' :: _ => String.ofList (afterUser.takeWhile (· != ']') ++ [']'])
    | cs => String.ofList (cs.takeWhile (· != ':'))

def text (u : Uri) : String :=
  (match u.scheme with | some s => s ++ "://" | none => "") ++ u.authority.getD "" ++ u.path ++
    (match u.query with | some q => "?" ++ q | none => "")

/-- Characters of a path; all beyond ASCII are among them. -/
def isPathChar (c : Char) : Bool :=
  let n := c.toNat
  n == 0x21 || n == 0x22 || (0x24 ≤ n && n ≤ 0x3B) || n == 0x3D || (0x40 ≤ n && n ≤ 0x5F) ||
    (0x61 ≤ n && n ≤ 0x7B) || 0x7C ≤ n

def isQueryChar (c : Char) : Bool :=
  let n := c.toNat
  n == 0x21 || (0x24 ≤ n && n ≤ 0x3B) || n == 0x3D || 0x3F ≤ n

def parsePathAndQuery (s : List Char) : Except UriError (String × Option String) :=
  let path := s.takeWhile fun c => c != '?' && c != '#'
  if !path.all isPathChar then .error .invalidChar
  else
    match s.drop path.length with
    | '?' :: rest =>
      let query := rest.takeWhile (· != '#')
      if query.all isQueryChar then .ok (String.ofList path, some (String.ofList query))
      else .error .invalidChar
    | _ => .ok (String.ofList path, none)

def isAuthorityChar (c : Char) : Bool :=
  c.isAlphanum || "!$&'()*+,-.:;=@[]_~".toList.contains c

structure AuthorityScan where
  colons : Nat := 0
  opened : Bool := false
  closed : Bool := false
  percent : Bool := false

/-- Colons and escapes before an `@` or inside brackets do not count. -/
def AuthorityScan.step (s : AuthorityScan) (c : Char) : Except UriError AuthorityScan :=
  if c = ':' then
    if 8 ≤ s.colons then .error .invalidAuthority else .ok { s with colons := s.colons + 1 }
  else if c = '[' then
    if s.percent || s.opened then .error .invalidAuthority else .ok { s with opened := true }
  else if c = ']' then
    if !s.opened || s.closed then .error .invalidAuthority
    else .ok { s with closed := true, colons := 0, percent := false }
  else if c = '@' then .ok { s with colons := 0, percent := false }
  else if c = '%' then .ok { s with percent := true }
  else if isAuthorityChar c then .ok s
  else .error .invalidChar

def takeAuthority (s : List Char) : Except UriError (List Char × List Char) :=
  let authority := s.takeWhile fun c => c != '/' && c != '?' && c != '#'
  match authority.foldlM AuthorityScan.step {} with
  | .error e => .error e
  | .ok scan =>
    if scan.opened != scan.closed || 1 < scan.colons || authority.getLast? = some '@' ||
        scan.percent then .error .invalidAuthority
    else .ok (authority, s.drop authority.length)

def isSchemeChar (c : Char) : Bool :=
  c.isAlphanum || c == '+' || c == '-' || c == '.'

def takeScheme (s : List Char) : Except UriError (Option (String × List Char)) :=
  let known (name : String) : Option (List Char) :=
    let mark := name.toList ++ "://".toList
    if (s.take mark.length).map Char.toLower = mark then some (s.drop mark.length) else none
  match known "http", known "https" with
  | some rest, _ => .ok (some ("http", rest))
  | none, some rest => .ok (some ("https", rest))
  | none, none =>
    let name := s.takeWhile isSchemeChar
    match s.drop name.length with
    | ':' :: '/' :: '/' :: rest =>
      if s.length ≤ 3 then .ok none
      else if 64 < name.length then .error .schemeTooLong
      else .ok (some (String.ofList name, rest))
    | _ => .ok none

def parseFull (s : List Char) : Except UriError Uri := do
  match ← takeScheme s with
  | none =>
    let (authority, rest) ← takeAuthority s
    if rest.isEmpty then
      return { authority := some (String.ofList authority), rawPath := "" }
    else throw .invalidFormat
  | some (scheme, s) =>
    let (authority, rest) ← takeAuthority s
    if authority.isEmpty then throw .invalidFormat
    else
      let (path, query) ← parsePathAndQuery rest
      return { scheme := some scheme, authority := some (String.ofList authority),
               rawPath := path, query }

def parse (text : String) : Except UriError Uri :=
  if 65534 < (Utf8.encode text).length then .error .tooLong
  else
    match text.toList with
    | [] => .error .empty
    | ['*'] => .ok { rawPath := "*" }
    | [c] =>
      if c = '/' then .ok {}
      else do
        let (authority, rest) ← takeAuthority [c]
        if rest.isEmpty then return { authority := some (String.ofList authority), rawPath := "" }
        else throw .invalidChar
    | '/' :: rest => do
      let (path, query) ← parsePathAndQuery ('/' :: rest)
      return { rawPath := path, query }
    | s => parseFull s

/-- The URI with another path and query. A bare authority can have neither. -/
def withPathAndQuery (u : Uri) (text : String) : Except UriError Uri := do
  if 65534 < (Utf8.encode text).length then throw .tooLong
  let (path, query) ← parsePathAndQuery text.toList
  if u.scheme.isNone && u.authority.isSome then throw .schemeMissing
  return { u with rawPath := path, query }

end Uri

end Gateway
