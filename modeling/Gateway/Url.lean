import Gateway.Url.Host

/-! Absolute URLs, read as browsers read them and written in their normal form. -/

namespace Gateway

/-- `slashes` tells whether `//` stands before the host, which may be empty. -/
structure Url where
  scheme : String
  slashes : Bool := false
  username : String := ""
  password : Option String := none
  host : Option String := none
  port : Option Nat := none
  path : String := ""
  query : Option String := none
  fragment : Option String := none
deriving DecidableEq, Repr, Inhabited

namespace Url

def defaultPort? : String → Option Nat
  | "http" => some 80
  | "ws" => some 80
  | "https" => some 443
  | "wss" => some 443
  | "ftp" => some 21
  | _ => none

def isSpecial (scheme : String) : Bool := (defaultPort? scheme).isSome

def isControl (c : Char) : Bool := c.toNat < 0x20 || c.toNat == 0x7F

def escapeInFragment (c : Char) : Bool := isControl c || " \"<>\x60".toList.contains c

def escapeInPath (c : Char) : Bool := escapeInFragment c || "#?\x7b\x7d".toList.contains c

def escapeInUser (c : Char) : Bool := escapeInPath c || "/:;=@[\\]^|".toList.contains c

def escapeInQuery (special : Bool) (c : Char) : Bool :=
  isControl c || " \"#<>".toList.contains c || (special && c == '\'')

def encode (mustEscape : Char → Bool) (s : List Char) : String :=
  String.ofList (Percent.encode mustEscape s)

def isDrop (c : Char) : Bool := c == '\t' || c == '\n' || c == '\r'

/-- Blanks and controls around a URL and tabs and line ends inside it do not count. -/
def relevant (text : List Char) : List Char :=
  (Text.trim (fun c => c.toNat ≤ 0x20) text).filter (!isDrop ·)

/-- A scheme in lower case, and what follows its colon. -/
def scheme? (s : List Char) : Option (String × List Char) :=
  let name := s.takeWhile fun c => c.isAlphanum || c == '+' || c == '-' || c == '.'
  match s.drop name.length with
  | ':' :: rest =>
    if (name.head?.any Char.isAlpha) then some (String.ofList (name.map Char.toLower), rest) else none
  | _ => none

def isSlash (special : Bool) (c : Char) : Bool := c == '/' || (special && c == '\\')

def splitSegments (special : Bool) (s : List Char) : List (List Char) :=
  Text.pieces '/' (s.map fun c => if isSlash special c then '/' else c)

def lowerText (s : List Char) : String := String.ofList (s.map Char.toLower)

def isSingleDot (s : List Char) : Bool := [".", "%2e"].contains (lowerText s)

def isDoubleDot (s : List Char) : Bool :=
  ["..", "%2e.", ".%2e", "%2e%2e"].contains (lowerText s)

/-- The names of drives, with a colon or a bar. -/
def isDriveLetter (s : List Char) : Bool :=
  match s with
  | [c, d] => c.isAlpha && (d == ':' || d == '|')
  | _ => false

/-- The segments above the last one; a drive has none above it. -/
def parent (file : Bool) : List (List Char) → List (List Char)
  | s :: rest => if file && isDriveLetter s then s :: rest else rest
  | [] => []

/-- A segment below those kept; a drive at the top of a file's path is written with a colon. -/
def below (file : Bool) (s : List Char) (kept : List (List Char)) : List (List Char) :=
  if file && kept.isEmpty && isDriveLetter s then (s.take 1 ++ [':']) :: kept else s :: kept

/-- Dot segments resolved; a dot segment at the end leaves an empty one. The last segment of
`kept` is first. -/
def resolveSegments (file : Bool) : (kept segments : List (List Char)) → List (List Char)
  | kept, [] => kept.reverse
  | kept, s :: rest =>
    let kept :=
      if isDoubleDot s then
        (if rest.isEmpty then [] :: parent file kept else parent file kept)
      else if isSingleDot s then (if rest.isEmpty then [] :: kept else kept)
      else below file s kept
    resolveSegments file kept rest

/-- The normal form of a path, given after its first slash. -/
def normalPath (special file : Bool) (s : List Char) : String :=
  let segments := (resolveSegments file [] (splitSegments special s)).map (Percent.encode escapeInPath)
  String.ofList ('/' :: ['/'].intercalate segments)

/-- Path, query and fragment of a text, still as written. -/
def splitTail (s : List Char) : List Char × Option (List Char) × Option (List Char) :=
  let path := s.takeWhile fun c => c != '?' && c != '#'
  match s.drop path.length with
  | '?' :: rest =>
    let query := rest.takeWhile (· != '#')
    (path, some query, match rest.drop query.length with | '#' :: f => some f | _ => none)
  | '#' :: f => (path, none, some f)
  | _ => (path, none, none)

def withTail (u : Url) (query fragment : Option (List Char)) : Url :=
  { u with
    query := query.map (encode (escapeInQuery (isSpecial u.scheme || u.scheme == "file")))
    fragment := fragment.map (encode escapeInFragment) }

/-- User name and password, encoded; a password that is empty is none. -/
def userInfo (s : List Char) : String × Option String :=
  match Text.cut ':' s with
  | some (user, password) =>
    (encode escapeInUser user, if password.isEmpty then none else some (encode escapeInUser password))
  | none => (encode escapeInUser s, none)

/-- A port that is the default of the scheme is left out. -/
def readPort (scheme : String) (s : List Char) : Except UrlError (Option Nat) :=
  let n := s.foldl (fun n c => n * 10 + (c.toNat - 48)) 0
  if !s.all Char.isDigit || 65535 < n then .error .invalidPort
  else if s.isEmpty || some n = defaultPort? scheme then .ok none
  else .ok (some n)

/-- Host and port of an authority; colons in brackets belong to the host. -/
def splitPort (s : List Char) : List Char × Option (List Char) :=
  let rec go (inside : Bool) : List Char → List Char × Option (List Char)
    | [] => ([], none)
    | c :: cs =>
      if c = ':' && !inside then ([], some cs)
      else
        let (host, port) := go (if c = '[' then true else if c = ']' then false else inside) cs
        (c :: host, port)
  go false s

/-- What stands before the last `@` of an authority, and its host and port. -/
def splitUser (authority : List Char) : Option (List Char) × List Char :=
  let hostPart := (authority.reverse.takeWhile (· != '@')).reverse
  if hostPart.length < authority.length then
    (some (authority.take (authority.length - hostPart.length)).dropLast, hostPart)
  else (none, hostPart)

def parseHost (special : Bool) (text : List Char) : Except UrlError String :=
  if special then if text.isEmpty then .error .emptyHost else Host.parse text
  else Host.parseOpaque text

def parsePort (scheme : String) : Option (List Char) → Except UrlError (Option Nat)
  | some digits => readPort scheme digits
  | none => .ok none

def refuse (bad : Bool) (e : UrlError) : Except UrlError Unit := if bad then .error e else .ok ()

/-- The path after an authority, as it was written. -/
def pathBelow (special : Bool) : List Char → String
  | c :: cs =>
    if isSlash special c then normalPath special false cs else normalPath special false (c :: cs)
  | [] => if special then "/" else ""

def parseAuthority (scheme : String) (s : List Char) : Except UrlError Url := do
  let special := isSpecial scheme
  let authority := s.takeWhile fun c => !isSlash special c && c != '?' && c != '#'
  let rest := s.drop authority.length
  let user := (splitUser authority).1
  let place := splitPort (splitUser authority).2
  let credentials := (user.map userInfo).getD ("", none)
  let _ ← refuse (user.any fun user =>
    (splitUser authority).2.isEmpty && (special || user.isEmpty && !rest.isEmpty)) .emptyHost
  let host ← parseHost special place.1
  let _ ← refuse (host.isEmpty &&
    (place.2.isSome || !credentials.1.isEmpty || credentials.2.isSome)) .emptyHost
  let port ← parsePort scheme place.2
  let tail := splitTail rest
  return withTail { scheme, slashes := true, username := credentials.1, password := credentials.2,
                    host := if host.isEmpty then none else some host, port,
                    path := pathBelow special tail.1 } tail.2.1 tail.2.2

/-- Leading empty segments of a file's path do not count. -/
def filePath (s : List Char) : String :=
  let path := normalPath true true (match s with | c :: cs => if isSlash true c then cs else s | [] => [])
  String.ofList ('/' :: path.toList.dropWhile (· == '/'))

def parseFile (s : List Char) : Except UrlError Url := do
  match s with
  | a :: b :: rest =>
    if isSlash true a && isSlash true b then
      let hostText := rest.takeWhile fun c => !isSlash true c && c != '?' && c != '#'
      if isDriveLetter hostText then
        let (path, query, fragment) := splitTail rest
        return withTail { scheme := "file", slashes := true, path := filePath path } query fragment
      let host ← if hostText.isEmpty then pure "" else Host.parse hostText
      let (path, query, fragment) := splitTail (rest.drop hostText.length)
      let host := if host.isEmpty || host = "localhost" then none else some host
      return withTail { scheme := "file", slashes := true, host, path := filePath path }
        query fragment
  | _ => pure ()
  let (path, query, fragment) := splitTail s
  return withTail { scheme := "file", slashes := true, path := filePath path } query fragment

def parse (text : String) : Except UrlError Url :=
  match scheme? (relevant text.toList) with
  | none => .error .relativeWithoutBase
  | some (scheme, rest) =>
    if scheme = "file" then parseFile rest
    else if isSpecial scheme then
      parseAuthority scheme (rest.dropWhile fun c => c == '/' || c == '\\')
    else
      match rest with
      | '/' :: '/' :: s => parseAuthority scheme s
      | _ =>
        let (path, query, fragment) := splitTail rest
        let path :=
          match path with
          | '/' :: cs => normalPath false false cs
          | cs => encode isControl cs
        .ok (withTail { scheme, path } query fragment)

def text (u : Url) : String :=
  u.scheme ++ ":" ++ (if u.slashes then "//" else "") ++ u.username ++
    (match u.password with | some p => ":" ++ p | none => "") ++
    (if u.username.isEmpty && u.password.isNone then "" else "@") ++ u.host.getD "" ++
    (match u.port with | some p => ":" ++ toString p | none => "") ++ u.path ++
    (match u.query with | some q => "?" ++ q | none => "") ++
    (match u.fragment with | some f => "#" ++ f | none => "")

end Url

end Gateway
