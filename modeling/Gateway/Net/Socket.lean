import Gateway.Error

/-! Opening the socket on which requests arrive, and the files that an encrypted one needs. -/

namespace Gateway

/-- What stands at a path: nothing, a file, a directory, or a socket that is served or not. -/
inductive SocketEntry where
  | absent
  | file
  | directory
  | live
  | dead
deriving DecidableEq, Repr

/-- What the host has at a path, whether the directory of a path is there, and its readable
files. -/
structure Host where
  entry : String → SocketEntry := fun _ => .absent
  hasParent : String → Bool := fun _ => true
  hasFile : String → Bool := fun _ => false

inductive Socket where
  | tcp (address : SocketAddr)
  | unix (path : String)
deriving DecidableEq, Repr

namespace Socket

def maxPath : Nat := 107

/-- What is left at a path before binding: all but a directory and a socket that is served is
removed. -/
def clearStale : SocketEntry → SocketEntry
  | .live => .live
  | .directory => .directory
  | _ => .absent

def cleanup : SocketEntry → SocketEntry
  | .directory => .directory
  | _ => .absent

def bindUnix (host : Host) (path : String) : Except ListenerError Socket :=
  if maxPath < (Utf8.encode path).length then
    .error (.bind path "path must be shorter than SUN_LEN")
  else if clearStale (host.entry path) ≠ .absent then
    .error (.bind path "Address already in use (os error 98)")
  else if !host.hasParent path then
    .error (.bind path "No such file or directory (os error 2)")
  else .ok (.unix path)

def bindTcp (text : String) : Except ListenerError Socket :=
  match SocketAddr.parse? text with
  | some address => .ok (.tcp address)
  | none => .error (.address text)

/-- A path is preferred to an address. -/
def bind (host : Host) (c : Config.Listener) : Except ListenerError Socket :=
  match c.unixSocket with
  | some path => bindUnix host path
  | none => bindTcp c.bindAddress

def text : Socket → String
  | tcp address => address.text
  | unix path => "unix:" ++ path

/-- What is at the path of a socket once an attempt to bind it is over and its owner gone. -/
def leftover (host : Host) (path : String) : SocketEntry :=
  match bindUnix host path with
  | .ok _ => .dead
  | .error _ => clearStale (host.entry path)

end Socket

/-- The files of a certificate and its key have to be there and hold what their names say. -/
def Config.Tls.refusal (host : Host) (t : Config.Tls) : String :=
  if !host.hasFile t.certPath then "Certificate file not found: " ++ t.certPath
  else if !host.hasFile t.keyPath then "Private key file not found: " ++ t.keyPath
  else "private key format not supported"

def Config.Listener.open (host : Host) (c : Config.Listener) : Except GatewayError Socket :=
  match c.tls with
  | some tls => .error (.tls (tls.refusal host))
  | none =>
    match Socket.bind host c with
    | .ok l => .ok l
    | .error e => .error (.listener e)

end Gateway
