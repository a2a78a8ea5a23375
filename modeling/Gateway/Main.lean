import Gateway.CommandLine
import Gateway.Router.Dispatch

/-! The program: it reads a configuration and prints the routes that it leads to. -/

open Gateway

def contentOf (path : String) : IO (Option Bytes) := do
  try
    let bytes ← IO.FS.readBinFile path
    return some bytes.toList
  catch _ => return none

def configOf (o : CommandLine.Options) : IO (Except ConfigError Config) := do
  match o.config with
  | none => return .ok {}
  | some path => return Config.load (← contentOf path)

def fail (message : String) : IO UInt32 := do
  IO.eprintln ("Error: " ++ message)
  return 1

def main (args : List String) : IO UInt32 := do
  match CommandLine.parse {} args with
  | .error e => fail e.message
  | .ok o =>
    match ← configOf o with
    | .error e => fail e.message
    | .ok c =>
      match Startup.build { files := fun _ => StaticFiles.ofTree {} [] } c with
      | .error e => fail e.message
      | .ok s =>
        (CommandLine.routeTable s.router.routes).forM IO.println
        if o.check then return 0
        match c.listener.open {} with
        | .error e => fail e.message
        | .ok socket =>
          IO.println socket.text
          return 0
