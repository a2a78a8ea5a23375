import Gateway.Config.Reader
import Gateway.Config.Validation
import Gateway.Text.Utf8
import Gateway.Toml

/-! Configurations from the text of a file. -/

namespace Gateway

inductive ConfigError where
  | unreadable
  | malformed
  | invalid (problems : List Config.Problem)
deriving DecidableEq, Repr

/-- The wording for problems; the other causes are worded by what reads the file. -/
def ConfigError.message : ConfigError → String
  | unreadable => "IO error"
  | malformed => "Parse error"
  | invalid problems => "Validation failed: " ++ ", ".intercalate (problems.map (·.text))

namespace Config

def parse (text : String) : Except ConfigError Config :=
  match (Toml.parse? text).bind (read? .toml) with
  | none => .error .malformed
  | some c => if c.problems.isEmpty then .ok c else .error (.invalid c.problems)

def load (content : Option Bytes) : Except ConfigError Config :=
  match content.bind Utf8.decode? with
  | none => .error .unreadable
  | some text => parse text

end Config

end Gateway
