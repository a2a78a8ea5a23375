import Gateway.Http.Status
import Gateway.Json.Printer

/-! The standard body that tells a client how a request ended. -/

namespace Gateway

/-- What the client reads is the code and the message; `internal` is for the access log. -/
structure StatusBody where
  code : Status
  message : String
  internal : Option String := none
deriving DecidableEq, Repr

namespace StatusBody

def ofStatus (code : Status) : StatusBody := { code, message := code.reason?.getD "Unknown" }

def outcome (b : StatusBody) : String := if b.code.isSuccess then "success" else "error"

def toJson (b : StatusBody) : Json :=
  .obj [("code", .ofNat b.code.code), ("status", .str b.outcome), ("message", .str b.message)]

def text (b : StatusBody) : String :=
  "code=" ++ toString b.code.code ++ ", message=" ++ b.message ++
    (match b.internal with | some cause => ", internal=" ++ cause | none => "")

end StatusBody

end Gateway
