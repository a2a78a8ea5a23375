import Gateway.Http.Headers
import Gateway.Net.Address

/-! Header fields that belong to one connection, and the list of the hops that a request passed. -/

namespace Gateway.Headers

def hopByHop : List HeaderName :=
  ["connection", "keep-alive", "proxy-connection", "proxy-authenticate", "proxy-authorization",
    "te", "trailer", "transfer-encoding", "upgrade"]

def connectionNames (h : Headers) : List HeaderName :=
  (h.getAll "connection").flatMap fun v =>
    match v.text? with
    | some s =>
      ((Text.pieces ',' s.toList).map fun p => (Text.trimBlank (String.ofList p)).toLower).filter
        (!·.isEmpty)
    | none => []

/-- The fields that do not belong to the connection alone: those that the message names are taken
out, and then those that always belong to it. -/
def withoutHop (h : Headers) : Headers :=
  hopByHop.foldl remove (h.connectionNames.foldl remove h)

/-- The address of the last hop is put at the end of the list in the first field. -/
def appendForwardedFor (h : Headers) (client : String) : Headers :=
  let prior := h.text "x-forwarded-for"
  h.insert "x-forwarded-for"
    (.ofText (if prior.isEmpty then client else prior ++ ", " ++ client))

end Gateway.Headers
