import Gateway.Exchange.Program

/-! One log entry for each request, written when the rest of the chain has returned. -/

namespace Gateway.AccessLogger

def facts (r : Request) : AccessRecord where
  requestId := r.headers.text "x-request-id"
  remoteIp := r.clientIp
  host := r.uri.host?.getD (r.headers.text "host")
  method := r.method
  uri := r.uri.pathAndQuery?.getD "/"
  userAgent := r.headers.text "user-agent"
  status := .ok
  error := ""
  bytesIn := Writer.announced r.headers
  bytesOut := 0

def errorText (c : Context) : Except Payload String :=
  (c.errors.mapM Report.display).map ("; ".intercalate ·)

/-- The facts with what the chain left behind; an id that the request lacked may be in the
response. -/
def complete (f : AccessRecord) (c : Context) (error : String) : AccessRecord :=
  { f with
    requestId := if f.requestId.isEmpty then c.writer.headers.text "x-request-id" else f.requestId
    status := c.writer.status
    error
    bytesOut := c.writer.size }

def entry (f : AccessRecord) (x : Exchange) : Program :=
  match errorText x.context with
  | .ok error => .act (.emit (.requestCompleted (complete f x.context error))) .done
  | .error p => .panic p

def program : Program :=
  .consult fun before => .next <| .consult (entry (facts before.context.request))

def handler : Handler := ⟨"access_logger", program⟩

end Gateway.AccessLogger
