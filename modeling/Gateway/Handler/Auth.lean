import Gateway.Exchange.Program
import Gateway.Text.Percent
import Gateway.Text.Quoted

/-! Bearer tokens: where a request carries one, which claims it stands for, and the conditions on
the claims. -/

namespace Gateway

inductive AuthError where
  | tokenRequired
  | invalidRequest
  | invalidToken (reason : String)
deriving DecidableEq, Repr

namespace AuthError

def message : AuthError → String
  | tokenRequired => "token_required"
  | invalidRequest => "invalid_request"
  | invalidToken reason => "invalid_token: " ++ reason

def challenge : AuthError → String
  | tokenRequired => "Bearer realm=\"token_required\""
  | invalidRequest => "Bearer error=\"invalid_request\""
  | invalidToken _ => "Bearer error=\"invalid_token\""

end AuthError

/-- Finds the token of a request: after a scheme in a header, in the query, or in a way of its own,
which may panic. -/
abbrev TokenExtractor := Request → Except Payload (Except AuthError String)

namespace TokenExtractor

/-- A header that is not readable counts as absent, and the case of the scheme does not count. -/
def header (scheme : String) : TokenExtractor := fun r =>
  let value := r.headers.text "authorization"
  if value.isEmpty then .ok (.error .tokenRequired)
  else
    match Text.words value with
    | [s, token] =>
      if s.toLower = scheme.toLower then .ok (.ok token) else .ok (.error .invalidRequest)
    | _ => .ok (.error .invalidRequest)

def parameter (name : String) : TokenExtractor := fun r =>
  match (Query.find? (r.uri.query.getD "") name).filter (!·.isEmpty) with
  | some token => .ok (.ok token)
  | none => .ok (.error .tokenRequired)

end TokenExtractor

/-- Finds out what a token stands for. That may take any time, so it may be interrupted. -/
abbrev TokenVerifier := String → Except Interruption (Except AuthError Fields)

def TokenVerifier.ofTable (tokens : List (String × Fields)) : TokenVerifier := fun token =>
  match tokens.find? (·.1 == token) with
  | some (_, claims) => .ok (.ok claims)
  | none => .ok (.error (.invalidToken "unknown token"))

/-- The issuer has to contain a text, and some audience one of the accepted texts. -/
structure AuthOptions where
  issuer : Option String := none
  audiences : List String := []
  enableOptions : Bool := false
  extractor : TokenExtractor := .header "bearer"

namespace Auth

def key : String := "auth_key"

def contains (text part : String) : Bool := Text.occursIn part.toList text.toList

/-- The texts of an audience claim, which may be one text or a list. -/
def audiences (claims : Fields) : List String :=
  match Fields.get? claims "aud" with
  | some (.str aud) => [aud]
  | some (.arr items) => items.filterMap Json.text?
  | _ => []

def issuer (claims : Fields) : String := ((Fields.get? claims "iss").bind Json.text?).getD ""

def number? (claims : Fields) (name : String) : Option Binary64 :=
  (Fields.get? claims name).bind Json.real?

/-- The conditions on claims, in the order in which they are checked. -/
def check (o : AuthOptions) (now : Binary64) (claims : Fields) : Except AuthError Unit :=
  if (number? claims "exp").any fun exp => decide (exp ≤ now) then
    .error (.invalidToken "token is expired")
  else if (number? claims "nbf").any fun nbf => decide (now < nbf) then
    .error (.invalidToken "token is not valid yet")
  else if o.issuer.any fun wanted => !contains (issuer claims) wanted then
    .error (.invalidToken ("invalid issuer " ++ Text.quoted (issuer claims)))
  else if !o.audiences.isEmpty &&
      !(o.audiences.any fun wanted => (audiences claims).any fun aud => contains aud wanted) then
    .error (.invalidToken "no accepted audience")
  else .ok ()

/-- The claims of a request or why it is refused, if it comes to that. -/
def authenticate (verify : TokenVerifier) (o : AuthOptions) (now : Binary64) (r : Request) :
    Except Interruption (Except AuthError Fields) := do
  match ← (o.extractor r).mapError .panic with
  | .error e => return .error e
  | .ok token =>
    match ← verify token with
    | .error e => return .error e
    | .ok claims => return (check o now claims).map fun _ => claims

def body (e : AuthError) : StatusBody := { code := .unauthorized, message := e.message }

def refuse (e : AuthError) : Program :=
  .act (.setHeader "www-authenticate" (.ofText e.challenge)) <|
  .act (.abortWith .unauthorized (body e).toJson) .done

def decision (verify : TokenVerifier) (o : AuthOptions) (x : Exchange) : Program :=
  if !o.enableOptions && x.context.request.method == "OPTIONS" then .next .done
  else
    match authenticate verify o x.world.now x.context.request with
    | .ok (.ok claims) => .act (.setValue key (.claims claims)) (.next .done)
    | .ok (.error e) => refuse e
    | .error why => .interrupt why

def program (verify : TokenVerifier) (o : AuthOptions) : Program := .consult (decision verify o)

def handler (verify : TokenVerifier) (o : AuthOptions) : Handler := ⟨"auth", program verify o⟩

end Auth

end Gateway
