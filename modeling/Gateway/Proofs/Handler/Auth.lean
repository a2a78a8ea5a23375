import Gateway.Proofs.Exchange.Answer
import Gateway.Proofs.Exchange.Gate
import Gateway.Proofs.Exchange.Place
import Gateway.Proofs.Handler.Claims
import Gateway.Proofs.Http.Headers
import Gateway.Proofs.Values.Store

/-! Bearer authentication in a chain: claims that are found under its key are those of a token that
it accepted in the same run, and it lets nobody through without them. -/

namespace Gateway

open Machine

namespace Auth

/-- An operation that stores no claims under the key. -/
def Modest : Operation → Prop
  | .setValue name (.claims _) => name ≠ key
  | .setHeld _ name (.claims _) => name ≠ key
  | _ => True

variable {verify : TokenVerifier} {o : AuthOptions} {chain : Chain} {a : Nat}

/-- Extractor and verifier come to a result: neither panics, and nobody gives up on the verifier. -/
structure Answers (verify : TokenVerifier) (o : AuthOptions) : Prop where
  extractor : ∀ r, ∃ token, o.extractor r = .ok token
  verifier : ∀ token, ∃ claims, verify token = .ok claims

def refused (e : AuthError) (x : Exchange) : Exchange :=
  (Operation.abortWith .unauthorized (body e).toJson).apply
    ((Operation.setHeader "www-authenticate" (.ofText e.challenge)).apply x)

end Auth

end Gateway
