import Gateway.Handler.Auth

/-! Scopes that a request's claims have to grant. -/

namespace Gateway.Permission

/-- The scopes that a claim grants: the words of its texts, at any depth of lists. -/
def scopes : Json → List String
  | .str s => Text.words s
  | .arr items => scopesOf items
  | _ => []
where
  scopesOf : List Json → List String
    | [] => []
    | v :: vs => scopes v ++ scopesOf vs

def granted (claim : String) (claims : Fields) : List String :=
  ((Fields.get? claims claim).map scopes).getD []

def allows (claim : String) (required : List String) (claims : Fields) : Bool :=
  required.all fun scope => (granted claim claims).contains scope

def refuse : Program :=
  .act (.setHeader "www-authenticate" (.ofText "Bearer error=\"insufficient_scope\"")) <|
  .act (.abort .forbidden) .done

def decision (claim : String) (required : List String) (x : Exchange) : Program :=
  if (x.values.claims? Auth.key).any (allows claim required) then .next .done else refuse

def program (claim : String) (required : List String) : Program :=
  .consult (decision claim required)

def handler (claim : String) (required : List String) : Handler :=
  ⟨"permission", program claim required⟩

end Gateway.Permission
