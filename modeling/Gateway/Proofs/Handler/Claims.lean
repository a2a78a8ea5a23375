import Gateway.Handler.Permission

/-! What the claims of an accepted token say, and which scopes they grant. -/

namespace Gateway

namespace Binary64

theorem lt_of_not_le {a b : Binary64} (ha : a ≠ .nan) (hb : b ≠ .nan) (h : ¬ b ≤ a) : a < b := by
  cases hlt : lt a b with
  | true => exact hlt
  | false =>
    refine absurd (show le b a = true from ?_) h
    cases a with
    | nan => exact absurd rfl ha
    | _ =>
      cases b with
      | nan => exact absurd rfl hb
      | _ => simp only [le, hlt, Bool.not_false]

theorem le_of_not_lt {a b : Binary64} (ha : a ≠ .nan) (hb : b ≠ .nan) (h : ¬ b < a) : a ≤ b := by
  by_cases hle : a ≤ b
  · exact hle
  · exact absurd (lt_of_not_le hb ha hle) h

end Binary64

/-- A text that is the value or one of its items, at any depth of lists. -/
inductive Json.Holds (text : String) : Json → Prop
  | text : Holds text (.str text)
  | item {items : List Json} {v : Json} (mem : v ∈ items) (h : Holds text v) :
      Holds text (.arr items)

namespace Auth

/-- The claims name a text as an audience, alone or in a list. -/
def HasAudience (claims : Fields) (aud : String) : Prop :=
  Fields.get? claims "aud" = some (.str aud) ∨
    ∃ items, Fields.get? claims "aud" = some (.arr items) ∧ .str aud ∈ items

/-- What the options ask of claims at a time; only numbers that compare count as numeric. A missing
issuer reads as the empty text. -/
structure Meets (o : AuthOptions) (now : Binary64) (claims : Fields) : Prop where
  unexpired : ∀ exp, number? claims "exp" = some exp → exp ≠ .nan → now ≠ .nan → now < exp
  begun : ∀ nbf, number? claims "nbf" = some nbf → nbf ≠ .nan → now ≠ .nan → nbf ≤ now
  issuer : ∀ wanted, o.issuer = some wanted → wanted.toList <:+: (issuer claims).toList ∧
    (wanted ≠ "" → Fields.get? claims "iss" = some (.str (Auth.issuer claims)))
  audience : o.audiences ≠ [] → ∃ wanted ∈ o.audiences, ∃ aud, HasAudience claims aud ∧
    wanted.toList <:+: aud.toList

section Authenticate

variable {verify : TokenVerifier} {o : AuthOptions} {now : Binary64} {r : Request}

end Authenticate

end Auth

namespace Permission

mutual

theorem holds_of_mem_scopes {scope : String} :
    ∀ v, scope ∈ scopes v → ∃ text, v.Holds text ∧ scope ∈ Text.words text
  | .str s, h => by
    rw [scopes] at h
    exact ⟨s, .text, h⟩
  | .arr items, h => by
    rw [scopes] at h
    obtain ⟨v, hm, text, hv, hw⟩ := holds_of_mem_scopesOf items h
    exact ⟨text, .item hm hv, hw⟩
  | .null, h | .bool _, h | .num _, h | .obj _, h => by simp [scopes] at h

theorem holds_of_mem_scopesOf {scope : String} :
    ∀ items, scope ∈ scopes.scopesOf items →
      ∃ v ∈ items, ∃ text, v.Holds text ∧ scope ∈ Text.words text
  | [], h => by simp [scopes.scopesOf] at h
  | v :: vs, h => by
    rw [scopes.scopesOf] at h
    rcases List.mem_append.mp h with hv | hvs
    · exact ⟨v, List.mem_cons_self, holds_of_mem_scopes v hv⟩
    · obtain ⟨u, hm, ht⟩ := holds_of_mem_scopesOf vs hvs
      exact ⟨u, List.mem_cons_of_mem v hm, ht⟩

end

end Permission

end Gateway
