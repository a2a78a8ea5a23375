import Gateway.Proofs.Http.Uri
import Gateway.Proofs.Url.Host
import Gateway.Url

/-! The parts of a URL as it was read. None has a character in it at which it would end, so they can be
written one after another and told apart again. -/

namespace Gateway

theorem Percent.forall_mem_encode {P : Char → Prop} (percent : P '%')
    (digit : ∀ n < 16, P (Hex.upperDigit n)) {mustEscape : Char → Bool}
    (kept : ∀ c, mustEscape c = false → P c) (text : List Char) :
    ∀ c ∈ encode mustEscape text, P c := by
  intro c hc
  obtain ⟨d, -, hc⟩ := List.mem_flatMap.mp hc
  split at hc
  · obtain ⟨b, -, hc⟩ := List.mem_flatMap.mp hc
    have hb : b.toNat < 256 := b.toNat_lt
    have hescape : ∀ c ∈ escape b, P c := by
      simp only [escape, List.forall_mem_cons]
      exact ⟨percent, digit _ (by omega), digit _ (by omega), nofun⟩
    exact hescape c hc
  · next hd =>
    obtain rfl := List.mem_singleton.mp hc
    exact kept c (Bool.eq_false_iff.mpr (not_or.mp (mt Bool.or_eq_true_iff.mpr hd)).2)

namespace Url

/-- A URL, none of whose parts has a character in it that ends the part. -/
structure Separable (u : Url) : Prop where
  host : ∀ host ∈ u.host, ∀ c ∈ host.toList, c ≠ '/' ∧ c ≠ '?' ∧ c ≠ '#'
  path : ∃ rest, u.path = String.ofList ('/' :: rest) ∧ ∀ c ∈ rest, c ≠ '?' ∧ c ≠ '#'
  query : ∀ query ∈ u.query, '#' ∉ query.toList

/-! ### Each part -/

theorem host_separable {s : List Char} {host : String} (h : Host.parse s = .ok host) :
    ∀ c ∈ host.toList, c ≠ '/' ∧ c ≠ '?' ∧ c ≠ '#' := by
  intro c hc
  have hallowed := Host.allowed_of_parse h c hc
  refine ⟨?_, ?_, ?_⟩ <;> rintro rfl <;> exact absurd hallowed (by decide)

theorem separable_of_parseHost {s : List Char} {host : String} (h : parseHost true s = .ok host) :
    ∀ c ∈ host.toList, c ≠ '/' ∧ c ≠ '?' ∧ c ≠ '#' := by
  rw [parseHost, if_pos rfl] at h
  split at h
  · cases h
  · exact host_separable h

theorem normalPath_separable (special file : Bool) (s : List Char) :
    ∃ rest, normalPath special file s = String.ofList ('/' :: rest) ∧
      ∀ c ∈ rest, c ≠ '?' ∧ c ≠ '#' := by
  refine ⟨_, rfl, fun c hc => ?_⟩
  rcases Text.mem_intercalate hc with hc | ⟨segment, hsegment, hc⟩
  · obtain rfl := List.mem_singleton.mp hc
    decide
  · obtain ⟨written, -, rfl⟩ := List.mem_map.mp hsegment
    refine Percent.forall_mem_encode (P := fun c => c ≠ '?' ∧ c ≠ '#') (by decide) (by decide)
      (fun c hc => ⟨?_, ?_⟩) written c hc <;> rintro rfl <;> revert hc <;> decide

theorem encode_query_separable (special : Bool) (s : List Char) :
    '#' ∉ (encode (escapeInQuery special) s).toList := by
  rw [encode, String.toList_ofList]
  intro h
  refine Percent.forall_mem_encode (P := (· ≠ '#')) (by decide) (by decide) (fun c hc => ?_) s _ h rfl
  rintro rfl
  revert hc
  cases special <;> decide

theorem query_withTail_separable {u : Url} {query fragment : Option (List Char)} :
    ∀ q ∈ (withTail u query fragment).query, '#' ∉ q.toList := by
  rintro q hq
  obtain ⟨written, -, rfl⟩ := Option.map_eq_some_iff.mp hq
  exact encode_query_separable _ _

theorem pathBelow_separable (s : List Char) :
    ∃ rest, pathBelow true s = String.ofList ('/' :: rest) ∧ ∀ c ∈ rest, c ≠ '?' ∧ c ≠ '#' := by
  unfold pathBelow
  split
  · split <;> exact normalPath_separable _ _ _
  · exact ⟨[], rfl, nofun⟩

/-! ### The whole -/

theorem separable_of_parseAuthority {scheme : String} {s : List Char} {u : Url}
    (special : isSpecial scheme = true) (h : parseAuthority scheme s = .ok u) : u.Separable := by
  obtain ⟨_, -, h⟩ := bind_eq_ok h
  obtain ⟨host, hhost, h⟩ := bind_eq_ok h
  obtain ⟨_, -, h⟩ := bind_eq_ok h
  obtain ⟨port, -, h⟩ := bind_eq_ok h
  obtain rfl := Except.ok.inj h
  refine ⟨?_, ?_, ?_⟩
  · intro name hname
    dsimp only [withTail] at hname
    split at hname
    · cases hname
    · obtain rfl := Option.some.inj hname
      exact separable_of_parseHost (special ▸ hhost)
  · dsimp only [withTail]
    rw [special]
    exact pathBelow_separable _
  · exact query_withTail_separable

theorem scheme_of_parseAuthority {scheme : String} {s : List Char} {u : Url}
    (h : parseAuthority scheme s = .ok u) : u.scheme = scheme := by
  obtain ⟨_, -, h⟩ := bind_eq_ok h
  obtain ⟨_, -, h⟩ := bind_eq_ok h
  obtain ⟨_, -, h⟩ := bind_eq_ok h
  obtain ⟨_, -, h⟩ := bind_eq_ok h
  obtain rfl := Except.ok.inj h
  rfl

theorem scheme_of_parseFile {s : List Char} {u : Url} (h : parseFile s = .ok u) :
    u.scheme = "file" := by
  unfold parseFile at h
  split at h
  dsimp only at h
  split at h
  · split at h
    · split at h
      · obtain rfl := Except.ok.inj h
        rfl
      · split at h <;>
        · obtain ⟨host, -, h⟩ := bind_eq_ok h
          obtain rfl := Except.ok.inj h
          rfl
    · obtain rfl := Except.ok.inj h
      rfl
  · obtain rfl := Except.ok.inj h
    rfl

theorem separable_of_parse {text : String} {u : Url} (h : parse text = .ok u)
    (special : isSpecial u.scheme = true) : u.Separable := by
  unfold parse at h
  split at h
  · cases h
  · next scheme rest _ =>
    split at h
    · rw [scheme_of_parseFile h] at special
      exact absurd special (by decide)
    · split at h
      · next hscheme => exact separable_of_parseAuthority hscheme h
      · next hscheme =>
        split at h
        · rw [scheme_of_parseAuthority h] at special
          exact absurd special hscheme
        · obtain rfl := Except.ok.inj h
          exact absurd special hscheme

end Url

end Gateway
