import Gateway.Net.Address
import Gateway.Text.Split

/-! The characters of numbers and addresses in their textual forms: digits of radix 16 at most, dots
and colons. -/

namespace Gateway

variable {P : Char → Prop}

theorem Text.forall_mem_join {α : Type} {sep : String} {f : α → String}
    (hsep : ∀ c ∈ sep.toList, P c) (hf : ∀ a, ∀ c ∈ (f a).toList, P c) (l : List α) :
    ∀ c ∈ (sep.intercalate (l.map f)).toList, P c := by
  intro c hc
  rw [String.toList_intercalate] at hc
  rcases mem_intercalate hc with hc | ⟨p, hp, hc⟩
  · exact hsep c hc
  · obtain ⟨s, hs, rfl⟩ := List.mem_map.mp hp
    obtain ⟨a, -, rfl⟩ := List.mem_map.mp hs
    exact hf a c hc

theorem Text.forall_mem_toDigits (digit : ∀ d < 16, P (Nat.digitChar d)) {b : Nat} (base : 1 < b)
    (most : b ≤ 16) (n : Nat) : ∀ c ∈ Nat.toDigits b n, P c := by
  induction n using Nat.strongRecOn with
  | ind n ih =>
    rw [Nat.toDigits_eq_if base]
    split
    · next hn => simpa using digit n (by omega)
    · next hn =>
      have hless : n / b < n := Nat.div_lt_self (by omega) base
      have hrem : n % b < b := Nat.mod_lt n (by omega)
      intro c hc
      rcases List.mem_append.mp hc with hc | hc
      · exact ih _ hless c hc
      · obtain rfl := List.mem_singleton.mp hc
        exact digit _ (by omega)

theorem Text.forall_mem_toString (digit : ∀ d < 16, P (Nat.digitChar d)) (n : Nat) :
    ∀ c ∈ (toString n).toList, P c := by
  change ∀ c ∈ n.repr.toList, P c
  rw [Nat.toList_repr]
  exact forall_mem_toDigits digit (by decide) (by decide) n

theorem IpAddr.forall_mem_dotted (digit : ∀ d < 16, P (Nat.digitChar d)) (dot : P '.')
    (octets : List Nat) : ∀ c ∈ (dotted octets).toList, P c :=
  Text.forall_mem_join (by simpa using dot) (Text.forall_mem_toString digit) octets

theorem Ipv6.forall_mem_text (digit : ∀ d < 16, P (Nat.digitChar d)) (colon : P ':')
    (groups : List Nat) : ∀ c ∈ (text groups).toList, P c := by
  have hgroups : ∀ l, ∀ c ∈ (joinGroups l).toList, P c := by
    refine Text.forall_mem_join (by simpa using colon) fun n => ?_
    rw [Hex.ofNat, String.toList_ofList]
    exact Text.forall_mem_toDigits digit (by decide) (by decide) n
  unfold text
  dsimp only
  split
  · intro c hc
    simp only [String.toList_append, List.mem_append] at hc
    rcases hc with (hc | hc) | hc
    · exact hgroups _ c hc
    · obtain rfl : c = ':' := by simpa using hc
      exact colon
    · exact hgroups _ c hc
  · exact hgroups groups

theorem IpAddr.forall_mem_text (digit : ∀ d < 16, P (Nat.digitChar d)) (dot : P '.')
    (colon : P ':') (a : IpAddr) : ∀ c ∈ a.text.toList, P c := by
  have hmapped : ∀ c ∈ "::ffff:".toList, P c := by
    have hf : P 'f' := digit 15 (by decide)
    simp [colon, hf]
  unfold text
  split
  · exact forall_mem_dotted digit dot _
  · intro c hc
    rw [String.toList_append] at hc
    rcases List.mem_append.mp hc with hc | hc
    · exact hmapped c hc
    · exact forall_mem_dotted digit dot _ c hc
  · exact Ipv6.forall_mem_text digit colon _

end Gateway
