import Gateway.Proofs.Net.Address
import Gateway.Url.Host

/-! The characters of hosts: none that a name may not contain, but for the colons and brackets of
addresses. -/

namespace Gateway

/-! ### Punycode -/

namespace Punycode

variable {P : Char → Prop}

theorem threshold_le (k bias : Nat) : threshold k bias ≤ 26 := by
  unfold threshold
  split
  · omega
  · split <;> omega

theorem forall_mem_encodeNumber (digit : ∀ n < 36, P (digit n)) (q k bias : Nat) :
    ∀ c ∈ encodeNumber q k bias, P c := by
  induction q, k using encodeNumber.induct bias with
  | case1 q k t hq =>
    have ht : t ≤ 26 := threshold_le k bias
    rw [encodeNumber, if_pos hq]
    simpa using digit q (by omega)
  | case2 q k t hq ih =>
    have ht : t ≤ 26 := threshold_le k bias
    have hbase : base = 36 := rfl
    have hrem : (q - t) % (base - t) < base - t := Nat.mod_lt _ (by omega)
    have hdigit : t + (q - t) % (base - t) < 36 := by omega
    rw [encodeNumber, if_neg hq]
    exact List.forall_mem_cons.mpr ⟨digit _ hdigit, ih⟩

theorem forall_mem_pass (digit : ∀ n < 36, P (digit n)) (basic m : Nat) (text : List Char)
    {e : Encoder} (h : ∀ c ∈ e.out, P c) : ∀ c ∈ (e.pass basic m text).out, P c := by
  refine List.foldlRecOn (motive := fun e : Encoder => ∀ c ∈ e.out, P c) text _ h ?_
  intro e he c _
  split
  · exact he
  · split
    · intro d hd
      rcases List.mem_append.mp hd with hd | hd
      · exact he d hd
      · exact forall_mem_encodeNumber digit _ _ _ d hd
    · exact he

theorem forall_mem_encode (digit : ∀ n < 36, P (digit n)) (hyphen : P '-') {text : List Char}
    (basic : ∀ c ∈ text, P c) : ∀ c ∈ encode text, P c := by
  refine List.foldlRecOn (motive := fun e : Encoder => ∀ c ∈ e.out, P c) _ _ ?_
    fun e he m _ => forall_mem_pass digit _ m text he
  intro c hc
  dsimp only at hc
  split at hc
  · cases hc
  · rcases List.mem_append.mp hc with hc | hc
    · exact basic c ((List.mem_filter.mp hc).1)
    · obtain rfl := List.mem_singleton.mp hc
      exact hyphen

end Punycode

/-! ### Hosts -/

namespace Host

theorem exists_of_mem_mapM {α β : Type} {f : α → Option β} {l : List α} {l' : List β}
    (h : l.mapM f = some l') {b : β} (hb : b ∈ l') : ∃ a ∈ l, f a = some b := by
  induction l generalizing l' with
  | nil =>
    obtain rfl : l' = [] := by simpa using h.symm
    cases hb
  | cons a l ih =>
    simp only [List.mapM_cons, Option.bind_eq_bind, Option.bind_eq_some_iff] at h
    obtain ⟨b', hb', bs, hbs, hl'⟩ := h
    obtain rfl := Option.some.inj hl'
    rcases List.mem_cons.mp hb with rfl | hb
    · exact ⟨a, List.mem_cons_self, hb'⟩
    · obtain ⟨a', ha', h'⟩ := ih hbs hb
      exact ⟨a', List.mem_cons_of_mem _ ha', h'⟩

def Allowed (c : Char) : Prop := isForbidden c = false ∨ c ∈ [':', '[', ']']

instance : DecidablePred Allowed := fun _ => inferInstanceAs (Decidable (_ ∨ _))

theorem allowed_hex : ∀ d < 16, Allowed (Nat.digitChar d) := by decide

theorem allowed_label {label l : List Char} (h : label? label = some l) : ∀ c ∈ l, Allowed c := by
  unfold label? at h
  split at h
  · cases h
  next hany =>
  have hlabel : ∀ c ∈ label, Allowed c := by
    intro c hc
    have hnot := List.any_eq_false.mp (Bool.eq_false_iff.mpr hany) c hc
    simp only [Bool.or_eq_true, not_or, Bool.not_eq_true] at hnot
    exact .inl hnot.1
  have hencoded : ∀ c ∈ "xn--".toList ++ Punycode.encode label, Allowed c := by
    intro c hc
    rcases List.mem_append.mp hc with hc | hc
    · have hmark : c = 'x' ∨ c = 'n' ∨ c = '-' := by simpa using hc
      rcases hmark with rfl | rfl | rfl <;> decide
    · exact Punycode.forall_mem_encode (by decide) (by decide) hlabel c hc
  split at h
  · split at h
    · split at h
      · split at h
        · cases h
        · exact Option.some.inj h ▸ hlabel
      · cases h
    · exact Option.some.inj h ▸ hlabel
  · exact Option.some.inj h ▸ hencoded

theorem allowed_domain {name domain : List Char} (h : domain? name = some domain) :
    ∀ c ∈ domain, Allowed c := by
  obtain ⟨labels, hlabels, hdomain⟩ := Option.bind_eq_some_iff.mp h
  obtain rfl := Option.some.inj hdomain
  intro c hc
  rcases Text.mem_intercalate hc with hc | ⟨l, hl, hc⟩
  · obtain rfl := List.mem_singleton.mp hc
    decide
  · obtain ⟨label, -, hlabel⟩ := exists_of_mem_mapM hlabels hl
    exact allowed_label hlabel c hc

theorem allowed_bracketed {s : List Char} {host : String} (h : bracketed? s = .ok host) :
    ∀ c ∈ host.toList, Allowed c := by
  unfold bracketed? at h
  split at h
  · next groups _ _ =>
    obtain rfl := Except.ok.inj h
    intro c hc
    simp only [String.toList_append, List.mem_append] at hc
    rcases hc with (hc | hc) | hc
    · obtain rfl : c = '[' := by simpa using hc
      decide
    · exact Ipv6.forall_mem_text allowed_hex (by decide) groups c hc
    · obtain rfl : c = ']' := by simpa using hc
      decide
  · cases h

theorem allowed_of_parse {s : List Char} {host : String} (h : parse s = .ok host) :
    ∀ c ∈ host.toList, Allowed c := by
  unfold parse at h
  split at h
  · exact allowed_bracketed h
  dsimp only at h
  split at h
  · cases h
  next name hname =>
  split at h
  · cases h
  split at h
  · split at h
    · next ip _ =>
      obtain rfl := Except.ok.inj h
      exact ip.forall_mem_text allowed_hex (by decide) (by decide)
    · cases h
  · obtain rfl := Except.ok.inj h
    rw [String.toList_ofList]
    exact allowed_domain hname

end Host

end Gateway
