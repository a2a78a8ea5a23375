import Gateway.Balance.Balancer
import Gateway.Proofs.Number.Binary64

/-! Which targets a balancer may choose, and when it has none to choose. -/

namespace Gateway

namespace Weighted

section Generic

variable {τ α : Type} {weight : τ → α} {threshold : α} {t : τ}

theorem mem_of_crossing [Add α] [LT α] [DecidableLT α] {running : α} {ts : List τ}
    (h : crossing weight threshold running ts = some t) : t ∈ ts := by
  induction ts generalizing running with
  | nil => cases h
  | cons u ts ih =>
    unfold crossing at h
    split at h
    · cases h
      exact List.mem_cons_self
    · exact List.mem_cons_of_mem _ (ih h)

theorem mem_of_atThreshold [OfNat α 0] [Add α] [LT α] [DecidableLT α] {ts : List τ}
    (h : atThreshold weight threshold ts = some t) : t ∈ ts := by
  unfold atThreshold at h
  split at h
  · next u hu =>
    cases h
    exact mem_of_crossing hu
  · exact List.mem_reverse.mp (List.mem_of_find?_eq_some h)

theorem exists_atThreshold [OfNat α 0] [Add α] [LT α] [DecidableLT α] {ts : List τ} (ht : t ∈ ts)
    (hw : (0 : α) < weight t) : ∃ u, atThreshold weight threshold ts = some u := by
  unfold atThreshold
  split
  · next u _ => exact ⟨u, rfl⟩
  · refine Option.isSome_iff_exists.mp (List.find?_isSome.mpr ⟨t, List.mem_reverse.mpr ht, ?_⟩)
    exact decide_eq_true hw

end Generic

variable {τ : Type} {weight : τ → Binary64} {ts : List τ}

theorem foldl_pos_iff (h : ∀ t ∈ ts, 0 ≤ weight t) {sum : Binary64} (hs : 0 ≤ sum) :
    0 ≤ ts.foldl (fun sum t => sum + weight t) sum ∧
      (0 < ts.foldl (fun sum t => sum + weight t) sum ↔ 0 < sum ∨ ∃ t ∈ ts, 0 < weight t) := by
  induction ts generalizing sum with
  | nil => exact ⟨hs, by simp⟩
  | cons t ts ih =>
    obtain ⟨ht, hts⟩ := List.forall_mem_cons.mp h
    obtain ⟨hadd, hpos⟩ := Binary64.add_pos_iff hs ht
    obtain ⟨hfold, hiff⟩ := ih hts hadd
    refine ⟨hfold, hiff.trans ?_⟩
    rw [hpos, List.exists_mem_cons_iff, or_assoc]

theorem total_pos_iff (h : ∀ t ∈ ts, 0 ≤ weight t) :
    0 ≤ total weight ts ∧ (0 < total weight ts ↔ ∃ t ∈ ts, 0 < weight t) := by
  have hzero : (0 : Binary64) ≤ 0 ∧ ¬ (0 : Binary64) < 0 := by decide
  obtain ⟨htotal, hpos⟩ := foldl_pos_iff h hzero.1
  exact ⟨htotal, hpos.trans (or_iff_right hzero.2)⟩

theorem choose_eq_none_iff (h : ∀ t ∈ ts, 0 ≤ weight t) (draw : Binary64) :
    choose weight draw ts = none ↔ ¬ ∃ t ∈ ts, 0 < weight t := by
  obtain ⟨htotal, hpos⟩ := total_pos_iff h
  have hzero := (Binary64.le_zero_iff htotal).trans (not_congr hpos)
  unfold choose
  split
  · next hle => exact iff_of_true rfl (hzero.mp hle)
  · next hle =>
    obtain ⟨t, ht, hw⟩ := not_not.mp (mt hzero.mpr hle)
    obtain ⟨u, hu⟩ := exists_atThreshold ht hw
    rw [hu]
    exact iff_of_false (by simp) (not_not.mpr ⟨t, ht, hw⟩)

theorem mem_of_choose {draw : Binary64} {t : τ} (h : choose weight draw ts = some t) : t ∈ ts := by
  unfold choose at h
  split at h
  · cases h
  · exact mem_of_atThreshold h

end Weighted

namespace Balancer

theorem part_lt {draw n : Nat} (hd : draw < 0x20000000000000) (hn : 0 < n) :
    draw * n / 0x20000000000000 < n :=
  Nat.div_lt_of_lt_mul (Nat.mul_lt_mul_of_pos_right hd hn)

theorem mem_of_next {b : Balancer} {draw : Nat} {t : Target} (h : (b.next draw).2 = some t) :
    t ∈ b.targets := by
  unfold next at h
  split at h
  · split at h
    · cases h
    · exact List.mem_of_getElem? h
  · exact List.mem_of_getElem? h
  · exact Weighted.mem_of_choose h

/-- A balancer with targets chooses one for every draw, except by weights of which none counts. -/
theorem next_eq_none_iff {b : Balancer} (targets : b.targets ≠ [])
    (weights : b.kind = .weighted → ∀ t ∈ b.targets, ∃ w, t.weight = some w ∧ 0 ≤ w)
    {draw : Nat} (hd : draw < 0x20000000000000) :
    (b.next draw).2 = none ↔
      b.kind = .weighted ∧ ∀ t ∈ b.targets, ∀ w, t.weight = some w → ¬ 0 < w := by
  have hlength : 0 < b.targets.length := List.length_pos_iff.mpr targets
  unfold next
  split
  · next hkind =>
    have hlt : b.turn % b.targets.length < b.targets.length := Nat.mod_lt _ hlength
    simp [hkind, targets, hlt]
  · next hkind =>
    have hlt := part_lt hd hlength
    simp [hkind, hlt]
  · next hkind =>
    have hnonneg : ∀ t ∈ b.targets, 0 ≤ t.weight.getD 0 := by
      intro t ht
      obtain ⟨w, hw, hw'⟩ := weights hkind t ht
      rw [hw]
      exact hw'
    have hcounts : ∀ t ∈ b.targets, ¬ 0 < t.weight.getD 0 ↔ ∀ w, t.weight = some w → ¬ 0 < w := by
      intro t ht
      obtain ⟨w, hw, -⟩ := weights hkind t ht
      simp [hw]
    rw [Weighted.choose_eq_none_iff hnonneg, not_exists]
    simp only [not_and, hkind, true_and]
    exact forall₂_congr hcounts

end Balancer

end Gateway
