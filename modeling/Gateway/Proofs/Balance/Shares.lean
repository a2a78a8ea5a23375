import Gateway.Proofs.Balance.History
import Mathlib.Algebra.BigOperators.Group.List.Basic
import Mathlib.Algebra.Order.Field.Basic
import Mathlib.Algebra.Order.Ring.Rat
import Mathlib.Order.Interval.Set.Basic

/-! Choosing by weight, in exact arithmetic. The draws fall into one interval for each target, in the
order of the targets, and the interval is as long as the target's share of all weights. Wherever the
threshold lies, a target without weight is not chosen. -/

namespace Gateway

namespace Weighted

variable {τ : Type} {weight : τ → ℚ} {ts : List τ} {threshold running draw : ℚ} {t : τ}

def upTo (weight : τ → ℚ) (ts : List τ) (i : Nat) : ℚ := ((ts.take i).map weight).sum

theorem upTo_cons (weight : τ → ℚ) (u : τ) (ts : List τ) (i : Nat) :
    upTo weight (u :: ts) (i + 1) = weight u + upTo weight ts i := by
  simp only [upTo, List.take_succ_cons, List.map_cons, List.sum_cons]

theorem upTo_succ (weight : τ → ℚ) {i : Nat} (h : ts[i]? = some t) :
    upTo weight ts (i + 1) = upTo weight ts i + weight t := by
  rw [upTo, List.take_add_one, h]
  simp [upTo]

theorem upTo_of_length_le (weight : τ → ℚ) {i : Nat} (h : ts.length ≤ i) :
    upTo weight ts i = (ts.map weight).sum := by
  rw [upTo, List.take_of_length_le h]

theorem upTo_mono (hw : ∀ t ∈ ts, 0 ≤ weight t) : Monotone (upTo weight ts) := by
  refine monotone_nat_of_le_succ fun i => ?_
  cases h : ts[i]? with
  | none =>
    have hlength := List.getElem?_eq_none_iff.mp h
    rw [upTo_of_length_le weight hlength, upTo_of_length_le weight (hlength.trans (Nat.le_succ i))]
  | some t =>
    rw [upTo_succ weight h]
    exact le_add_of_nonneg_right (hw t (List.mem_of_getElem? h))

theorem upTo_le_sum (hw : ∀ t ∈ ts, 0 ≤ weight t) (i : Nat) :
    upTo weight ts i ≤ (ts.map weight).sum := by
  rw [← upTo_of_length_le weight (le_max_right i ts.length)]
  exact upTo_mono hw (le_max_left i ts.length)

theorem total_eq_sum (weight : τ → ℚ) (ts : List τ) : total weight ts = (ts.map weight).sum := by
  rw [List.sum_eq_foldl, List.foldl_map, total]

/-! ### The place of a threshold -/

/-- The place of a threshold among the running sums of the weights. -/
def PlaceOf (weight : τ → ℚ) (ts : List τ) (threshold : ℚ) (i : Nat) : Prop :=
  upTo weight ts i ≤ threshold ∧ threshold < upTo weight ts (i + 1)

theorem PlaceOf.unique (hw : ∀ t ∈ ts, 0 ≤ weight t) {i j : Nat}
    (hi : PlaceOf weight ts threshold i) (hj : PlaceOf weight ts threshold j) : i = j := by
  have hmono := upTo_mono hw
  rcases lt_trichotomy i j with hlt | rfl | hlt
  · exact absurd (hi.2.trans_le ((hmono hlt).trans hj.1)) (lt_irrefl _)
  · rfl
  · exact absurd (hj.2.trans_le ((hmono hlt).trans hi.1)) (lt_irrefl _)

theorem PlaceOf.pos {i : Nat} (h : PlaceOf weight ts threshold i) (ht : ts[i]? = some t) :
    0 < weight t := by
  obtain ⟨hfrom, hto⟩ := h
  rw [upTo_succ weight ht] at hto
  exact pos_of_lt_add_right (hfrom.trans_lt hto)

theorem place_of_crossing (start : running ≤ threshold)
    (h : crossing weight threshold running ts = some t) :
    ∃ i, ts[i]? = some t ∧ PlaceOf weight ts (threshold - running) i := by
  induction ts generalizing running with
  | nil => cases h
  | cons u ts ih =>
    unfold crossing at h
    split at h
    · next hlt =>
      cases h
      refine ⟨0, rfl, sub_nonneg.mpr start, ?_⟩
      rw [upTo_cons]
      exact (sub_lt_iff_lt_add'.mpr hlt).trans_eq (add_zero _).symm
    · next hle =>
      obtain ⟨i, hi, hfrom, hto⟩ := ih (not_lt.mp hle) h
      rw [← sub_sub, le_sub_iff_add_le'] at hfrom
      rw [← sub_sub, sub_lt_iff_lt_add'] at hto
      exact ⟨i + 1, hi, by rwa [upTo_cons], by rwa [upTo_cons]⟩

theorem sum_le_of_no_crossing (start : running ≤ threshold)
    (h : crossing weight threshold running ts = none) :
    running + (ts.map weight).sum ≤ threshold := by
  induction ts generalizing running with
  | nil => simpa using start
  | cons u ts ih =>
    unfold crossing at h
    split at h
    · cases h
    · next hle =>
      rw [List.map_cons, List.sum_cons, ← add_assoc]
      exact ih (not_lt.mp hle) h

theorem atThreshold_eq_some_iff (hw : ∀ t ∈ ts, 0 ≤ weight t) (nonneg : 0 ≤ threshold)
    (below : threshold < (ts.map weight).sum) :
    atThreshold weight threshold ts = some t ↔
      ∃ i, ts[i]? = some t ∧ PlaceOf weight ts threshold i := by
  obtain ⟨u, hu⟩ : ∃ u, crossing weight threshold 0 ts = some u := by
    refine Option.ne_none_iff_exists'.mp fun hnone => ?_
    have hsum := sum_le_of_no_crossing nonneg hnone
    rw [zero_add] at hsum
    exact absurd below hsum.not_gt
  obtain ⟨i, hi, hplace⟩ := place_of_crossing nonneg hu
  rw [sub_zero] at hplace
  have hat : atThreshold weight threshold ts = some u := by rw [atThreshold, hu]
  rw [hat]
  constructor
  · rintro ⟨⟩
    exact ⟨i, hi, hplace⟩
  · rintro ⟨j, hj, hplace'⟩
    obtain rfl := hplace.unique hw hplace'
    exact hi.symm.trans hj

theorem atThreshold_pos (nonneg : 0 ≤ threshold) (pos : ∃ t ∈ ts, 0 < weight t) :
    ∃ t ∈ ts, 0 < weight t ∧ atThreshold weight threshold ts = some t := by
  obtain ⟨u, hu, hwu⟩ := pos
  obtain ⟨t, ht⟩ : ∃ t, atThreshold weight threshold ts = some t := exists_atThreshold hu hwu
  refine ⟨t, mem_of_atThreshold ht, ?_, ht⟩
  unfold atThreshold at ht
  split at ht
  · next v hv =>
    cases ht
    obtain ⟨i, hi, hplace⟩ := place_of_crossing nonneg hv
    exact hplace.pos hi
  · -- the last target with a weight is looked for
    simpa using List.find?_some ht

/-! ### The place of a draw -/

theorem sum_pos_iff (hw : ∀ t ∈ ts, 0 ≤ weight t) :
    0 < (ts.map weight).sum ↔ ∃ t ∈ ts, 0 < weight t := by
  induction ts with
  | nil => simp
  | cons u ts ih =>
    obtain ⟨hu, hts⟩ := List.forall_mem_cons.mp hw
    have hsum : 0 ≤ (ts.map weight).sum := upTo_le_sum hts 0
    rw [List.map_cons, List.sum_cons, List.exists_mem_cons_iff, ← ih hts]
    constructor
    · intro hpos
      rcases hu.lt_or_eq with hlt | heq
      · exact .inl hlt
      · rw [← heq, zero_add] at hpos
        exact .inr hpos
    · rintro (hlt | hlt)
      · exact add_pos_of_pos_of_nonneg hlt hsum
      · exact add_pos_of_nonneg_of_pos hu hlt

theorem choose_eq_some_iff (hw : ∀ t ∈ ts, 0 ≤ weight t) (nonneg : 0 ≤ draw) (below : draw < 1) :
    choose weight draw ts = some t ↔
      ∃ i, ts[i]? = some t ∧ PlaceOf weight ts (draw * (ts.map weight).sum) i := by
  unfold choose
  rw [total_eq_sum]
  split
  · next hle =>
    have hzero : (ts.map weight).sum = 0 := le_antisymm hle (upTo_le_sum hw 0)
    refine iff_of_false (by simp) ?_
    rintro ⟨i, -, -, hto⟩
    rw [hzero, mul_zero, ← hzero] at hto
    exact hto.not_ge (upTo_le_sum hw _)
  · next hpos =>
    have hpos := not_le.mp hpos
    exact atThreshold_eq_some_iff hw (mul_nonneg nonneg hpos.le) (mul_lt_of_lt_one_left hpos below)

theorem choose_eq_none_iff_sum (hw : ∀ t ∈ ts, 0 ≤ weight t) (nonneg : 0 ≤ draw) :
    choose weight draw ts = none ↔ (ts.map weight).sum = 0 := by
  unfold choose
  rw [total_eq_sum]
  split
  · next hle => exact iff_of_true rfl (le_antisymm hle (upTo_le_sum hw 0))
  · next hpos =>
    have hpos := not_le.mp hpos
    obtain ⟨t, -, -, ht⟩ :=
      atThreshold_pos (mul_nonneg nonneg hpos.le) ((sum_pos_iff hw).mp hpos)
    rw [ht]
    exact iff_of_false (by simp) hpos.ne'

theorem draws_eq_Ico (hw : ∀ t ∈ ts, 0 ≤ weight t) (distinct : ts.Nodup)
    (pos : 0 < (ts.map weight).sum) {i : Nat} (ht : ts[i]? = some t) :
    {draw | 0 ≤ draw ∧ draw < 1 ∧ choose weight draw ts = some t} =
      Set.Ico (upTo weight ts i / (ts.map weight).sum)
        (upTo weight ts (i + 1) / (ts.map weight).sum) := by
  have hplace : ∀ draw, draw ∈ Set.Ico (upTo weight ts i / (ts.map weight).sum)
      (upTo weight ts (i + 1) / (ts.map weight).sum) ↔
        PlaceOf weight ts (draw * (ts.map weight).sum) i := fun draw =>
    and_congr (div_le_iff₀ pos) (lt_div_iff₀ pos)
  ext draw
  rw [hplace]
  constructor
  · rintro ⟨nonneg, below, hchosen⟩
    obtain ⟨j, hj, hdraw⟩ := (choose_eq_some_iff hw nonneg below).mp hchosen
    obtain ⟨hi, rfl⟩ := List.getElem?_eq_some_iff.mp ht
    obtain ⟨hj, heq⟩ := List.getElem?_eq_some_iff.mp hj
    obtain rfl := distinct.getElem_inj_iff.mp heq
    exact hdraw
  · intro hdraw
    have nonneg : 0 ≤ draw := by
      have hfrom : (0 : ℚ) ≤ upTo weight ts i := upTo_mono hw (Nat.zero_le i)
      exact nonneg_of_mul_nonneg_left (hfrom.trans hdraw.1) pos
    have below : draw < 1 := by
      have hto := hdraw.2.trans_le (upTo_le_sum hw (i + 1))
      exact (mul_lt_iff_lt_one_left pos).mp hto
    exact ⟨nonneg, below, (choose_eq_some_iff hw nonneg below).mpr ⟨i, ht, hdraw⟩⟩

theorem width_Ico (weight : τ → ℚ) {i : Nat} (ht : ts[i]? = some t) :
    upTo weight ts (i + 1) / (ts.map weight).sum - upTo weight ts i / (ts.map weight).sum =
      weight t / (ts.map weight).sum := by
  rw [← sub_div, upTo_succ weight ht, add_sub_cancel_left]

end Weighted

def Binary64.value : Binary64 → ℚ
  | finite s m e _ => (if s then -1 else 1) * m * 2 ^ e
  | _ => 0

theorem Binary64.value_nonneg {a : Binary64} (h : 0 ≤ a) : 0 ≤ a.value := by
  rcases nonneg_cases h with rfl | ⟨s, m, e, he, rfl, hm⟩
  · exact le_rfl
  · cases s with
    | false =>
      have hvalue : (finite false m e he).value = m * 2 ^ e := by simp [value]
      rw [hvalue]
      exact mul_nonneg (Nat.cast_nonneg m) (zpow_nonneg zero_le_two e)
    | true => simp [value, hm rfl]

/-- The weight of a target as an exact number; a target without one counts nothing. -/
def Target.weightValue (t : Target) : ℚ := (t.weight.getD 0).value

namespace Balancer

theorem accepts_run (kind : BalancerKind) (ops : List Op) :
    ∀ t ∈ (({ kind } : Balancer).run ops).targets, accepts kind t = true := by
  induction ops using List.reverseRecOn with
  | nil => simp [run, targets]
  | append_singleton ops op ih =>
    rw [run_concat]
    have hkind := (holds_run kind ops).kind_eq
    generalize ({ kind } : Balancer).run ops = b at ih hkind
    subst hkind
    intro u hu
    cases op with
    | add t =>
      obtain ⟨htaken, hrefused⟩ := b.add_fst (t := t)
      have hadd : (b.apply (.add t)).1 = (b.add t).1 := rfl
      rw [hadd] at hu
      cases hb : (b.add t).2 with
      | true =>
        rw [htaken hb] at hu
        rcases List.mem_append.mp hu with hold | hnew
        · exact ih u hold
        · rw [List.mem_singleton.mp hnew]
          exact accepts_iff.mpr (add_snd_iff.mp hb).2
      | false =>
        rw [hrefused hb] at hu
        exact ih u hu
    | remove name => exact ih u (List.mem_filter.mp hu).1
    | next draw =>
      have hset : (b.apply (.next draw)).1.targets = b.targets :=
        congrArg TargetSet.targets (b.next_fst draw).1
      exact ih u (hset ▸ hu)

theorem weightValue_nonneg (ops : List Op) :
    ∀ t ∈ (({ kind := .weighted } : Balancer).run ops).targets, 0 ≤ t.weightValue := by
  intro t ht
  obtain ⟨w, hw, -, hnonneg⟩ := accepts_iff.mp (accepts_run .weighted ops t ht) rfl
  rw [Target.weightValue, hw]
  exact Binary64.value_nonneg hnonneg

/-- After any operations a balancer by weight, calculating with the exact weights of its targets,
has no target for a draw exactly when all weights are zero. Otherwise it gives a draw to the target
in whose part of the sum of weights the scaled draw lies, so the draws of a target are an interval as
long as its share of the sum, and a target without weight gets none. Wherever rounding takes the
threshold, at or above the sum of weights too, a target with a weight is chosen when there is one. -/
theorem chooses_by_weight (ops : List Op) :
    let ts := (({ kind := .weighted } : Balancer).run ops).targets
    let T := (ts.map Target.weightValue).sum
    let upTo (i : Nat) := ((ts.take i).map Target.weightValue).sum
    (∀ draw, 0 ≤ draw → draw < 1 →
      (Weighted.choose Target.weightValue draw ts = none ↔ T = 0) ∧
      (T ≠ 0 → ∃ (i : Nat) (h : i < ts.length),
        Weighted.choose Target.weightValue draw ts = some ts[i] ∧
        upTo i ≤ draw * T ∧ draw * T < upTo (i + 1))) ∧
    (∀ (i : Nat) (h : i < ts.length),
      let draws := {draw | 0 ≤ draw ∧ draw < 1 ∧
        Weighted.choose Target.weightValue draw ts = some ts[i]}
      (T ≠ 0 → draws = Set.Ico (upTo i / T) (upTo (i + 1) / T) ∧
        upTo (i + 1) / T - upTo i / T = ts[i].weightValue / T) ∧
      (ts[i].weightValue = 0 → draws = ∅)) ∧
    ∀ threshold, 0 ≤ threshold → T ≠ 0 →
      ∃ t ∈ ts, 0 < t.weightValue ∧
        Weighted.atThreshold Target.weightValue threshold ts = some t := by
  intro ts T upTo
  have hw : ∀ t ∈ ts, 0 ≤ t.weightValue := weightValue_nonneg ops
  have distinct : ts.Nodup := (holds_run .weighted ops).distinct.of_map _
  have hpos : T ≠ 0 → 0 < T := fun h => (Weighted.upTo_le_sum hw 0).lt_of_ne' h
  refine ⟨fun draw nonneg below => ⟨Weighted.choose_eq_none_iff_sum hw nonneg, fun hT => ?_⟩,
    fun i hi => ?_, fun threshold nonneg hT => ?_⟩
  · obtain ⟨t, ht⟩ := Option.ne_none_iff_exists'.mp
      (mt (Weighted.choose_eq_none_iff_sum hw nonneg).mp hT)
    obtain ⟨i, hi, hplace⟩ := (Weighted.choose_eq_some_iff hw nonneg below).mp ht
    obtain ⟨hlt, rfl⟩ := List.getElem?_eq_some_iff.mp hi
    exact ⟨i, hlt, ht, hplace⟩
  · have hget : ts[i]? = some ts[i] := List.getElem?_eq_getElem hi
    refine ⟨fun hT => ⟨Weighted.draws_eq_Ico hw distinct (hpos hT) hget,
      Weighted.width_Ico _ hget⟩, fun hzero => ?_⟩
    refine Set.eq_empty_iff_forall_notMem.mpr fun draw hdraw => ?_
    obtain ⟨nonneg, below, hchosen⟩ := hdraw
    obtain ⟨j, hj, hplace⟩ := (Weighted.choose_eq_some_iff hw nonneg below).mp hchosen
    exact (hplace.pos hj).ne' hzero
  · exact Weighted.atThreshold_pos nonneg ((Weighted.sum_pos_iff hw).mp (hpos hT))

end Balancer

end Gateway
