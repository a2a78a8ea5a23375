import Gateway.Number.Binary64
import Mathlib.Tactic.Positivity
import Mathlib.Tactic.Ring

/-! Numbers that are not negative, and their sums. Rounding does not make a positive sum zero: every
number is a whole multiple of the least positive one, and so is a sum before it is rounded. -/

namespace Gateway.Binary64

variable {s s' : Bool} {m m' : Nat} {e e' : Int} {he : minExponent ≤ e} {he' : minExponent ≤ e'}

theorem zero_lt_finite : (0 : Binary64) < finite s m e he ↔ s = false ∧ 0 < m := by
  have hpow : (0 : Int) < 2 ^ (e - min minExponent e).toNat := by positivity
  change lt zero (finite s m e he) = true ↔ _
  cases s <;> simp [lt, zero, signedZero, aligned, hpow]

theorem finite_lt_zero : finite s m e he < (0 : Binary64) ↔ s = true ∧ 0 < m := by
  have hpow : (0 : Int) < 2 ^ (e - min e minExponent).toNat := by positivity
  change lt (finite s m e he) zero = true ↔ _
  cases s <;> simp [lt, zero, signedZero, aligned, hpow]

theorem pos_iff {a : Binary64} :
    0 < a ↔ a = infinite false ∨ ∃ m e he, 0 < m ∧ a = finite false m e he := by
  cases a with
  | nan =>
    change false = true ↔ _
    simp
  | infinite s =>
    change (!s) = true ↔ _
    simp
  | finite s m e he =>
    rw [zero_lt_finite]
    simp [and_comm, he]

theorem nonneg_iff {a : Binary64} : 0 ≤ a ↔ 0 < a ∨ ∃ s e he, a = finite s 0 e he := by
  cases a with
  | nan =>
    change false = true ↔ false = true ∨ _
    simp
  | infinite s =>
    change (!s) = true ↔ (!s) = true ∨ _
    simp
  | finite s m e he =>
    have hle : (0 : Binary64) ≤ finite s m e he ↔ ¬ finite s m e he < 0 := by
      change (!lt _ _) = true ↔ ¬ lt _ _ = true
      simp
    rw [hle, finite_lt_zero, zero_lt_finite]
    cases s with
    | false => simp [Nat.pos_iff_ne_zero, eq_comm, ne_or_eq, he]
    | true => simpa using fun _ => he

/-! ### Rounding -/

theorem wholeUnits_eq (num den : Nat) (e : Int) :
    wholeUnits num den e = num * 2 ^ (-e).toNat / (den * 2 ^ e.toNat) := by
  unfold wholeUnits
  split
  · next he => simp [show (-e).toNat = 0 by omega]
  · next he => simp [show e.toNat = 0 by omega]

theorem inUnits_eq (num den : Nat) (e : Int) :
    inUnits num den e = divRound (num * 2 ^ (-e).toNat) (den * 2 ^ e.toNat) := by
  unfold inUnits
  split
  · next he => simp [show (-e).toNat = 0 by omega]
  · next he => simp [show e.toNat = 0 by omega]

theorem le_divRound (num den : Nat) : num / den ≤ divRound num den := by
  unfold divRound
  dsimp only
  split
  · exact le_rfl
  · split
    · exact Nat.le_succ _
    · exact Nat.le_add_right _ _

theorem ofRatio_of_ne_zero {num : Nat} (hnum : num ≠ 0) (den : Nat) (s : Bool) :
    ofRatio s num den = infinite s ∨ ∃ m e he,
      (0 < inUnits num den (spacing num den) → 0 < m) ∧ ofRatio s num den = finite s m e he := by
  have hproper := minExponent_le_spacing num den
  rw [ofRatio, if_neg hnum]
  simp only [bounded]
  split <;> split
  · exact .inl rfl
  · exact .inr ⟨_, _, hproper.trans (Int.le_add_one le_rfl), fun _ => by omega, rfl⟩
  · exact .inl rfl
  · exact .inr ⟨_, _, hproper, id, rfl⟩

theorem inUnits_pos {num den : Nat} {e : Int} (hden : den ≠ 0)
    (h : den * 2 ^ e.toNat ≤ num * 2 ^ (-e).toNat) : 0 < inUnits num den e := by
  rw [inUnits_eq]
  exact (Nat.div_pos h (by positivity)).trans_le (le_divRound _ _)

/-- A quotient that is not below the least positive number has at least one unit. -/
theorem spacing_fits {num den : Nat} (hnum : num ≠ 0) (hden : den ≠ 0)
    (h : den ≤ num * 2 ^ (-minExponent).toNat) :
    den * 2 ^ (spacing num den).toNat ≤ num * 2 ^ (-spacing num den).toNat := by
  unfold spacing
  generalize hg : max ((num.log2 : Int) - den.log2 - 53) minExponent = g
  dsimp only
  split
  · rcases le_total ((num.log2 : Int) - den.log2 - 53) minExponent with hmin | hmax
    · rw [max_eq_right hmin] at hg
      subst hg
      exact (Nat.mul_one den).le.trans h
    · rw [max_eq_left hmax] at hg
      have hupper : den ≤ 2 ^ (den.log2 + 1) := Nat.lt_log2_self.le
      have hlower : 2 ^ num.log2 ≤ num := Nat.log2_self_le hnum
      calc den * 2 ^ g.toNat ≤ 2 ^ (den.log2 + 1) * 2 ^ g.toNat := Nat.mul_le_mul_right _ hupper
        _ = 2 ^ (den.log2 + 1 + g.toNat) := (Nat.pow_add ..).symm
        _ ≤ 2 ^ (num.log2 + (-g).toNat) := Nat.pow_le_pow_right Nat.two_pos (by omega)
        _ = 2 ^ num.log2 * 2 ^ (-g).toNat := Nat.pow_add ..
        _ ≤ num * 2 ^ (-g).toNat := Nat.mul_le_mul_right _ hlower
  · next hmany =>
    rw [wholeUnits_eq, not_lt, Nat.le_div_iff_mul_le (by positivity)] at hmany
    rcases le_or_gt 0 g with hpos | hneg
    · have hdouble : den * 2 ^ (g + 1).toNat = 2 * (den * 2 ^ g.toNat) := by
        rw [show (g + 1).toNat = g.toNat + 1 by omega]
        ring
      rw [hdouble, show (-(g + 1)).toNat = (-g).toNat by omega]
      omega
    · have hhalf : num * 2 ^ (-g).toNat = 2 * (num * 2 ^ (-(g + 1)).toNat) := by
        rw [show (-g).toNat = (-(g + 1)).toNat + 1 by omega]
        ring
      rw [hhalf] at hmany
      rw [show (g + 1).toNat = g.toNat by omega]
      omega

theorem ofRatio_pos {num den : Nat} (hnum : num ≠ 0) (hden : den ≠ 0)
    (h : den ≤ num * 2 ^ (-minExponent).toNat) : 0 < ofRatio false num den := by
  rw [pos_iff]
  rcases ofRatio_of_ne_zero hnum den false with hi | ⟨m, e, he, hm, hf⟩
  · exact .inl hi
  · exact .inr ⟨m, e, he, hm (inUnits_pos hden (spacing_fits hnum hden h)), hf⟩

theorem ofScaled_pos (hm : m ≠ 0) (he : minExponent ≤ e) :
    0 < ofScaled false m e := by
  have hscaled : ∀ k, m * 2 ^ k ≠ 0 := fun k => by positivity
  unfold ofScaled
  split
  · refine ofRatio_pos (hscaled _) Nat.one_ne_zero ?_
    exact Nat.one_le_iff_ne_zero.mpr (mul_ne_zero (hscaled _) (Nat.two_pow_pos _).ne')
  · refine ofRatio_pos hm (Nat.two_pow_pos _).ne' ?_
    calc 2 ^ (-e).toNat ≤ 2 ^ (-minExponent).toNat := Nat.pow_le_pow_right Nat.two_pos (by omega)
      _ ≤ m * 2 ^ (-minExponent).toNat := Nat.le_mul_of_pos_left _ (Nat.pos_of_ne_zero hm)

theorem ofScaled_zero (s : Bool) (e : Int) : ofScaled s 0 e = signedZero s := by
  unfold ofScaled
  split <;> simp [ofRatio]

/-! ### Sums -/

theorem nonneg_cases {a : Binary64} (h : 0 ≤ a) :
    a = infinite false ∨ ∃ s m e he, a = finite s m e he ∧ (s = true → m = 0) := by
  rcases nonneg_iff.mp h with hpos | ⟨s, e, he, rfl⟩
  · rcases pos_iff.mp hpos with rfl | ⟨m, e, he, -, rfl⟩
    · exact .inl rfl
    · exact .inr ⟨false, m, e, he, rfl, by simp⟩
  · exact .inr ⟨s, 0, e, he, rfl, fun _ => rfl⟩

theorem nonneg_of_pos {a : Binary64} (h : 0 < a) : 0 ≤ a := nonneg_iff.mpr (.inl h)

theorem le_zero_iff {a : Binary64} (h : 0 ≤ a) : a ≤ 0 ↔ ¬ 0 < a := by
  rcases nonneg_cases h with rfl | ⟨s, m, e, he, rfl, -⟩
  · decide
  · change (!lt _ _) = true ↔ ¬ lt _ _ = true
    simp

theorem infinite_pos : (0 : Binary64) < infinite false := by decide

theorem add_finite (h : s = true → m = 0) (h' : s' = true → m' = 0) :
    finite s m e he + finite s' m' e' he' =
      let least := min e e'
      let sum := m * 2 ^ (e - least).toNat + m' * 2 ^ (e' - least).toNat
      ofScaled (decide (sum = 0) && (s && s')) sum least := by
  have hsigned : ∀ {s : Bool} {m : Nat} (k : Nat), (s = true → m = 0) →
      (if s then (-1 : Int) else 1) * (m * Nat.pow 2 k : Nat) = (m * 2 ^ k : Nat) := by
    intro s m k h
    cases s with
    | false => simp
    | true => simp [h rfl]
  change add _ _ = _
  simp only [add, aligned, hsigned _ h, hsigned _ h', ← Nat.cast_add, Int.natAbs_natCast]
  generalize m * 2 ^ (e - min e e').toNat + m' * 2 ^ (e' - min e e').toNat = sum
  by_cases hsum : sum = 0
  · simp [hsum]
  · have hneg : ¬ (sum : Int) < 0 := by omega
    simp [hsum, hneg]

theorem zero_lt_add_finite (h : s = true → m = 0) (h' : s' = true → m' = 0) :
    0 ≤ finite s m e he + finite s' m' e' he' ∧
      (0 < finite s m e he + finite s' m' e' he' ↔
        0 < finite s m e he ∨ 0 < finite s' m' e' he') := by
  have hpow : ∀ k, 2 ^ k ≠ 0 := fun k => (Nat.two_pow_pos k).ne'
  rw [add_finite h h', zero_lt_finite, zero_lt_finite]
  dsimp only
  by_cases hm : m = 0 ∧ m' = 0
  · obtain ⟨rfl, rfl⟩ := hm
    simp only [Nat.zero_mul, Nat.add_zero, ofScaled_zero, signedZero, zero_lt_finite,
      Nat.lt_irrefl, and_false, or_self, and_true]
    exact nonneg_iff.mpr (.inr ⟨_, _, _, rfl⟩)
  · have hsum : m * 2 ^ (e - min e e').toNat + m' * 2 ^ (e' - min e e').toNat ≠ 0 := by
      simpa [hpow] using hm
    have hpos := ofScaled_pos hsum (le_min he he')
    simp only [hsum, decide_false, Bool.false_and]
    refine ⟨nonneg_of_pos hpos, iff_of_true hpos ?_⟩
    rcases not_and_or.mp hm with hm | hm
    · exact .inl ⟨Bool.eq_false_iff.mpr fun hs => hm (h hs), Nat.pos_of_ne_zero hm⟩
    · exact .inr ⟨Bool.eq_false_iff.mpr fun hs => hm (h' hs), Nat.pos_of_ne_zero hm⟩

/-- The sum of two numbers that are not negative is positive when one of them is. -/
theorem add_pos_iff {a b : Binary64} (ha : 0 ≤ a) (hb : 0 ≤ b) :
    0 ≤ a + b ∧ (0 < a + b ↔ 0 < a ∨ 0 < b) := by
  have hinfinite : 0 ≤ infinite false := nonneg_of_pos infinite_pos
  rcases nonneg_cases ha with rfl | ⟨s, m, e, he, rfl, hm⟩
  · have hsum : infinite false + b = infinite false := by
      rcases nonneg_cases hb with rfl | ⟨s', m', e', he', rfl, -⟩ <;> rfl
    rw [hsum]
    exact ⟨hinfinite, iff_of_true infinite_pos (.inl infinite_pos)⟩
  · rcases nonneg_cases hb with rfl | ⟨s', m', e', he', rfl, hm'⟩
    · exact ⟨hinfinite, iff_of_true infinite_pos (.inr infinite_pos)⟩
    · exact zero_lt_add_finite hm hm'

end Gateway.Binary64
