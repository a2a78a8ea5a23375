import Gateway.Route.Matcher
import Mathlib.Data.Bool.Basic
import Mathlib.Data.Prod.Lex

/-! The order of ranks, and the running maximum over candidates in the order of their places. -/

namespace Gateway

def Rank.key (r : Rank) : Bool ×ₗ ℕ ×ₗ ℕ := toLex (r.literal, toLex (r.tokens, r.size))

theorem Rank.lt_iff_key (a b : Rank) : a.lt b = true ↔ a.key < b.key := by
  obtain ⟨l, t, s⟩ := a
  obtain ⟨l', t', s'⟩ := b
  cases l <;> cases l' <;> simp [Rank.lt, Rank.key, Prod.Lex.toLex_lt_toLex]

namespace Candidate

/-- The first of the candidates of the highest rank, by their places in the table. -/
def IsBest (cs : List Candidate) (c : Candidate) : Prop :=
  c ∈ cs ∧ ∀ d ∈ cs, d.rank.key ≤ c.rank.key ∧ (d.rank.key = c.rank.key → c.index ≤ d.index)

theorem IsBest.cons_left {c b : Candidate} {cs : List Candidate} (h : IsBest cs b)
    (hc : c.rank.key < b.rank.key) : IsBest (c :: cs) b := by
  refine ⟨List.mem_cons_of_mem _ h.1, ?_⟩
  intro d hd
  rcases List.mem_cons.mp hd with rfl | hd
  · exact ⟨hc.le, fun he => absurd he hc.ne⟩
  · exact h.2 d hd

theorem IsBest.cons_skip {c d b : Candidate} {cs : List Candidate} (h : IsBest (c :: cs) b)
    (hd : d.rank.key ≤ c.rank.key) (hi : c.index < d.index) : IsBest (c :: d :: cs) b := by
  have hc := h.2 c List.mem_cons_self
  refine ⟨?_, ?_⟩
  · rcases List.mem_cons.mp h.1 with rfl | hb
    · exact List.mem_cons_self
    · exact List.mem_cons_of_mem _ (List.mem_cons_of_mem _ hb)
  · intro e he
    rcases List.mem_cons.mp he with rfl | he
    · exact hc
    · rcases List.mem_cons.mp he with rfl | he
      · refine ⟨hd.trans hc.1, fun hk => ?_⟩
        have hcb : c.rank.key = b.rank.key := le_antisymm hc.1 (hk ▸ hd)
        exact (hc.2 hcb).trans hi.le
      · exact h.2 e (List.mem_cons_of_mem _ he)

theorem foldl_better_isBest (cs : List Candidate) (c : Candidate)
    (h : (c :: cs).Pairwise (·.index < ·.index)) : IsBest (c :: cs) (cs.foldl better c) := by
  induction cs generalizing c with
  | nil => exact ⟨List.mem_cons_self, fun d hd => by simp_all⟩
  | cons d ds ih =>
    obtain ⟨hc, hds⟩ := List.pairwise_cons.mp h
    rw [List.foldl_cons, better]
    by_cases hlt : c.rank.lt d.rank = true
    · rw [if_pos hlt]
      have hb := ih d hds
      have hcd := (Rank.lt_iff_key _ _).mp hlt
      exact hb.cons_left (hcd.trans_le (hb.2 d List.mem_cons_self).1)
    · rw [if_neg hlt]
      have hb := ih c (List.pairwise_cons.mpr
        ⟨fun e he => hc e (List.mem_cons_of_mem _ he), (List.pairwise_cons.mp hds).2⟩)
      have hdc : d.rank.key ≤ c.rank.key := by
        simpa only [Rank.lt_iff_key, not_lt] using hlt
      exact hb.cons_skip hdc (hc d List.mem_cons_self)

theorem IsBest.unique {cs : List Candidate} (h : cs.Pairwise (·.index < ·.index))
    {b c : Candidate} (hb : IsBest cs b) (hc : IsBest cs c) : b = c := by
  have hk : b.rank.key = c.rank.key := le_antisymm (hc.2 b hb.1).1 (hb.2 c hc.1).1
  have hi : b.index = c.index :=
    le_antisymm ((hb.2 c hc.1).2 hk.symm) ((hc.2 b hb.1).2 hk)
  by_contra hne
  rcases (List.pairwise_iff_getElem.mp h) with hp
  obtain ⟨m, hm, rfl⟩ := List.getElem_of_mem hb.1
  obtain ⟨n, hn, rfl⟩ := List.getElem_of_mem hc.1
  rcases Nat.lt_trichotomy m n with hmn | rfl | hmn
  · exact absurd hi (hp m n hm hn hmn).ne
  · exact hne rfl
  · exact absurd hi (hp n m hn hm hmn).ne'

theorem best?_eq_some_iff {cs : List Candidate} (h : cs.Pairwise (·.index < ·.index))
    (c : Candidate) : best? cs = some c ↔ IsBest cs c := by
  cases cs with
  | nil => simp [best?, IsBest]
  | cons d ds =>
    have hb := foldl_better_isBest ds d h
    constructor
    · intro he
      rwa [← Option.some.inj he]
    · intro hc
      exact congrArg some (hb.unique h hc)

theorem best?_eq_none_iff (cs : List Candidate) : best? cs = none ↔ cs = [] := by
  cases cs <;> simp [best?]

end Candidate

end Gateway
