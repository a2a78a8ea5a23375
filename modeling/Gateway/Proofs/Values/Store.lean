import Gateway.Values.Store

/-! What is found under a name after values were set and removed. -/

namespace Gateway

namespace Values

theorem get?_remove (vs : Values) (n m : String) :
    (vs.remove n).get? m = if n = m then none else vs.get? m := by
  obtain ⟨entries⟩ := vs
  simp only [get?, remove, List.find?_filter]
  by_cases h : n = m
  · subst n
    simp
  · rw [if_neg h]
    congr 2
    funext e
    by_cases hm : e.1 = m
    · simp [hm, Ne.symm h]
    · simp [hm]

theorem get?_set (vs : Values) (n m : String) (v : Stored) :
    (vs.set n v).get? m = if n = m then some v else vs.get? m := by
  have hr := vs.get?_remove n m
  by_cases h : n = m
  · simp [get?, set, h]
  · rw [if_neg h] at hr ⊢
    simpa [get?, set, h] using hr

end Values

end Gateway
