import Gateway.Http.Headers

/-! What is found under a name after headers were set, added or left out. -/

namespace Gateway.Headers

theorem getAll_filter (h : Headers) (keep : HeaderName → Bool) (m : HeaderName) :
    (Headers.mk (h.entries.filter fun e => keep e.1)).getAll m =
      if keep m then h.getAll m else [] := by
  simp only [getAll, List.filterMap_filter]
  cases hm : keep m with
  | true =>
    congr 1
    funext e
    by_cases he : e.1 = m
    · simp [he, hm]
    · simp [he]
  | false =>
    refine List.filterMap_eq_nil_iff.mpr fun e _ => ?_
    by_cases he : e.1 = m
    · simp [he, hm]
    · simp [he]

theorem getAll_remove (h : Headers) (n m : HeaderName) :
    (h.remove n).getAll m = if n = m then [] else h.getAll m := by
  refine (h.getAll_filter (· != n) m).trans ?_
  by_cases hn : n = m
  · simp [hn]
  · simp [hn, Ne.symm hn]

theorem getAll_foldl_remove (names : List HeaderName) (h : Headers) (m : HeaderName) :
    (names.foldl remove h).getAll m = if m ∈ names then [] else h.getAll m := by
  induction names generalizing h with
  | nil => simp
  | cons n names ih =>
    rw [List.foldl_cons, ih, getAll_remove]
    by_cases hn : n = m
    · simp [hn]
    · simp [hn, Ne.symm hn]

theorem remove_of_absent {h : Headers} {n : HeaderName} (absent : h.getAll n = []) :
    h.remove n = h := by
  refine congrArg Headers.mk (List.filter_eq_self.mpr fun e he => bne_iff_ne.mpr ?_)
  rintro rfl
  simp only [getAll, List.filterMap_eq_nil_iff] at absent
  simpa using absent e he

theorem foldl_remove_of_absent {names : List HeaderName} {h : Headers}
    (absent : ∀ n ∈ names, h.getAll n = []) : names.foldl remove h = h := by
  induction names with
  | nil => rfl
  | cons n names ih =>
    obtain ⟨hn, hnames⟩ := List.forall_mem_cons.mp absent
    rw [List.foldl_cons, remove_of_absent hn, ih hnames]

theorem getAll_insert (h : Headers) (n m : HeaderName) (v : HeaderValue) :
    (h.insert n v).getAll m = if n = m then [v] else h.getAll m := by
  have hr := h.getAll_remove n m
  simp only [getAll, insert, append, List.filterMap_append] at hr ⊢
  rw [hr]
  by_cases hn : n = m <;> simp [hn]

theorem getAll_append (h : Headers) (n m : HeaderName) (v : HeaderValue) :
    (h.append n v).getAll m = h.getAll m ++ if n = m then [v] else [] := by
  simp only [getAll, append, List.filterMap_append]
  by_cases hn : n = m <;> simp [hn]

theorem getAll_appendAll (h other : Headers) (m : HeaderName) :
    (h.appendAll other).getAll m = h.getAll m ++ other.getAll m := by
  simp only [getAll, appendAll, List.filterMap_append]

theorem contains_eq_false_iff {h : Headers} {name : HeaderName} :
    h.contains name = false ↔ h.getAll name = [] := by
  simp [contains, getAll, List.filterMap_eq_nil_iff]

end Gateway.Headers
