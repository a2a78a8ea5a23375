import Gateway.Proofs.Route.Selection
import Gateway.Router.Table
import Mathlib.Data.List.Nodup

/-! The tables that registrations build: every table finds the chain and the pattern of each hit of
its matcher, and every method has one table at most. -/

namespace Gateway

namespace Table

/-- The matcher is that of the patterns, and each of them has a chain. -/
structure Coherent (t : Table) : Prop where
  matcher : t.matcher = Matcher.build t.patterns
  chains : t.chains.length = t.patterns.length

theorem coherent_empty : Coherent {} := ⟨rfl, rfl⟩

theorem Coherent.add {t : Table} (h : t.Coherent) (pattern : String) (chain : Chain) :
    (t.add pattern chain).Coherent := ⟨rfl, by simp [Table.add, h.chains]⟩

theorem Coherent.find?_of_hit {t : Table} (h : t.Coherent) {path : String} {hit : Hit}
    (hf : t.matcher.find? path = some hit) :
    ∃ chain pattern, t.chains[hit.index]? = some chain ∧ t.patterns[hit.index]? = some pattern ∧
      t.find? path = some (chain, pattern, hit) := by
  have hp : hit.index < t.patterns.length := Matcher.find?_index_lt (h.matcher ▸ hf)
  have hc : hit.index < t.chains.length := h.chains ▸ hp
  refine ⟨_, _, List.getElem?_eq_getElem hc, List.getElem?_eq_getElem hp, ?_⟩
  simp [find?, hf, hp, hc]

theorem find?_of_no_hit {t : Table} {path : String} (hf : t.matcher.find? path = none) :
    t.find? path = none := by simp [find?, hf]

end Table

namespace Tables

/-- Every method has one coherent table at most. -/
structure Coherent (ts : Tables) : Prop where
  methods : (ts.map Prod.fst).Nodup
  tables : ∀ m t, (m, t) ∈ ts → t.Coherent

theorem coherent_nil : Coherent [] := ⟨List.nodup_nil, by simp⟩

theorem mem_of_get? {ts : Tables} {m : Method} {t : Table} (h : ts.get? m = some t) :
    (m, t) ∈ ts := by
  obtain ⟨⟨n, u⟩, hf, hu⟩ := Option.map_eq_some_iff.mp h
  have hn : n = m := by simpa using List.find?_some hf
  subst n hu
  exact List.mem_of_find?_eq_some hf

theorem Coherent.get?_eq_some_iff {ts : Tables} (h : ts.Coherent) {m : Method} {t : Table} :
    ts.get? m = some t ↔ (m, t) ∈ ts := by
  refine ⟨mem_of_get?, fun hm => ?_⟩
  cases hg : ts.get? m with
  | none =>
    have hnone := List.find?_eq_none.mp (Option.map_eq_none_iff.mp hg) _ hm
    simp at hnone
  | some u =>
    have he := List.inj_on_of_nodup_map h.methods (mem_of_get? hg) hm rfl
    exact congrArg some (Prod.mk.inj he).2

theorem map_fst_put (m : Method) (t : Table) (ts : Tables) :
    (put m t ts).map Prod.fst =
      if m ∈ ts.map Prod.fst then ts.map Prod.fst else ts.map Prod.fst ++ [m] := by
  induction ts with
  | nil => rfl
  | cons v ts ih =>
    obtain ⟨n, u⟩ := v
    by_cases hn : n = m
    · simp [put, hn]
    · have hm : ¬ m = n := fun h => hn h.symm
      simp only [put, hn, if_false, List.map_cons, ih, List.mem_cons, hm, false_or]
      split <;> rfl

theorem mem_put {m n : Method} {t u : Table} {ts : Tables} (h : (n, u) ∈ put m t ts) :
    u = t ∨ (n, u) ∈ ts := by
  induction ts with
  | nil => exact .inl (Prod.mk.inj (List.mem_singleton.mp h)).2
  | cons v ts ih =>
    obtain ⟨k, w⟩ := v
    unfold put at h
    split at h
    · rcases List.mem_cons.mp h with he | hm
      · exact .inl (Prod.mk.inj he).2
      · exact .inr (List.mem_cons_of_mem _ hm)
    · rcases List.mem_cons.mp h with he | hm
      · exact .inr (he ▸ List.mem_cons_self)
      · exact (ih hm).imp_right (List.mem_cons_of_mem _)

theorem get?_put (m n : Method) (t : Table) (ts : Tables) :
    (put m t ts).get? n = if n = m then some t else ts.get? n := by
  induction ts with
  | nil =>
    by_cases hn : n = m
    · simp [put, get?, hn]
    · simp [put, get?, hn, Ne.symm hn]
  | cons v ts ih =>
    obtain ⟨k, u⟩ := v
    unfold get? at ih ⊢
    by_cases hkm : k = m
    · subst k
      by_cases hn : n = m
      · simp [put, hn]
      · simp [put, hn, Ne.symm hn]
    · by_cases hkn : k = n
      · subst k
        simp [put, hkm]
      · simp [put, hkm, hkn, ih]

theorem get?_add (ts : Tables) (m n : Method) (pattern : String) (chain : Chain) :
    ((ts.add m pattern chain).get? n).getD {} =
      if n = m then ((ts.get? m).getD {}).add pattern chain else (ts.get? n).getD {} := by
  rw [add, get?_put]
  split <;> rfl

theorem Coherent.put {ts : Tables} (h : ts.Coherent) (m : Method) {t : Table} (ht : t.Coherent) :
    (put m t ts).Coherent where
  methods := by
    rw [map_fst_put]
    split
    · exact h.methods
    · next hm => exact List.Nodup.append h.methods (List.nodup_singleton m) (by simpa using hm)
  tables := by
    intro n u hu
    rcases mem_put hu with rfl | hm
    · exact ht
    · exact h.tables n u hm

theorem Coherent.add {ts : Tables} (h : ts.Coherent) (m : Method) (pattern : String)
    (chain : Chain) : (ts.add m pattern chain).Coherent := by
  refine h.put m (Table.Coherent.add ?_ pattern chain)
  cases hg : ts.get? m with
  | none => exact Table.coherent_empty
  | some t => exact h.tables m t (mem_of_get? hg)

theorem Coherent.servesOther_iff {ts : Tables} (h : ts.Coherent) (m : Method) (path : String) :
    ts.servesOther m path = true ↔
      ∃ n t, n ≠ m ∧ ts.get? n = some t ∧ ∃ hit, t.matcher.find? path = some hit := by
  rw [servesOther, List.any_eq_true]
  constructor
  · rintro ⟨⟨n, t⟩, hm, hs⟩
    obtain ⟨hn, hs⟩ := (Bool.and_eq_true_iff).mp hs
    exact ⟨n, t, bne_iff_ne.mp hn, h.get?_eq_some_iff.mpr hm, Option.isSome_iff_exists.mp hs⟩
  · rintro ⟨n, t, hn, hg, hs⟩
    refine ⟨(n, t), h.get?_eq_some_iff.mp hg, (Bool.and_eq_true_iff).mpr ⟨?_, ?_⟩⟩
    · exact bne_iff_ne.mpr hn
    · exact Option.isSome_iff_exists.mpr hs

end Tables

end Gateway
