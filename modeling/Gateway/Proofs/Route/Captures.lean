import Gateway.Proofs.Route.Selection
import Mathlib.Data.List.Basic

/-! The values of parameters are made of characters of the path that was looked up. -/

namespace Gateway

namespace Template

theorem Fits.subset {ps : List Piece} {s : List Char} {vs : List (List Char)} (h : Fits ps s vs)
    {v : List Char} (hv : v ∈ vs) : v ⊆ s := by
  induction h with
  | nil => simp at hv
  | char c _ ih => exact fun _ hc => List.mem_cons_of_mem _ (ih hv hc)
  | token name w _ _ ih =>
    rcases List.mem_cons.mp hv with rfl | hv
    · exact List.subset_append_left _ _
    · exact fun _ hc => List.mem_append_right _ (ih hv hc)

theorem subset_of_find? {t : Template} {path : List Char} {n : Nat} {vs : List (List Char)}
    (h : t.find? path = some (n, vs)) {v : List Char} (hv : v ∈ vs) : v ⊆ path :=
  fun _ hc => List.mem_of_mem_drop ((fits_of_find? h).subset hv hc)

end Template

/-- The value of every parameter is made of characters of the path. -/
def Params.Within (ps : Params) (path : List Char) : Prop := ∀ p ∈ ps, p.2.toList ⊆ path

theorem Params.within_nil (path : List Char) : Params.Within [] path := fun p hp => by cases hp

theorem Params.Within.value {ps : Params} {path : List Char} (h : ps.Within path)
    (name : String) : (ps.value name).toList ⊆ path := by
  unfold Params.value Params.get?
  cases hp : ps.find? (·.1 == name) with
  | none => simp
  | some p => exact h p (List.mem_of_find?_eq_some hp)

namespace Candidate

theorem withoutSlash_subset (s : List Char) : withoutSlash s ⊆ s := by
  unfold withoutSlash
  split
  · exact List.dropLast_subset s
  · exact List.Subset.refl s

theorem ofMatch_within {t : Template} {path : List Char} {start : Nat}
    {captures : List (List Char)} (h : t.find? path = some (start, captures)) (i : Nat)
    (text : String) : (ofMatch i text t start captures).hit.params.Within path := by
  intro p hp
  obtain ⟨⟨name, v⟩, hv, rfl⟩ := List.mem_map.mp hp
  have hcaptured : v ⊆ path := Template.subset_of_find? h (List.of_mem_zip hv).2
  simpa using List.Subset.trans (withoutSlash_subset v) hcaptured

theorem mem_of_best? {cs : List Candidate} {c : Candidate} (h : best? cs = some c) : c ∈ cs := by
  cases cs with
  | nil => cases h
  | cons d ds =>
    obtain rfl : ds.foldl better d = c := by simpa [best?] using h
    clear h
    induction ds generalizing d with
    | nil => simp
    | cons e es ih =>
      rw [List.foldl_cons]
      have hbetter : d.better e = d ∨ d.better e = e := by
        unfold better
        split
        · exact .inr rfl
        · exact .inl rfl
      have hmem := ih (d.better e)
      rcases hbetter with hb | hb <;> rw [hb] at hmem ⊢ <;>
        rcases List.mem_cons.mp hmem with hm | hm <;> simp [hm]

end Candidate

namespace Matcher

theorem best?_candidates_within {m : Matcher} {priority : Bool} {path : String} {c : Candidate}
    (h : Candidate.best? (m.candidates priority path) = some c) :
    c.hit.params.Within path.toList := by
  obtain ⟨⟨i, p⟩, -, hp⟩ := List.mem_filterMap.mp (Candidate.mem_of_best? h)
  obtain ⟨text, t, start, captures, -, hfind, -, rfl⟩ := candidateAt?_eq_some_iff.mp hp
  exact Candidate.ofMatch_within hfind i text

theorem find?_within {m : Matcher} {path : String} {hit : Hit} (h : m.find? path = some hit) :
    hit.params.Within path.toList := by
  unfold find? at h
  split at h
  · next hexact =>
    cases h
    obtain ⟨⟨i, p⟩, -, hp⟩ := List.exists_of_findSome?_eq_some hexact
    obtain ⟨text, -, -, rfl⟩ := exactHitAt?_eq_some_iff.mp hp
    exact Params.within_nil _
  · split at h
    · next hbest =>
      cases h
      exact best?_candidates_within hbest
    · obtain ⟨c, hbest, rfl⟩ := Option.map_eq_some_iff.mp h
      exact best?_candidates_within hbest

end Matcher

end Gateway
