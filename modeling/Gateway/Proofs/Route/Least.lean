import Gateway.Proofs.Route.Outline
import Mathlib.Tactic.ByContra

/-! The match that is found in a path is the least of its splits, and there is none only when there
is no split. -/

namespace Gateway

namespace Outline

theorem Least.unique {o : Outline} {path u u' : List Char} {vs vs' : List (List Char)}
    (h : o.Least path u vs) (h' : o.Least path u' vs') : u = u' ∧ vs = vs' := by
  rcases h'.least u vs h.toSplit with he | hlt
  · exact he
  · rcases h.least u' vs' h'.toSplit with ⟨rfl, rfl⟩ | hgt
    · exact ⟨rfl, rfl⟩
    · exact absurd hgt (List.lex_asymm Nat.lt_asymm hlt)

end Outline

namespace Template

theorem lazily_isSome {rest : List Char → Option (List (List Char))} {v s : List Char}
    (hv : '\n' ∉ v) (hr : (rest s).isSome) : (lazily rest (v ++ s)).isSome := by
  induction v with
  | nil =>
    obtain ⟨ws, hw⟩ := Option.isSome_iff_exists.mp hr
    rw [lazily_eq_some_iff.mpr ⟨[], s, ws, rfl, by simp, hw, rfl, by simp⟩]
    rfl
  | cons c v ih =>
    rw [List.cons_append, lazily]
    cases hrest : rest (c :: (v ++ s)) with
    | some ws => rfl
    | none =>
      have hc : c ≠ '\n' := fun he => hv (he ▸ List.mem_cons_self)
      obtain ⟨us, hu⟩ := Option.isSome_iff_exists.mp
        (ih fun hm => hv (List.mem_cons_of_mem _ hm))
      obtain ⟨w, r, ws, -, -, -, rfl, -⟩ := lazily_eq_some_iff.mp hu
      simp only [if_neg hc, hu, Option.isSome_some]

theorem capture_isSome {ps : List Piece} {s : List Char} {vs : List (List Char)}
    (h : Fits ps s vs) : (capture ps s).isSome := by
  induction h with
  | nil => rfl
  | char c _ ih => simpa [capture] using ih
  | token name v hv _ ih => exact lazily_isSome hv ih

theorem capture_eq_none_iff {ps : List Piece} {s : List Char} :
    capture ps s = none ↔ ∀ vs, ¬ Fits ps s vs := by
  constructor
  · intro hnone vs hf
    have hsome := capture_isSome hf
    simp [hnone] at hsome
  · intro h
    exact Option.eq_none_iff_forall_ne_some.mpr fun vs hc => h vs (fits_of_capture hc)

theorem capture_token_eq_some_iff {ps : List Piece} {name s : List Char}
    {vs : List (List Char)} : capture (.token name :: ps) s = some vs ↔
      ∃ v r ws, s = v ++ r ∧ '\n' ∉ v ∧ capture ps r = some ws ∧ vs = v :: ws ∧
        ∀ x y, s = x ++ y → x.length < v.length → capture ps y = none := lazily_eq_some_iff

theorem length_le_of_fits {ps : List Piece} {s v x y : List Char} {ws : List (List Char)}
    (hfirst : ∀ x y, s = x ++ y → x.length < v.length → capture ps y = none)
    (hs : s = x ++ y) (hf : Fits ps y ws) : v.length ≤ x.length := by
  by_contra hlt
  exact capture_eq_none_iff.mp (hfirst x y hs (by omega)) ws hf

theorem capture_least {ps : List Piece} {s : List Char} {vs ws : List (List Char)}
    (h : capture ps s = some vs) (hf : Fits ps s ws) :
    ws = vs ∨ List.Lex (· < ·) (vs.map List.length) (ws.map List.length) := by
  induction hf generalizing vs with
  | nil =>
    cases h
    exact .inl rfl
  | char c _ ih => exact ih (by simpa [capture] using h)
  | @token ps y ws name w _ hf ih =>
    obtain ⟨v, r, us, hs, -, hr, rfl, hfirst⟩ := capture_token_eq_some_iff.mp h
    have hlen : v.length ≤ w.length := length_le_of_fits hfirst rfl hf
    by_cases hlt : v.length < w.length
    · exact .inr (.rel hlt)
    · obtain ⟨rfl, rfl⟩ := List.append_inj hs (by omega)
      rcases ih hr with rfl | hlex
      · exact .inl rfl
      · exact .inr (.cons hlex)

theorem search_isSome {ps : List Piece} {s : List Char} {n : Nat} (hn : n ≤ s.length)
    (hc : (capture ps (s.drop n)).isSome) : (search ps s).isSome := by
  induction s generalizing n with
  | nil =>
    obtain rfl : n = 0 := by simpa using hn
    simpa [search] using hc
  | cons c cs ih =>
    rw [search]
    cases hcap : capture ps (c :: cs) with
    | some us => rfl
    | none =>
      cases n with
      | zero => simp [hcap] at hc
      | succ n => simpa using ih (by simpa using hn) hc

/-! ### The least split -/

theorem find?_isSome_of_split {t : Template} {path before : List Char} {vs : List (List Char)}
    (h : t.outline.Split path before vs) : (t.find? path).isSome := by
  obtain ⟨rest, rfl, hf, hfront⟩ := split_iff.mp h
  by_cases ha : t.anchored = true
  · obtain rfl := hfront ha
    simpa [find?, ha] using capture_isSome hf
  · rw [find?, if_neg ha]
    refine search_isSome (n := before.length) (by simp) ?_
    simpa using capture_isSome hf

theorem split_of_find? {t : Template} {path : List Char} {n : Nat} {vs : List (List Char)}
    (h : t.find? path = some (n, vs)) : t.outline.Split path (path.take n) vs := by
  refine split_iff.mpr ⟨_, (List.take_append_drop n path).symm, fits_of_find? h, fun ha => ?_⟩
  simp only [find?, ha, if_true, Option.map_eq_some_iff, Prod.mk.injEq] at h
  obtain ⟨_, -, rfl, -⟩ := h
  rfl

theorem start_le_of_split {t : Template} {path before : List Char} {n : Nat}
    {vs ws : List (List Char)} (h : t.find? path = some (n, vs))
    (hs : t.outline.Split path before ws) : n ≤ before.length := by
  obtain ⟨rest, rfl, hf, -⟩ := split_iff.mp hs
  by_cases ha : t.anchored = true
  · simp only [find?, ha, if_true, Option.map_eq_some_iff, Prod.mk.injEq] at h
    obtain ⟨_, -, rfl, -⟩ := h
    exact Nat.zero_le _
  · rw [find?, if_neg ha] at h
    obtain ⟨-, -, hfirst⟩ := search_eq_some_iff.mp h
    by_contra hlt
    have hnone := hfirst before.length (by omega)
    rw [List.drop_left] at hnone
    exact capture_eq_none_iff.mp hnone ws hf

theorem least_of_find? {t : Template} {path : List Char} {n : Nat} {vs : List (List Char)}
    (h : t.find? path = some (n, vs)) : t.outline.Least path (path.take n) vs := by
  refine ⟨split_of_find? h, fun first others ho => ?_⟩
  obtain ⟨hn, hc⟩ := capture_of_find? h
  have hle : n ≤ first.length := start_le_of_split h ho
  obtain ⟨rest, rfl, hf, -⟩ := split_iff.mp ho
  rw [List.length_take_of_le hn]
  by_cases hlt : n < first.length
  · exact .inr (.rel hlt)
  · obtain rfl : n = first.length := by omega
    rw [List.drop_left] at hc
    rcases capture_least hc hf with rfl | hlex
    · exact .inl ⟨by simp, rfl⟩
    · exact .inr (.cons hlex)

/-- The least split is found. -/
theorem find?_eq_some_iff {t : Template} {path : List Char} {n : Nat} {vs : List (List Char)} :
    t.find? path = some (n, vs) ↔ ∃ before, before.length = n ∧ t.outline.Least path before vs := by
  constructor
  · intro h
    exact ⟨path.take n, List.length_take_of_le (capture_of_find? h).1, least_of_find? h⟩
  · rintro ⟨before, rfl, hl⟩
    obtain ⟨⟨m, ws⟩, hm⟩ := Option.isSome_iff_exists.mp (find?_isSome_of_split hl.toSplit)
    obtain ⟨rfl, rfl⟩ := hl.unique (least_of_find? hm)
    rw [hm, List.length_take_of_le (capture_of_find? hm).1]

theorem find?_eq_none_iff {t : Template} {path : List Char} :
    t.find? path = none ↔ ¬ ∃ before vs, t.outline.Split path before vs := by
  constructor
  · rintro h ⟨before, vs, hs⟩
    have hsome := find?_isSome_of_split hs
    simp [h] at hsome
  · intro h
    by_contra hne
    obtain ⟨⟨n, vs⟩, hf⟩ := Option.ne_none_iff_exists'.mp hne
    exact h ⟨_, vs, split_of_find? hf⟩

end Template

end Gateway
