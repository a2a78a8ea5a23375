import Gateway.Route.Pattern

/-! What it means for the pieces of a template to make up a text, and that the search for a match
only finds such readings of the path. -/

namespace Gateway.Template

/-- The pieces make up the text when their tokens stand for the values, none of which has a line
feed. -/
inductive Fits : List Piece → List Char → List (List Char) → Prop
  | nil : Fits [] [] []
  | char {ps : List Piece} {s : List Char} {vs : List (List Char)} (c : Char)
      (rest : Fits ps s vs) : Fits (.char c :: ps) (c :: s) vs
  | token {ps : List Piece} {s : List Char} {vs : List (List Char)} (name v : List Char)
      (line : '\n' ∉ v) (rest : Fits ps s vs) : Fits (.token name :: ps) (v ++ s) (v :: vs)

theorem fits_char_iff {ps : List Piece} {c : Char} {s : List Char} {vs : List (List Char)} :
    Fits (.char c :: ps) s vs ↔ ∃ r, s = c :: r ∧ Fits ps r vs := by
  constructor
  · rintro (_ | ⟨_, hrest⟩)
    exact ⟨_, rfl, hrest⟩
  · rintro ⟨r, rfl, hrest⟩
    exact .char c hrest

theorem fits_token_iff {ps : List Piece} {name s : List Char} {vs : List (List Char)} :
    Fits (.token name :: ps) s vs ↔
      ∃ v r ws, s = v ++ r ∧ '\n' ∉ v ∧ vs = v :: ws ∧ Fits ps r ws := by
  constructor
  · rintro (_ | _ | ⟨_, v, hv, hrest⟩)
    exact ⟨v, _, _, rfl, hv, rfl, hrest⟩
  · rintro ⟨v, r, ws, rfl, hv, rfl, hrest⟩
    exact .token name v hv hrest

theorem Fits.length_eq {ps : List Piece} {s : List Char} {vs : List (List Char)}
    (h : Fits ps s vs) :
    vs.length = (ps.filterMap fun | .token n => some n | .char _ => none).length := by
  induction h with
  | nil => rfl
  | char c _ ih => simpa using ih
  | token name v _ _ ih => simpa using ih

theorem lazily_eq_some_iff {rest : List Char → Option (List (List Char))} {s : List Char}
    {vs : List (List Char)} : lazily rest s = some vs ↔
      ∃ v r ws, s = v ++ r ∧ '\n' ∉ v ∧ rest r = some ws ∧ vs = v :: ws ∧
        ∀ x y, s = x ++ y → x.length < v.length → rest y = none := by
  induction s generalizing vs with
  | nil =>
    simp only [lazily, Option.map_eq_some_iff]
    constructor
    · rintro ⟨ws, hr, rfl⟩
      exact ⟨[], [], ws, rfl, by simp, hr, rfl, by simp⟩
    · rintro ⟨v, r, ws, hs, -, hr, rfl, -⟩
      obtain ⟨rfl, rfl⟩ := List.append_eq_nil_iff.mp hs.symm
      exact ⟨ws, hr, rfl⟩
  | cons c cs ih =>
    rw [lazily]
    cases hrest : rest (c :: cs) with
    | some us =>
      simp only [Option.some.injEq]
      constructor
      · rintro rfl
        exact ⟨[], c :: cs, us, rfl, by simp, hrest, rfl, by simp⟩
      · rintro ⟨v, r, ws, hs, -, hr, rfl, hfirst⟩
        cases v with
        | nil =>
          obtain rfl : c :: cs = r := hs
          rw [Option.some.inj (hrest.symm.trans hr)]
        | cons d v =>
          have hnone := hfirst [] (c :: cs) rfl (by simp)
          simp [hrest] at hnone
    | none =>
      by_cases hc : c = '\n'
      · subst c
        simp only [if_true, reduceCtorEq, false_iff]
        rintro ⟨v, r, ws, hs, hv, hr, -, -⟩
        cases v with
        | nil =>
          obtain rfl : '\n' :: cs = r := hs
          simp [hrest] at hr
        | cons d v =>
          obtain ⟨rfl, -⟩ := List.cons.inj hs
          exact hv List.mem_cons_self
      · simp only [if_neg hc]
        constructor
        · intro h
          cases hl : lazily rest cs with
          | none => simp [hl] at h
          | some us =>
            obtain ⟨v, r, ws, hs, hv, hr, rfl, hfirst⟩ := ih.mp hl
            obtain rfl : (c :: v) :: ws = vs := by simpa [hl] using h
            refine ⟨c :: v, r, ws, by simp [hs], ?_, hr, rfl, ?_⟩
            · simpa [hv] using fun he => hc he.symm
            · intro x y hxy hlen
              cases x with
              | nil =>
                obtain rfl : c :: cs = y := hxy
                exact hrest
              | cons d x =>
                obtain ⟨-, hcs⟩ := List.cons.inj hxy
                exact hfirst x y hcs (by simpa using hlen)
        · rintro ⟨v, r, ws, hs, hv, hr, rfl, hfirst⟩
          cases v with
          | nil =>
            obtain rfl : c :: cs = r := hs
            simp [hrest] at hr
          | cons d v =>
            obtain ⟨rfl, hcs⟩ := List.cons.inj hs
            have htail : lazily rest cs = some (v :: ws) := by
              refine ih.mpr ⟨v, r, ws, hcs, fun hm => hv (List.mem_cons_of_mem _ hm), hr, rfl, ?_⟩
              intro x y hxy hlen
              exact hfirst (c :: x) y (by rw [hxy, List.cons_append]) (by simpa using hlen)
            rw [htail]

theorem fits_of_capture {ps : List Piece} {s : List Char} {vs : List (List Char)}
    (h : capture ps s = some vs) : Fits ps s vs := by
  induction ps generalizing s vs with
  | nil =>
    cases s with
    | nil =>
      obtain rfl : [] = vs := by simpa [capture] using h
      exact .nil
    | cons d ds => simp [capture] at h
  | cons p ps ih =>
    cases p with
    | char c =>
      cases s with
      | nil => simp [capture] at h
      | cons d ds =>
        by_cases hc : c = d
        · subst c
          exact .char d (ih (by simpa [capture] using h))
        · simp [capture, hc] at h
    | token name =>
      obtain ⟨v, r, ws, rfl, hv, hw, rfl, -⟩ := lazily_eq_some_iff.mp h
      exact .token name v hv (ih hw)

theorem search_eq_some_iff {ps : List Piece} {s : List Char} {n : Nat} {vs : List (List Char)} :
    search ps s = some (n, vs) ↔
      n ≤ s.length ∧ capture ps (s.drop n) = some vs ∧ ∀ m < n, capture ps (s.drop m) = none := by
  induction s generalizing n with
  | nil =>
    simp only [search, Option.map_eq_some_iff, Prod.mk.injEq]
    constructor
    · rintro ⟨us, hc, rfl, rfl⟩
      exact ⟨Nat.le_refl _, hc, by simp⟩
    · rintro ⟨hn, hc, -⟩
      obtain rfl : n = 0 := by simpa using hn
      exact ⟨vs, hc, rfl, rfl⟩
  | cons c cs ih =>
    rw [search]
    cases hc : capture ps (c :: cs) with
    | some us =>
      simp only [Option.some.injEq, Prod.mk.injEq]
      constructor
      · rintro ⟨rfl, rfl⟩
        exact ⟨Nat.zero_le _, hc, by simp⟩
      · rintro ⟨-, hn, hfirst⟩
        cases n with
        | zero => exact ⟨rfl, Option.some.inj (hc.symm.trans hn)⟩
        | succ n =>
          have hnone := hfirst 0 (by omega)
          simp [hc] at hnone
    | none =>
      simp only [Option.map_eq_some_iff, Prod.mk.injEq]
      constructor
      · rintro ⟨⟨m, us⟩, hm, rfl, rfl⟩
        obtain ⟨hle, hcap, hfirst⟩ := ih.mp hm
        refine ⟨by simpa using hle, hcap, ?_⟩
        intro k hk
        cases k with
        | zero => exact hc
        | succ k => exact hfirst k (by omega)
      · rintro ⟨hle, hcap, hfirst⟩
        cases n with
        | zero => simp [hc] at hcap
        | succ n =>
          refine ⟨(n, vs), ih.mpr ⟨by simpa using hle, hcap, ?_⟩, rfl, rfl⟩
          exact fun k hk => hfirst (k + 1) (by omega)

theorem capture_of_find? {t : Template} {path : List Char} {n : Nat} {vs : List (List Char)}
    (h : t.find? path = some (n, vs)) :
    n ≤ path.length ∧ capture t.pieces (path.drop n) = some vs := by
  by_cases ha : t.anchored = true
  · simp only [find?, ha, if_true, Option.map_eq_some_iff, Prod.mk.injEq] at h
    obtain ⟨_, hc, rfl, rfl⟩ := h
    exact ⟨Nat.zero_le _, hc⟩
  · rw [find?, if_neg ha] at h
    obtain ⟨hle, hc, -⟩ := search_eq_some_iff.mp h
    exact ⟨hle, hc⟩

theorem fits_of_find? {t : Template} {path : List Char} {n : Nat} {vs : List (List Char)}
    (h : t.find? path = some (n, vs)) : Fits t.pieces (path.drop n) vs :=
  fits_of_capture (capture_of_find? h).2

theorem length_of_find? {t : Template} {path : List Char} {n : Nat} {vs : List (List Char)}
    (h : t.find? path = some (n, vs)) : vs.length = t.names.length :=
  (fits_of_find? h).length_eq

end Gateway.Template
