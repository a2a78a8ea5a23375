import Gateway.Proofs.Route.Fits

/-! The literal texts of a template, and the splits of a path into them and the values between them.
A text fits the pieces of a template exactly when it has such a split. -/

namespace Gateway

namespace Template

def literals : List Piece → List (List Char)
  | [] => [[]]
  | .char c :: ps => (literals ps).modifyHead (c :: ·)
  | .token _ :: ps => [] :: literals ps

def weave : List (List Char) → List (List Char) → List Char
  | [], _ => []
  | l :: _, [] => l
  | l :: ls, v :: vs => l ++ v ++ weave ls vs

end Template

/-- What a template asks of a path: its literal texts, and whether the first one is in front. -/
structure Outline where
  anchored : Bool
  literals : List (List Char)
deriving DecidableEq, Repr

def Template.outline (t : Template) : Outline := ⟨t.anchored, literals t.pieces⟩

namespace Outline

/-- The path is the text `before` the first literal, and the literals with the values between
them. -/
structure Split (o : Outline) (path before : List Char) (values : List (List Char)) : Prop where
  text : path = before ++ Template.weave o.literals values
  count : o.literals.length = values.length + 1
  lines : ∀ v ∈ values, '\n' ∉ v
  front : o.anchored = true → before = []

/-- Of all splits of the path this one has the shortest text before the first literal, then the
shortest first value, then the shortest second one, and so on. -/
structure Least (o : Outline) (path before : List Char) (values : List (List Char)) : Prop
    extends Split o path before values where
  least : ∀ first others, Split o path first others → (first = before ∧ others = values) ∨
    List.Lex (· < ·) (before.length :: values.map List.length)
      (first.length :: others.map List.length)

end Outline

namespace Template

theorem literals_ne_nil (ps : List Piece) : literals ps ≠ [] := by
  induction ps with
  | nil => simp [literals]
  | cons p ps ih =>
    cases p with
    | char c => simpa [literals] using ih
    | token name => simp [literals]

theorem weave_modifyHead {ls : List (List Char)} (h : ls ≠ []) (c : Char)
    (vs : List (List Char)) : weave (ls.modifyHead (c :: ·)) vs = c :: weave ls vs := by
  cases ls with
  | nil => exact absurd rfl h
  | cons l ls => cases vs <;> rfl

theorem Fits.eq_weave {ps : List Piece} {s : List Char} {vs : List (List Char)}
    (h : Fits ps s vs) : s = weave (literals ps) vs := by
  induction h with
  | nil => rfl
  | char c _ ih => rw [literals, weave_modifyHead (literals_ne_nil _), ← ih]
  | token name v _ _ ih => rw [literals, weave, ← ih, List.nil_append]

theorem Fits.count {ps : List Piece} {s : List Char} {vs : List (List Char)} (h : Fits ps s vs) :
    (literals ps).length = vs.length + 1 := by
  induction h with
  | nil => rfl
  | char c _ ih => rwa [literals, List.length_modifyHead]
  | token name v _ _ ih => rw [literals, List.length_cons, ih, List.length_cons]

theorem Fits.lines {ps : List Piece} {s : List Char} {vs : List (List Char)} (h : Fits ps s vs) :
    ∀ v ∈ vs, '\n' ∉ v := by
  induction h with
  | nil => simp
  | char c _ ih => exact ih
  | token name v hv _ ih => exact List.forall_mem_cons.mpr ⟨hv, ih⟩

theorem fits_weave {ps : List Piece} {vs : List (List Char)}
    (hcount : (literals ps).length = vs.length + 1) (hlines : ∀ v ∈ vs, '\n' ∉ v) :
    Fits ps (weave (literals ps) vs) vs := by
  induction ps generalizing vs with
  | nil =>
    obtain rfl : vs = [] := by simpa [literals] using hcount
    exact .nil
  | cons p ps ih =>
    cases p with
    | char c =>
      rw [literals, List.length_modifyHead] at hcount
      rw [literals, weave_modifyHead (literals_ne_nil ps)]
      exact .char c (ih hcount hlines)
    | token name =>
      cases vs with
      | nil => simp [literals, literals_ne_nil] at hcount
      | cons v vs =>
        obtain ⟨hv, hvs⟩ := List.forall_mem_cons.mp hlines
        have hrest : Fits ps (weave (literals ps) vs) vs := by
          refine ih ?_ hvs
          simpa [literals] using hcount
        simpa [literals, weave] using Fits.token name v hv hrest

theorem fits_iff {ps : List Piece} {s : List Char} {vs : List (List Char)} :
    Fits ps s vs ↔ s = weave (literals ps) vs ∧ (literals ps).length = vs.length + 1 ∧
      ∀ v ∈ vs, '\n' ∉ v := by
  constructor
  · intro h
    exact ⟨h.eq_weave, h.count, h.lines⟩
  · rintro ⟨rfl, hcount, hlines⟩
    exact fits_weave hcount hlines

theorem length_literals (t : Template) : t.outline.literals.length = t.names.length + 1 := by
  obtain ⟨anchored, ps⟩ := t
  induction ps with
  | nil => rfl
  | cons p ps ih =>
    cases p with
    | char c => simpa [outline, literals, names] using ih
    | token name => simpa [outline, literals, names] using ih

theorem split_iff {t : Template} {path before : List Char} {vs : List (List Char)} :
    t.outline.Split path before vs ↔
      ∃ rest, path = before ++ rest ∧ Fits t.pieces rest vs ∧ (t.anchored = true → before = []) := by
  constructor
  · intro h
    exact ⟨_, h.text, fits_weave h.count h.lines, h.front⟩
  · rintro ⟨rest, rfl, hf, hfront⟩
    obtain ⟨rfl, hcount, hlines⟩ := fits_iff.mp hf
    exact ⟨rfl, hcount, hlines, hfront⟩

end Template

end Gateway
