import Gateway.Proofs.Route.Expression
import Gateway.Proofs.Route.Fits
import Gateway.Route.Regex

/-! The expression of a template, read as a regular expression, finds what the template finds. -/

namespace Gateway.Template

def atom : Piece → Regex.Atom
  | .char c => .char c
  | .token _ => .group

def regex (t : Template) : Regex :=
  (if t.anchored then [.start] else []) ++ t.pieces.map atom ++ [.stop]

theorem groups_regex (t : Template) : t.regex.groups = t.names.length := by
  obtain ⟨anchored, ps⟩ := t
  have hpieces : (ps.map atom).count .group = (Template.mk anchored ps).names.length := by
    induction ps with
    | nil => rfl
    | cons p ps ih =>
      cases p with
      | char c => simpa [atom, names] using ih
      | token name => simpa [atom, names] using ih
  cases anchored <;> simpa [regex, Regex.groups] using hpieces

theorem parse?_escape (c : Char) (rest : List Char) :
    Regex.parse? (escape c ++ rest) = (Regex.parse? rest).map (.char c :: ·) := by
  cases h : isSpecial c with
  | true => simp [escape_of_special h, Regex.parse?, h]
  | false =>
    rw [escape_of_plain h, List.singleton_append, Regex.parse?]
    · rw [h]
      rfl
    all_goals
      intros
      subst_vars
      exact absurd h (by decide)

theorem parse?_pieces (ps : List Piece) (rest : List Char) :
    Regex.parse? ((ps.flatMap fun
      | .char c => escape c
      | .token _ => "(.*?)".toList) ++ rest) =
      (Regex.parse? rest).map (ps.map atom ++ ·) := by
  induction ps with
  | nil => simp
  | cons p ps ih =>
    cases p with
    | char c =>
      rw [List.flatMap_cons, List.append_assoc, parse?_escape, ih, Option.map_map]
      rfl
    | token name =>
      rw [List.flatMap_cons, List.append_assoc]
      exact (congrArg (Option.map (Regex.Atom.group :: ·)) ih).trans (Option.map_map ..)

theorem parse?_expression (t : Template) : Regex.parse? t.expression = some t.regex := by
  have hstop : Regex.parse? ['$'] = some [.stop] := rfl
  have hpieces := parse?_pieces t.pieces ['$']
  rw [hstop, Option.map_some] at hpieces
  obtain ⟨anchored, ps⟩ := t
  cases anchored with
  | true => exact congrArg (Option.map (Regex.Atom.start :: ·)) hpieces
  | false => exact hpieces

/-! ### What is preferred -/

theorem lazily_cons {rest : List Char → Option (List (List Char))} {c : Char} {cs : List Char}
    (hr : rest (c :: cs) = none) (hc : c ≠ '\n') :
    lazily rest (c :: cs) = (lazily rest cs).map (List.modifyHead (c :: ·)) := by
  rw [lazily]
  cases hl : lazily rest cs with
  | none => simp [hr, hc]
  | some us =>
    obtain ⟨v, r, ws, -, -, -, rfl, -⟩ := lazily_eq_some_iff.mp hl
    simp [hr, hc]

theorem findSome?_splits (rest : List Char → Option (List (List Char))) (s : List Char) :
    (Regex.splits s).findSome? (fun p => (rest p.2).map (p.1 :: ·)) = lazily rest s := by
  induction s with
  | nil => simp [Regex.splits, lazily]
  | cons c cs ih =>
    rw [Regex.splits, List.findSome?_cons]
    cases hr : rest (c :: cs) with
    | some ws => simp [lazily, hr]
    | none =>
      by_cases hc : c = '\n'
      · subst c
        simp [lazily, hr]
      · rw [lazily_cons hr hc, ← ih, List.map_findSome?]
        simp [hc, List.findSome?_map, Function.comp_def]

theorem head?_ways (ps : List Piece) (front : Bool) (s : List Char) :
    (Regex.ways (ps.map atom ++ [.stop]) front s).head? = capture ps s := by
  induction ps generalizing front s with
  | nil => cases s <;> rfl
  | cons p ps ih =>
    cases p with
    | char c =>
      cases s with
      | nil => rfl
      | cons d ds =>
        by_cases hc : c = d
        · simpa [Regex.ways, atom, capture, hc] using ih false ds
        · simp [Regex.ways, atom, capture, hc]
    | token name =>
      rw [capture, ← findSome?_splits]
      simp only [List.map_cons, List.cons_append, atom, Regex.ways, List.head?_flatMap,
        List.head?_map, ih]

theorem findSome?_range (ps : List Piece) (s : List Char) :
    (List.range (s.length + 1)).findSome? (fun n => (capture ps (s.drop n)).map (n, ·)) =
      search ps s := by
  induction s with
  | nil => simp [search]
  | cons c cs ih =>
    rw [search, List.length_cons, List.range_succ_eq_map, List.findSome?_cons]
    cases hc : capture ps (c :: cs) with
    | some us => simp [hc]
    | none =>
      rw [← ih, List.map_findSome?]
      simp [hc, List.findSome?_map, Function.comp_def]

theorem search?_start (e : Regex) (s : List Char) :
    Regex.search? (.start :: e) s = (Regex.ways e true s).head?.map (0, ·) := by
  have hlater : ∀ n ∈ (List.range s.length).map Nat.succ,
      (Regex.ways (.start :: e) (n == 0) (s.drop n)).head?.map (n, ·) = none := by
    intro n hn
    obtain ⟨m, -, rfl⟩ := List.mem_map.mp hn
    simp [Regex.ways]
  simp only [Regex.search?, Regex.occurrences, List.head?_flatMap, List.head?_map,
    List.range_succ_eq_map, List.findSome?_cons]
  rw [List.findSome?_eq_none_iff.mpr hlater]
  cases hw : (Regex.ways e true s).head? <;> simp [Regex.ways, hw]

theorem search?_regex (t : Template) (s : List Char) : t.regex.search? s = t.find? s := by
  obtain ⟨anchored, ps⟩ := t
  cases anchored with
  | true => exact (search?_start _ s).trans (congrArg (Option.map (0, ·)) (head?_ways ps true s))
  | false =>
    simp only [Regex.search?, Regex.occurrences, List.head?_flatMap, List.head?_map, regex,
      find?, Bool.false_eq_true, if_false, List.nil_append, head?_ways]
    exact findSome?_range ps s

end Gateway.Template
