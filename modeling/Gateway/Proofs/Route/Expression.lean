import Gateway.Route.PathRule

/-! The expressions of patterns and globs are made of literal and escaped characters, lazy groups
and anchors only, so that every compiler of expressions takes them. -/

namespace Gateway

/-- The part of the syntax of expressions that patterns and globs use. -/
inductive Expression : List Char → Prop
  | empty : Expression []
  | append {s t : List Char} (hs : Expression s) (ht : Expression t) : Expression (s ++ t)
  | literal {c : Char} (h : Template.isSpecial c = false) : Expression [c]
  | escaped {c : Char} (h : Template.isSpecial c = true) : Expression ['\\', c]
  | lazyGroup : Expression ['(', '.', '*', '?', ')']
  | start : Expression ['^']
  | stop : Expression ['$']

namespace Template

theorem escape_of_special {c : Char} (h : isSpecial c = true) : escape c = ['\\', c] := if_pos h

theorem escape_of_plain {c : Char} (h : isSpecial c = false) : escape c = [c] := by
  simp [escape, h]

theorem expression_escape (c : Char) : Expression (escape c) := by
  cases h : isSpecial c with
  | true => exact escape_of_special h ▸ .escaped h
  | false => exact escape_of_plain h ▸ .literal h

theorem expression_pieces (ps : List Piece) :
    Expression (ps.flatMap fun
      | .char c => escape c
      | .token _ => "(.*?)".toList) := by
  induction ps with
  | nil => exact .empty
  | cons p ps ih =>
    cases p with
    | char c => exact .append (expression_escape c) ih
    | token n => exact .append .lazyGroup ih

theorem expression_wellFormed (t : Template) : Expression t.expression := by
  have hanchor : Expression (if t.anchored then ['^'] else []) := by
    split
    · exact .start
    · exact .empty
  exact (hanchor.append (expression_pieces t.pieces)).append .stop

end Template

theorem Pattern.expression_wellFormed {p : Pattern} {e : String} (h : p.expression? = some e) :
    Expression e.toList := by
  cases p with
  | exact s => cases h
  | template priority s t =>
    cases h
    rw [String.toList_ofList]
    exact t.expression_wellFormed

namespace PathRule

/-- The text of a glob with its stars made groups and everything else literal. -/
def starred (cs : List Char) : List Char :=
  cs.flatMap fun c => if c = '*' then "(.*?)".toList else Template.escape c

theorem head?_flatMap_escape_ne_star (cs : List Char) :
    (cs.flatMap Template.escape).head? ≠ some '*' := by
  cases cs with
  | nil => simp
  | cons c cs =>
    cases h : Template.isSpecial c with
    | true => simp [Template.escape_of_special h]
    | false =>
      have hc : c ≠ '*' := by
        rintro rfl
        exact absurd h (by decide)
      simpa [Template.escape_of_plain h] using hc

theorem replacePair_cons {a b c : Char} {put t : List Char} (h : c ≠ a ∨ t.head? ≠ some b) :
    Text.replacePair a b put (c :: t) = c :: Text.replacePair a b put t := by
  cases t with
  | nil => rfl
  | cons d t =>
    have hpair : ¬ (c = a ∧ d = b) := by
      rintro ⟨hc, rfl⟩
      exact h.elim (fun hn => hn hc) fun hn => hn rfl
    rw [Text.replacePair, if_neg hpair]

theorem replacePair_flatMap_escape (put cs : List Char) :
    Text.replacePair '\\' '*' put (cs.flatMap Template.escape) =
      cs.flatMap fun c => if c = '*' then put else Template.escape c := by
  induction cs with
  | nil => rfl
  | cons c cs ih =>
    have hhead := head?_flatMap_escape_ne_star cs
    simp only [List.flatMap_cons] at ih ⊢
    cases h : Template.isSpecial c with
    | false =>
      have hback : c ≠ '\\' := by
        rintro rfl
        exact absurd h (by decide)
      have hstar : c ≠ '*' := by
        rintro rfl
        exact absurd h (by decide)
      rw [Template.escape_of_plain h, if_neg hstar]
      exact (replacePair_cons (.inl hback)).trans (congrArg (c :: ·) ih)
    | true =>
      rw [Template.escape_of_special h]
      by_cases hstar : c = '*'
      · subst c
        rw [if_pos rfl]
        exact congrArg (put ++ ·) ih
      · -- the character after the backslash may be one itself, but no star follows it
        rw [if_neg hstar]
        refine (replacePair_cons (.inr ?_)).trans (congrArg ('\\' :: ·) ?_)
        · simpa using hstar
        · exact (replacePair_cons (.inr hhead)).trans (congrArg (c :: ·) ih)

theorem replacePair_escape (cs : List Char) :
    Text.replacePair '\\' '*' "(.*?)".toList (cs.flatMap Template.escape) = starred cs :=
  replacePair_flatMap_escape _ cs

theorem expression_readGlob (anchored : Bool) (cs : List Char) :
    Template.expression ⟨anchored, readGlob cs⟩ =
      (if anchored then ['^'] else []) ++ starred cs ++ ['$'] := by
  have hpieces : ((readGlob cs).flatMap fun
      | .char c => Template.escape c
      | .token _ => "(.*?)".toList) = starred cs := by
    rw [readGlob, starred, List.flatMap_map]
    congr 1
    funext c
    by_cases hc : c = '*' <;> simp [hc]
  exact congrArg (_ ++ · ++ ['$']) hpieces

theorem eq_of_escaped_caret {put cs rest : List Char} {d : Char} {ds : List Char}
    (hput : put = d :: ds) (hd : d ≠ '\\')
    (h : (cs.flatMap fun c => if c = '*' then put else Template.escape c) = '\\' :: '^' :: rest) :
    ∃ tail, cs = '^' :: tail ∧
      rest = tail.flatMap fun c => if c = '*' then put else Template.escape c := by
  cases cs with
  | nil => cases h
  | cons c cs =>
    rw [List.flatMap_cons] at h
    by_cases hstar : c = '*'
    · rw [if_pos hstar, hput] at h
      exact absurd (List.cons.inj h).1 hd
    · rw [if_neg hstar] at h
      cases hs : Template.isSpecial c with
      | true =>
        rw [Template.escape_of_special hs] at h
        simp only [List.cons_append, List.nil_append, List.cons.injEq, true_and] at h
        exact ⟨cs, by rw [h.1], h.2.symm⟩
      | false =>
        rw [Template.escape_of_plain hs] at h
        simp only [List.cons_append, List.nil_append, List.cons.injEq] at h
        rw [h.1] at hs
        exact absurd hs (by decide)

theorem expression_eq (source output : String) :
    expression source = (ofTexts source output).glob.expression := by
  unfold expression ofTexts
  simp only [replacePair_escape]
  split
  · next rest h =>
    obtain ⟨tail, hcs, rfl⟩ := eq_of_escaped_caret rfl (by decide) h
    rw [hcs]
    exact (expression_readGlob true tail).symm
  · next h =>
    split
    · next cs hcs =>
      have hcaret : starred ('^' :: cs) = '\\' :: '^' :: starred cs := rfl
      exact absurd (hcs ▸ hcaret) (h _)
    · exact (expression_readGlob false _).symm

theorem expression_wellFormed (source : String) : Expression (expression source) :=
  expression_eq source "" ▸ Template.expression_wellFormed _

end PathRule

end Gateway
