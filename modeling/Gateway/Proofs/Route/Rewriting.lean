import Gateway.Proofs.Route.Least
import Gateway.Proofs.Route.Regex

/-! What a list of rewrite rules makes of a path: the first rule whose glob matches is applied once,
and its output is put together from the parts of its template. -/

namespace Gateway

/-- The texts between the stars of a glob; a caret at its start is not one of them. -/
def Outline.ofGlob : List Char → Outline
  | '^' :: cs => ⟨true, Text.pieces '*' cs⟩
  | cs => ⟨false, Text.pieces '*' cs⟩

/-- A part of an output template: a character, or a reference by number. -/
inductive PathRule.Part where
  | char (c : Char)
  | reference (digits : List Char)
deriving DecidableEq, Repr

/-- The parts of a template. A reference is a dollar with all the digits that follow it, and a dollar
is in no other part. -/
inductive PathRule.Parts : List Char → List Part → Prop
  | nil : Parts [] []
  | char {c : Char} {s : List Char} {ps : List Part} (plain : c ≠ '$') (rest : Parts s ps) :
      Parts (c :: s) (.char c :: ps)
  | reference {digits s : List Char} {ps : List Part}
      (digit : ∀ d ∈ digits, d.isDigit = true) (whole : ∀ c ∈ s.head?, c.isDigit = false)
      (rest : Parts s ps) : Parts ('$' :: (digits ++ s)) (.reference digits :: ps)

namespace PathRule

def Part.text (values : List (List Char)) : Part → List Char
  | .char c => [c]
  | .reference digits =>
    let number := Nat.ofDigitChars 10 digits 0
    if 1 ≤ number ∧ number ≤ values.length then values.getD (number - 1) [] else '$' :: digits

/-! ### Globs -/

theorem literals_readGlob (cs : List Char) :
    Template.literals (readGlob cs) = Text.pieces '*' cs := by
  induction cs with
  | nil => rfl
  | cons c cs ih =>
    rw [readGlob, List.map_cons, Text.pieces]
    by_cases hc : c = '*'
    · rw [if_pos hc, if_pos hc, Template.literals, ← ih]
      rfl
    · rw [if_neg hc, if_neg hc, Template.literals, ← ih]
      cases hl : Template.literals (readGlob cs) with
      | nil => exact absurd hl (Template.literals_ne_nil _)
      | cons l ls =>
        rw [readGlob] at hl
        rw [hl]
        rfl

theorem glob_cases (source output : String) :
    (∃ cs, source.toList = '^' :: cs ∧ (ofTexts source output).glob = ⟨true, readGlob cs⟩ ∧
      Outline.ofGlob source.toList = ⟨true, Text.pieces '*' cs⟩) ∨
    (ofTexts source output).glob = ⟨false, readGlob source.toList⟩ ∧
      Outline.ofGlob source.toList = ⟨false, Text.pieces '*' source.toList⟩ := by
  unfold ofTexts
  generalize source.toList = s
  dsimp only
  split
  · next cs => exact .inl ⟨cs, rfl, rfl, rfl⟩
  · next hcaret =>
    refine .inr ⟨rfl, ?_⟩
    rw [Outline.ofGlob]
    exact hcaret

theorem outline_ofTexts (source output : String) :
    (ofTexts source output).glob.outline = Outline.ofGlob source.toList := by
  rcases glob_cases source output with ⟨cs, -, hglob, houtline⟩ | ⟨hglob, houtline⟩
  · rw [hglob, houtline, Template.outline, literals_readGlob]
  · rw [hglob, houtline, Template.outline, literals_readGlob]

theorem search?_expression (source output : String) :
    ∃ e, Regex.parse? (expression source) = some e ∧
      ∀ path, e.search? path = (ofTexts source output).glob.find? path :=
  ⟨_, by rw [expression_eq source output, Template.parse?_expression],
    Template.search?_regex _⟩

/-! ### Templates -/

theorem exists_parts (s : List Char) : ∃ ps, Parts s ps := by
  fun_induction expand [] s with
  | case1 => exact ⟨[], .nil⟩
  | case2 cs _ _ ih =>
    obtain ⟨ps, hps⟩ := ih
    have hdigit : ∀ d ∈ cs.takeWhile Char.isDigit, d.isDigit = true :=
      List.all_eq_true.mp List.all_takeWhile
    have hreference := Parts.reference hdigit (Text.head?_dropWhile Char.isDigit cs) hps
    rw [List.takeWhile_append_dropWhile] at hreference
    exact ⟨_, hreference⟩
  | case3 c cs hc ih =>
    obtain ⟨ps, hps⟩ := ih
    exact ⟨_, .char hc hps⟩

theorem Parts.unique {s : List Char} {ps qs : List Part} (h : Parts s ps) (h' : Parts s qs) :
    qs = ps := by
  induction h generalizing qs with
  | nil =>
    cases h'
    rfl
  | @char c s ps hc _ ih =>
    cases h' with
    | char _ hrest => rw [ih hrest]
    | reference => exact absurd rfl hc
  | @reference digits s ps hdigit hwhole _ ih =>
    generalize hs : '$' :: (digits ++ s) = s' at h'
    cases h' with
    | nil => cases hs
    | char hc => exact absurd (List.cons.inj hs).1.symm hc
    | @reference others rest rs hdigit' hwhole' hrest =>
      have htail : digits ++ s = others ++ rest := (List.cons.inj hs).2
      have hdigits : digits = others := by
        rw [← Text.takeWhile_append hdigit hwhole, htail, Text.takeWhile_append hdigit' hwhole']
      have hlater : s = rest := by
        rw [← Text.dropWhile_append hdigit hwhole, htail, Text.dropWhile_append hdigit' hwhole']
      subst hdigits hlater
      rw [ih hrest]

theorem number_eq (digits : List Char) :
    digits.foldl (fun n d => n * 10 + (d.toNat - 48)) 0 = Nat.ofDigitChars 10 digits 0 := by
  unfold Nat.ofDigitChars
  congr 1
  funext n d
  rw [Nat.mul_comm]
  rfl

theorem Part.text_reference (values : List (List Char)) (digits : List Char) :
    (if digits.isEmpty then none
      else match digits.foldl (fun n d => n * 10 + (d.toNat - 48)) 0 with
        | 0 => none
        | n + 1 => values[n]?).getD ('$' :: digits) = Part.text values (.reference digits) := by
  rw [number_eq, Part.text]
  cases digits with
  | nil => rfl
  | cons d ds =>
    cases Nat.ofDigitChars 10 (d :: ds) 0 with
    | zero => rfl
    | succ n =>
      change values[n]?.getD ('$' :: d :: ds) = _
      by_cases hlt : n < values.length
      · rw [if_pos ⟨Nat.le_add_left 1 n, hlt⟩, Nat.add_sub_cancel, List.getD_eq_getElem?_getD,
          List.getElem?_eq_getElem hlt, Option.getD_some, Option.getD_some]
      · rw [if_neg fun h => hlt h.2, List.getElem?_eq_none (Nat.le_of_not_lt hlt),
          Option.getD_none]

theorem Parts.expand_eq {s : List Char} {ps : List Part} (h : Parts s ps)
    (values : List (List Char)) : expand values s = ps.flatMap (Part.text values) := by
  induction h with
  | nil => simp [expand]
  | @char c s ps hc _ ih =>
    rw [expand, if_neg hc, ih]
    rfl
  | @reference digits s ps hdigit hwhole _ ih =>
    rw [expand, if_pos rfl, Text.takeWhile_append hdigit hwhole,
      Text.dropWhile_append hdigit hwhole, ih, List.flatMap_cons]
    exact congrArg (· ++ _) (Part.text_reference values digits)

theorem output?_eq_none_iff {source output : String} {input : List Char} :
    (ofTexts source output).output? input = none ↔
      ¬ ∃ before values, (Outline.ofGlob source.toList).Split input before values := by
  rw [PathRule.output?, Option.map_eq_none_iff, Template.find?_eq_none_iff, outline_ofTexts]

theorem output?_eq_some_iff {source output : String} {input out : List Char} :
    (ofTexts source output).output? input = some out ↔
      ∃ before values parts, (Outline.ofGlob source.toList).Least input before values ∧
        (∀ ps, Parts output.toList ps ↔ ps = parts) ∧ out = parts.flatMap (Part.text values) := by
  obtain ⟨parts, hparts⟩ := exists_parts output.toList
  have hunique : ∀ ps, Parts output.toList ps ↔ ps = parts :=
    fun ps => ⟨hparts.unique, fun he => he ▸ hparts⟩
  have htemplate : (ofTexts source output).template = output.toList := rfl
  rw [PathRule.output?, htemplate, Option.map_eq_some_iff]
  constructor
  · rintro ⟨⟨n, values⟩, hfind, rfl⟩
    obtain ⟨before, -, hleast⟩ := Template.find?_eq_some_iff.mp hfind
    rw [outline_ofTexts] at hleast
    exact ⟨before, values, parts, hleast, hunique, hparts.expand_eq values⟩
  · rintro ⟨before, values, others, hleast, hothers, rfl⟩
    obtain rfl : parts = others := (hothers parts).mp hparts
    rw [← outline_ofTexts source output] at hleast
    exact ⟨_, Template.find?_eq_some_iff.mpr ⟨before, rfl, hleast⟩, hparts.expand_eq values⟩

end PathRule

namespace PathRules

/-- The glob of a rule matches a text. -/
def Matches (source input : String) : Prop :=
  ∃ before values, (Outline.ofGlob source.toList).Split input.toList before values

/-- Nothing is rewritten when no glob matches. Otherwise the first rule whose glob matches gives the
output, by the least split of the input, and no part of the output is read again. -/
theorem output?_by_first_match (rules : List (String × String)) (input : String) :
    (∀ rule ∈ rules, ∃ e, Regex.parse? (PathRule.expression rule.1) = some e ∧
      ∀ path, e.search? path = (PathRule.ofTexts rule.1 rule.2).glob.find? path) ∧
    ((ofTexts rules).output? input = none ↔ ∀ rule ∈ rules, ¬ Matches rule.1 input) ∧
    ∀ out, (ofTexts rules).output? input = some out ↔
      ∃ earlier source output later, rules = earlier ++ (source, output) :: later ∧
        (∀ rule ∈ earlier, ¬ Matches rule.1 input) ∧
        ∃ before values parts, (Outline.ofGlob source.toList).Least input.toList before values ∧
          (∀ ps, PathRule.Parts output.toList ps ↔ ps = parts) ∧
          out.toList = parts.flatMap (PathRule.Part.text values) := by
  have hnone : ∀ rule : String × String,
      (PathRule.ofTexts rule.1 rule.2).output? input.toList = none ↔ ¬ Matches rule.1 input :=
    fun rule => PathRule.output?_eq_none_iff
  refine ⟨fun rule _ => PathRule.search?_expression rule.1 rule.2, ?_, fun out => ?_⟩
  · simp only [output?, ofTexts, Option.map_eq_none_iff, List.findSome?_eq_none_iff,
      List.forall_mem_map]
    exact forall₂_congr fun rule _ => hnone rule
  · simp only [output?, ofTexts, Option.map_eq_some_iff, List.findSome?_map,
      List.findSome?_eq_some_iff, Function.comp_apply]
    constructor
    · rintro ⟨chars, ⟨earlier, ⟨source, output⟩, later, hrules, hout, hearlier⟩, rfl⟩
      refine ⟨earlier, source, output, later, hrules, fun rule hr => ?_, ?_⟩
      · exact (hnone rule).mp (hearlier rule hr)
      · rw [String.toList_ofList]
        exact PathRule.output?_eq_some_iff.mp hout
    · rintro ⟨earlier, source, output, later, hrules, hearlier, hout⟩
      refine ⟨out.toList, ⟨earlier, (source, output), later, hrules, ?_, fun rule hr => ?_⟩,
        String.ofList_toList⟩
      · exact PathRule.output?_eq_some_iff.mpr hout
      · exact (hnone rule).mpr (hearlier rule hr)

example : (ofTexts [("/a/*", "/b/$1/$2/$")]).output? "/a/$1" = some "/b/$1/$2/$" := by
  decide +kernel

end PathRules

end Gateway
