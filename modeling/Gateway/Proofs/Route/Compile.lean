import Gateway.Proofs.Route.Least
import Gateway.Proofs.Route.Regex
import Gateway.Route.Compile

/-! The expression that a pattern is turned into by escaping its text and replacing the tokens of
the escaped text. It has a group for each token of the pattern, it is well formed, and it finds the
least split of a path into the literals of the pattern and the values of its tokens. -/

namespace Gateway

/-- The pieces of a text: a token is a colon with all the characters of a name that follow it, of
which there is at least one, and every other character stands for itself. -/
inductive Template.Reads : List Char → List Piece → Prop
  | nil : Reads [] []
  | token {name s : List Char} {ps : List Piece} (nonempty : name ≠ [])
      (word : ∀ c ∈ name, isNameChar c = true) (whole : ∀ c ∈ s.head?, isNameChar c = false)
      (rest : Reads s ps) : Reads (':' :: (name ++ s)) (.token name :: ps)
  | char {c : Char} {s : List Char} {ps : List Piece}
      (plain : c = ':' → ∀ d ∈ s.head?, isNameChar d = false) (rest : Reads s ps) :
      Reads (c :: s) (.char c :: ps)

def Template.colon (c : Char) : Char := if c = '*' then ':' else c

/-- The template that a text stands for. -/
def Template.Denotes (text : List Char) (t : Template) : Prop :=
  if text.head? = some '^' then t.anchored = true ∧ Reads (text.tail.map colon) t.pieces
  else t.anchored = false ∧ Reads (text.map colon) t.pieces

namespace Template

theorem Reads.eq_tokens {s : List Char} {ps : List Piece} (h : Reads s ps) :
    ps = Pattern.tokens s := by
  induction h with
  | nil => simp [Pattern.tokens]
  | @token name s ps hne hword hwhole _ ih =>
    rw [Pattern.tokens, Text.takeWhile_append hword hwhole, Text.dropWhile_append hword hwhole,
      if_pos ⟨rfl, hne⟩, ← ih]
  | @char c s ps hplain _ ih =>
    have hnot : ¬ (c = ':' ∧ s.takeWhile isNameChar ≠ []) := fun h =>
      h.2 (Text.takeWhile_eq_nil_iff.mpr (hplain h.1))
    rw [Pattern.tokens, if_neg hnot, ← ih]

theorem reads_tokens (s : List Char) : Reads s (Pattern.tokens s) := by
  fun_induction Pattern.tokens s with
  | case1 => exact .nil
  | case2 c cs h ih =>
    obtain ⟨rfl, hne⟩ := h
    have htoken := Reads.token hne (List.all_eq_true.mp List.all_takeWhile)
      (Text.head?_dropWhile isNameChar cs) ih
    rwa [List.takeWhile_append_dropWhile] at htoken
  | case3 c cs h ih =>
    refine .char (fun hc => Text.takeWhile_eq_nil_iff.mp ?_) ih
    by_contra hne
    exact h ⟨hc, hne⟩

theorem reads_iff {s : List Char} {ps : List Piece} : Reads s ps ↔ ps = Pattern.tokens s :=
  ⟨Reads.eq_tokens, fun h => h ▸ reads_tokens s⟩

/-! ### Stars as colons -/

theorem isNameChar_colon : isNameChar ∘ colon = isNameChar := by
  funext c
  by_cases h : c = '*'
  · subst c
    decide
  · rw [Function.comp_apply, colon, if_neg h]

theorem takeWhile_colon (s : List Char) :
    (s.map colon).takeWhile isNameChar = s.takeWhile isNameChar := by
  rw [List.takeWhile_map, isNameChar_colon]
  refine (List.map_congr_left fun c hc => ?_).trans (List.map_id _)
  refine if_neg ?_
  rintro rfl
  exact absurd (List.all_eq_true.mp List.all_takeWhile _ hc) (by decide)

theorem dropWhile_colon (s : List Char) :
    (s.map colon).dropWhile isNameChar = (s.dropWhile isNameChar).map colon := by
  rw [List.dropWhile_map, isNameChar_colon]

theorem readPieces_eq (s : List Char) : readPieces s = Pattern.tokens (s.map colon) := by
  fun_induction readPieces s with
  | case1 => simp [Pattern.tokens]
  | case2 c cs hc hempty ih =>
    have hcolon : colon c = ':' := by rcases hc with rfl | rfl <;> rfl
    rw [List.map_cons, Pattern.tokens, hcolon, takeWhile_colon, if_neg, ih]
    simpa using hempty
  | case3 c cs hc hne ih =>
    have hcolon : colon c = ':' := by rcases hc with rfl | rfl <;> rfl
    rw [List.map_cons, Pattern.tokens, hcolon, takeWhile_colon, dropWhile_colon, if_pos, ih]
    simpa using hne
  | case4 c cs hc ih =>
    have hcolon : colon c = c := if_neg fun he => hc (.inr he)
    rw [List.map_cons, Pattern.tokens, hcolon, if_neg, ih]
    exact fun h => hc (.inl h.1)

theorem ofText_caret (cs : List Char) : ofText ('^' :: cs) = ⟨true, readPieces cs⟩ := rfl

theorem ofText_plain {cs : List Char} (h : cs.head? ≠ some '^') :
    ofText cs = ⟨false, readPieces cs⟩ := by
  unfold ofText
  split
  · exact absurd rfl h
  · rfl

theorem denotes_iff {text : List Char} {t : Template} : Denotes text t ↔ t = ofText text := by
  obtain ⟨anchored, ps⟩ := t
  unfold Denotes
  split
  · next h =>
    obtain ⟨cs, rfl⟩ : ∃ cs, text = '^' :: cs := List.head?_eq_some_iff.mp h
    rw [ofText_caret, readPieces_eq, reads_iff, mk.injEq, List.tail_cons]
  · next h => rw [ofText_plain h, readPieces_eq, reads_iff, mk.injEq]

/-! ### The escaped text -/

def escapedPiece : Piece → List Piece
  | .char c => (escape c).map .char
  | .token name => [.token name]

theorem escape_of_name {c : Char} (h : isNameChar c = true) : escape c = [c] := by
  have hnames : ("\\.+*?()|[]\x7b\x7d^$#&-~".toList.all fun d => !isNameChar d) = true := by decide
  cases hs : isSpecial c with
  | false => exact escape_of_plain hs
  | true =>
    rw [isSpecial, List.contains_iff_mem] at hs
    have hnot := List.all_eq_true.mp hnames c hs
    simp [h] at hnot

theorem escape_of_not_name {c : Char} (h : isNameChar c = false) :
    ∃ d ds, escape c = d :: ds ∧ isNameChar d = false := by
  cases hs : isSpecial c with
  | true => exact ⟨'\\', [c], escape_of_special hs, rfl⟩
  | false => exact ⟨c, [], escape_of_plain hs, h⟩

theorem takeWhile_escape (s : List Char) :
    (s.flatMap escape).takeWhile isNameChar = s.takeWhile isNameChar ∧
      (s.flatMap escape).dropWhile isNameChar = (s.dropWhile isNameChar).flatMap escape := by
  induction s with
  | nil => exact ⟨rfl, rfl⟩
  | cons c s ih =>
    cases hc : isNameChar c with
    | true => simp [escape_of_name hc, hc, ih]
    | false =>
      obtain ⟨d, ds, he, hd⟩ := escape_of_not_name hc
      simp [he, hd, hc]

theorem tokens_cons {c : Char} (h : c ≠ ':') (s : List Char) :
    Pattern.tokens (c :: s) = .char c :: Pattern.tokens s := by
  rw [Pattern.tokens, if_neg fun hc => h hc.1]

theorem tokens_escape (s : List Char) :
    Pattern.tokens (s.flatMap escape) = (Pattern.tokens s).flatMap escapedPiece := by
  fun_induction Pattern.tokens s with
  | case1 => simp [Pattern.tokens]
  | case2 c cs h ih =>
    obtain ⟨rfl, hne⟩ := h
    obtain ⟨htake, hdrop⟩ := takeWhile_escape cs
    have hcolon : escape ':' = [':'] := rfl
    rw [List.flatMap_cons, hcolon, List.singleton_append, Pattern.tokens, htake, hdrop,
      if_pos ⟨rfl, hne⟩, ih]
    rfl
  | case3 c cs h ih =>
    rw [List.flatMap_cons, List.flatMap_cons, ← ih, escapedPiece]
    by_cases hcolon : c = ':'
    · subst c
      have hescape : escape ':' = [':'] := rfl
      have hplain : (cs.flatMap escape).takeWhile isNameChar = [] := by
        rw [(takeWhile_escape cs).1]
        by_contra hne
        exact h ⟨rfl, hne⟩
      rw [hescape, List.singleton_append, Pattern.tokens, if_neg fun hc => hc.2 hplain]
      rfl
    · cases hs : isSpecial c with
      | true =>
        rw [escape_of_special hs]
        exact (tokens_cons (by decide) _).trans (congrArg _ (tokens_cons hcolon _))
      | false =>
        rw [escape_of_plain hs]
        exact tokens_cons hcolon _

theorem flatMap_colon (s : List Char) :
    (s.flatMap fun c => if c = '*' then [':'] else escape c) = (s.map colon).flatMap escape := by
  rw [List.flatMap_map]
  congr 1
  funext c
  by_cases hc : c = '*' <;> simp [colon, hc]
  rfl

theorem rewrite_caret (cs : List Char) :
    Pattern.rewrite ('^' :: cs) = '^' :: (cs.map colon).flatMap escape := by
  unfold Pattern.rewrite
  rw [PathRule.replacePair_flatMap_escape, ← flatMap_colon]
  rfl

theorem rewrite_plain {cs : List Char} (h : cs.head? ≠ some '^') :
    Pattern.rewrite cs = (cs.map colon).flatMap escape := by
  unfold Pattern.rewrite
  rw [PathRule.replacePair_flatMap_escape]
  split
  · next rest he =>
    obtain ⟨tail, rfl, -⟩ := PathRule.eq_of_escaped_caret rfl (by decide) he
    exact absurd rfl h
  · exact flatMap_colon cs

theorem tokens_rewrite (text : List Char) :
    Pattern.tokens (Pattern.rewrite text) =
      (if (ofText text).anchored then [.char '^'] else []) ++
        (ofText text).pieces.flatMap escapedPiece := by
  by_cases h : text.head? = some '^'
  · obtain ⟨cs, rfl⟩ : ∃ cs, text = '^' :: cs := List.head?_eq_some_iff.mp h
    rw [rewrite_caret, ofText_caret, tokens_cons (by decide), tokens_escape, ← readPieces_eq]
    rfl
  · rw [rewrite_plain h, ofText_plain h, tokens_escape, ← readPieces_eq]
    rfl

theorem names_escapedPiece (ps : List Piece) :
    (ps.flatMap escapedPiece).filterMap Pattern.name? = (Template.mk false ps).names := by
  induction ps with
  | nil => rfl
  | cons p ps ih =>
    rw [List.flatMap_cons, List.filterMap_append, ih]
    cases p with
    | char c => cases hs : isSpecial c <;> simp [escapedPiece, escape, hs, Pattern.name?, names]
    | token name => simp [escapedPiece, Pattern.name?, names]

theorem keys_eq (text : List Char) : Pattern.keys text = (ofText text).names := by
  rw [Pattern.keys, tokens_rewrite, List.filterMap_append, names_escapedPiece]
  split <;> rfl

theorem source_eq (text : List Char) : Pattern.source text = (ofText text).expression := by
  rw [Pattern.source, tokens_rewrite, List.flatMap_append, List.flatMap_assoc, expression]
  congr 1
  congr 1
  · split <;> rfl
  · congr 1
    funext p
    cases p with
    | char c => cases hs : isSpecial c <;> simp [escapedPiece, escape, hs]
    | token name => simp [escapedPiece]

def written : Piece → List Char
  | .char c => [c]
  | .token name => ':' :: name

theorem flatMap_written (s : List Char) : (Pattern.tokens s).flatMap written = s := by
  fun_induction Pattern.tokens s with
  | case1 => rfl
  | case2 c cs h ih =>
    rw [List.flatMap_cons, ih, h.1]
    exact congrArg (':' :: ·) List.takeWhile_append_dropWhile
  | case3 c cs h ih =>
    rw [List.flatMap_cons, ih]
    rfl

theorem rewrite_eq (text : List Char) : Pattern.rewrite text = (ofText text).escaped := by
  rw [← flatMap_written (Pattern.rewrite text), tokens_rewrite, List.flatMap_append,
    List.flatMap_assoc, escaped]
  congr 1
  · split <;> rfl
  · congr 1
    funext p
    cases p with
    | char c => cases hs : isSpecial c <;> simp [escapedPiece, escape, hs, written]
    | token name => simp [escapedPiece, written]

end Template

/-- Every text of a pattern stands for exactly one template. Its expression is well formed, has a
group and a name for each token, and finds the least split of the path, if there is any. -/
theorem Pattern.source_finds_least (text : List Char) : ∃ (t : Template) (e : Regex),
    (∀ u, Template.Denotes text u ↔ u = t) ∧ Template.ofText text = t ∧
    rewrite text = t.escaped ∧ keys text = t.names ∧
    t.outline.literals.length = t.names.length + 1 ∧
    Regex.parse? (source text) = some e ∧ e.groups = t.names.length ∧
    ∀ path, e.search? path = t.find? path ∧
      (∀ n values, e.search? path = some (n, values) ↔
        ∃ before, before.length = n ∧ t.outline.Least path before values) ∧
      (e.search? path = none ↔ ¬ ∃ before values, t.outline.Split path before values) := by
  have hparse : Regex.parse? (source text) = some (Template.ofText text).regex := by
    rw [Template.source_eq, Template.parse?_expression]
  refine ⟨.ofText text, (Template.ofText text).regex, fun u => Template.denotes_iff, rfl,
    Template.rewrite_eq text, Template.keys_eq text, Template.length_literals _, hparse,
    Template.groups_regex _, fun path => ?_⟩
  rw [Template.search?_regex]
  exact ⟨rfl, fun n values => Template.find?_eq_some_iff, Template.find?_eq_none_iff⟩

example : Pattern.source "^/a.b/::x\\*y".toList = "^/a\\.b/:(.*?)\\\\(.*?)$".toList := by decide +kernel

end Gateway
