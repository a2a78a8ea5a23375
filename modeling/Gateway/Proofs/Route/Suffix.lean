import Gateway.Proofs.Route.Rewriting

/-! A template that ends in a token takes a longer path the same way: what is appended to the path is
appended to its last value. So a rewrite rule whose last star is the end of its output carries a query
along. -/

namespace Gateway

namespace Template

variable {ps : List Piece} {name : List Char}

theorem fits_last {s : List Char} {vs : List (List Char)} :
    Fits [.token name] s vs ↔ vs = [s] ∧ '\n' ∉ s := by
  rw [fits_token_iff]
  constructor
  · rintro ⟨v, r, ws, rfl, hv, rfl, hrest⟩
    cases hrest
    simpa using hv
  · rintro ⟨rfl, hs⟩
    exact ⟨s, [], [], by simp, hs, rfl, .nil⟩

/-- The pieces match from two places of a path, from the first one with the help of what is appended to
it. Then they match from the first one without it too. -/
theorem fits_of_append {r x w : List Char} {vs ws : List (List Char)}
    (hr : Fits (ps ++ [.token name]) r vs) (hsuffix : r <:+ x)
    (hw : Fits (ps ++ [.token name]) (x ++ w) ws) : ∃ us, Fits (ps ++ [.token name]) x us := by
  induction ps generalizing r x vs ws with
  | nil =>
    obtain ⟨-, hline⟩ := fits_last.mp hw
    exact ⟨[x], fits_last.mpr ⟨rfl, fun hm => hline (List.mem_append_left _ hm)⟩⟩
  | cons p ps ih =>
    cases p with
    | char c =>
      obtain ⟨r, rfl, hfirst⟩ := fits_char_iff.mp hr
      obtain ⟨t, ht, hlong⟩ := fits_char_iff.mp hw
      cases x with
      | nil => simp at hsuffix
      | cons d x =>
        obtain ⟨rfl, rfl⟩ := List.cons.inj ht
        obtain ⟨us, hus⟩ := ih hfirst (Text.suffix_tail hsuffix) hlong
        exact ⟨us, .char d hus⟩
    | token other =>
      obtain ⟨v, r, vs, rfl, -, rfl, hfirst⟩ := fits_token_iff.mp hr
      obtain ⟨v', t, ws, ht, hv', rfl, hlong⟩ := fits_token_iff.mp hw
      obtain ⟨y, rfl⟩ := hsuffix
      have hcut : ∀ z, v' = (y ++ v) ++ z → ∃ us, Fits (.token other :: (ps ++ [.token name]))
          (y ++ (v ++ r)) us := by
        rintro z rfl
        rw [← List.append_assoc]
        exact ⟨_, .token other (y ++ v) (fun hm => hv' (List.mem_append_left _ hm)) hfirst⟩
      rcases List.append_eq_append_iff.mp ht with ⟨z, hz, -⟩ | ⟨x, hx, rfl⟩
      · exact hcut (r ++ z) (by rw [hz]; simp)
      · rw [← List.append_assoc] at hx
        rcases List.append_eq_append_iff.mp hx with ⟨z, hz, rfl⟩ | ⟨z, hz, rfl⟩
        · exact hcut z hz
        · obtain ⟨us, hus⟩ := ih hfirst (List.suffix_append z r) hlong
          refine ⟨v' :: us, ?_⟩
          rw [← List.append_assoc, hz, List.append_assoc]
          exact .token other v' hv' hus

theorem capture_append {s : List Char} {vs : List (List Char)}
    (h : capture (ps ++ [.token name]) s = some vs) :
    ∃ us v, vs = us ++ [v] ∧ ∀ w, '\n' ∉ w →
      capture (ps ++ [.token name]) (s ++ w) = some (us ++ [v ++ w]) := by
  induction ps generalizing s vs with
  | nil =>
    obtain ⟨rfl, hs⟩ := fits_last.mp (fits_of_capture h)
    refine ⟨[], s, rfl, fun w hw => ?_⟩
    have hline : '\n' ∉ s ++ w := by simp [hs, hw]
    obtain ⟨us, hus⟩ := Option.isSome_iff_exists.mp (capture_isSome (fits_last.mpr ⟨rfl, hline⟩))
    obtain ⟨rfl, -⟩ := fits_last.mp (fits_of_capture hus)
    exact hus
  | cons p ps ih =>
    cases p with
    | char c =>
      cases s with
      | nil => simp [capture] at h
      | cons d s =>
        by_cases hc : c = d
        · subst c
          simpa [capture] using ih (by simpa [capture] using h)
        · simp [capture, hc] at h
    | token other =>
      rw [List.cons_append] at h
      obtain ⟨v, r, us, rfl, hv, hr, rfl, hfirst⟩ := capture_token_eq_some_iff.mp h
      obtain ⟨values, last, rfl, happend⟩ := ih hr
      refine ⟨v :: values, last, rfl, fun w hw => capture_token_eq_some_iff.mpr
        ⟨v, r ++ w, _, List.append_assoc v r w, hv, happend w hw, rfl, ?_⟩⟩
      intro x y hxy hlen
      rw [List.append_assoc] at hxy
      rcases List.append_eq_append_iff.mp hxy with ⟨z, rfl, -⟩ | ⟨z, rfl, rfl⟩
      · simp only [List.length_append] at hlen
        omega
      · refine capture_eq_none_iff.mpr fun ws hlong => ?_
        rw [← List.append_assoc] at hlong
        obtain ⟨us, hus⟩ := fits_of_append (fits_of_capture hr) (List.suffix_append z r) hlong
        have hnone := hfirst x (z ++ r) (List.append_assoc x z r) hlen
        exact capture_eq_none_iff.mp hnone us hus

theorem search_append {s : List Char} {n : Nat} {vs : List (List Char)}
    (h : search (ps ++ [.token name]) s = some (n, vs)) :
    ∃ us v, vs = us ++ [v] ∧ ∀ w, '\n' ∉ w →
      search (ps ++ [.token name]) (s ++ w) = some (n, us ++ [v ++ w]) := by
  obtain ⟨hn, hc, hfirst⟩ := search_eq_some_iff.mp h
  obtain ⟨us, v, rfl, happend⟩ := capture_append hc
  refine ⟨us, v, rfl, fun w hw => search_eq_some_iff.mpr ⟨?_, ?_, fun m hm => ?_⟩⟩
  · rw [List.length_append]
    omega
  · rw [List.drop_append_of_le_length hn, happend w hw]
  · rw [List.drop_append_of_le_length (by omega)]
    refine capture_eq_none_iff.mpr fun ws hlong => ?_
    have hsuffix : s.drop n <:+ s.drop m := by
      rw [← Nat.add_sub_of_le (Nat.le_of_lt hm), ← List.drop_drop]
      exact List.drop_suffix _ _
    obtain ⟨us, hus⟩ := fits_of_append (fits_of_capture hc) hsuffix hlong
    exact capture_eq_none_iff.mp (hfirst m hm) us hus

/-- The last piece is a token, so that the template does not say where the path ends. -/
def EndsInToken (t : Template) : Prop := ∃ ps name, t.pieces = ps ++ [.token name]

theorem find?_append {t : Template} {path : List Char} {n : Nat} {vs : List (List Char)}
    (ht : t.EndsInToken) (h : t.find? path = some (n, vs)) :
    ∃ us v, vs = us ++ [v] ∧
      ∀ w, '\n' ∉ w → t.find? (path ++ w) = some (n, us ++ [v ++ w]) := by
  obtain ⟨anchored, pieces⟩ := t
  obtain ⟨ps, name, hpieces⟩ := ht
  obtain rfl : pieces = ps ++ [.token name] := hpieces
  cases anchored with
  | false => exact search_append h
  | true =>
    obtain ⟨us, hc, he⟩ := Option.map_eq_some_iff.mp h
    obtain ⟨rfl, rfl⟩ := Prod.mk.inj he
    obtain ⟨us, v, rfl, happend⟩ := capture_append hc
    exact ⟨us, v, rfl, fun w hw => congrArg (Option.map (0, ·)) (happend w hw)⟩

end Template

namespace PathRule

/-! ### Globs that end in a star -/

theorem readGlob_concat (cs : List Char) : readGlob (cs ++ ['*']) = readGlob cs ++ [.token []] := by
  simp [readGlob]

theorem endsInToken {source output : String} (h : source.toList.getLast? = some '*') :
    (ofTexts source output).glob.EndsInToken := by
  rcases glob_cases source output with ⟨cs, hcs, hglob, -⟩ | ⟨hglob, -⟩
  · cases cs with
    | nil => simp [hcs] at h
    | cons c cs =>
      rw [hcs, List.getLast?_cons_cons] at h
      obtain ⟨ds, hds⟩ := List.getLast?_eq_some_iff.mp h
      rw [hglob, hds]
      exact ⟨readGlob ds, [], readGlob_concat ds⟩
  · obtain ⟨ds, hds⟩ := List.getLast?_eq_some_iff.mp h
    rw [hglob, hds]
    exact ⟨readGlob ds, [], readGlob_concat ds⟩

theorem length_literals_readGlob (cs : List Char) :
    (Template.literals (readGlob cs)).length = cs.count '*' + 1 := by
  induction cs with
  | nil => rfl
  | cons c cs ih =>
    rw [readGlob] at ih ⊢
    by_cases hc : c = '*'
    · subst c
      simpa [Template.literals] using ih
    · simpa [Template.literals, hc] using ih

theorem length_values {source output : String} {path : List Char} {n : Nat}
    {values : List (List Char)} (h : (ofTexts source output).glob.find? path = some (n, values)) :
    values.length = source.toList.count '*' := by
  have hcount := (Template.fits_of_find? h).count
  rcases glob_cases source output with ⟨cs, hcs, hglob, -⟩ | ⟨hglob, -⟩
  · rw [hglob, length_literals_readGlob] at hcount
    simpa [hcs] using hcount.symm
  · rw [hglob, length_literals_readGlob] at hcount
    simpa using hcount.symm

/-! ### The last reference -/

theorem Parts.append {s t : List Char} {ps qs : List Part} (h : Parts s ps) (h' : Parts t qs)
    (ht : ∀ c ∈ t.head?, c.isDigit = false) : Parts (s ++ t) (ps ++ qs) := by
  induction h with
  | nil => exact h'
  | char hc _ ih => exact .char hc ih
  | @reference digits s ps hdigit hwhole _ ih =>
    rw [List.cons_append, List.append_assoc]
    refine .reference hdigit ?_ ih
    cases s with
    | nil => exact ht
    | cons c s => exact hwhole

theorem parts_number (n : Nat) :
    Parts ('$' :: Nat.toDigits 10 n) [.reference (Nat.toDigits 10 n)] := by
  have hdigits : ∀ d ∈ Nat.toDigits 10 n, d.isDigit = true := fun d hd =>
    Nat.isDigit_of_mem_toDigits (by decide) (by decide) hd
  have hparts := Parts.reference hdigits (s := []) (by simp) .nil
  rwa [List.append_nil] at hparts

theorem Part.text_number {values : List (List Char)} {last : List Char} :
    Part.text (values ++ [last]) (.reference (Nat.toDigits 10 (values.length + 1))) = last := by
  simp [Part.text, Nat.ofDigitChars_ten_toDigits]

theorem Part.text_congr {values : List (List Char)} {p : Part} (last other : List Char)
    (h : ∀ digits, p = .reference digits → Nat.ofDigitChars 10 digits 0 ≠ values.length + 1) :
    Part.text (values ++ [last]) p = Part.text (values ++ [other]) p := by
  cases p with
  | char c => rfl
  | reference digits =>
    have hne := h digits rfl
    simp only [Part.text, List.length_append, List.length_singleton]
    by_cases hnumber : 1 ≤ Nat.ofDigitChars 10 digits 0 ∧
        Nat.ofDigitChars 10 digits 0 ≤ values.length + 1
    · have hlt : Nat.ofDigitChars 10 digits 0 - 1 < values.length := by omega
      rw [if_pos hnumber, if_pos hnumber, List.getD_eq_getElem?_getD, List.getD_eq_getElem?_getD,
        List.getElem?_append_left hlt, List.getElem?_append_left hlt]
    · rw [if_neg hnumber, if_neg hnumber]

theorem expand_last {t : List Char} {values : List (List Char)}
    (h : ∀ ps, Parts t ps → ∀ digits, .reference digits ∈ ps →
      Nat.ofDigitChars 10 digits 0 ≠ values.length + 1) (last w : List Char) :
    expand (values ++ [last ++ w]) (t ++ '$' :: Nat.toDigits 10 (values.length + 1)) =
      expand (values ++ [last]) (t ++ '$' :: Nat.toDigits 10 (values.length + 1)) ++ w := by
  obtain ⟨ps, hps⟩ := exists_parts t
  have hparts := hps.append (parts_number (values.length + 1)) (by simp)
  have hsame : ps.flatMap (Part.text (values ++ [last ++ w])) =
      ps.flatMap (Part.text (values ++ [last])) := by
    refine congrArg List.flatten (List.map_congr_left fun p hp => Part.text_congr _ _ ?_)
    rintro digits rfl
    exact h ps hps digits hp
  rw [hparts.expand_eq, hparts.expand_eq, List.flatMap_append, List.flatMap_append, hsame]
  simp [Part.text_number]

theorem output?_longer {source front : String} {input out w : List Char} {stars : Nat}
    (hstar : source.toList.getLast? = some '*') (hcount : source.toList.count '*' = stars)
    (hfront : ∀ ps, Parts front.toList ps → ∀ digits, .reference digits ∈ ps →
      Nat.ofDigitChars 10 digits 0 ≠ stars) (hw : '\n' ∉ w)
    (h : (ofTexts source (front ++ "$" ++ toString stars)).output? input = some out) :
    (ofTexts source (front ++ "$" ++ toString stars)).output? (input ++ w) = some (out ++ w) := by
  have htemplate : (ofTexts source (front ++ "$" ++ toString stars)).template =
      front.toList ++ '$' :: Nat.toDigits 10 stars := by
    simp [ofTexts, Nat.toString_eq_repr, Nat.toList_repr]
  rw [output?, htemplate] at h ⊢
  obtain ⟨⟨n, captures⟩, hfind, rfl⟩ := Option.map_eq_some_iff.mp h
  obtain ⟨values, last, rfl, happend⟩ := Template.find?_append (endsInToken hstar) hfind
  obtain rfl : stars = values.length + 1 := by
    rw [← hcount, ← length_values hfind, List.length_append, List.length_singleton]
  rw [happend w hw]
  exact congrArg some (expand_last hfront last w)

end PathRule

namespace PathRules

theorem output?_singleton (source output input : String) :
    (ofTexts [(source, output)]).output? input =
      ((PathRule.ofTexts source output).output? input.toList).map String.ofList := by
  unfold output? ofTexts
  rw [List.map_singleton, List.findSome?_singleton]

/-- A rule whose glob ends in a star, and whose output ends in the only reference to that star, carries
whatever is appended to a path it rewrites over to the output, a query in particular. All else that
the glob captures stays the same. -/
theorem output?_append (source front path out : String) (stars : Nat)
    (hstar : source.toList.getLast? = some '*') (hcount : source.toList.count '*' = stars)
    (hfront : ∀ ps, PathRule.Parts front.toList ps → ∀ digits, .reference digits ∈ ps →
      Nat.ofDigitChars 10 digits 0 ≠ stars)
    (h : (ofTexts [(source, front ++ "$" ++ toString stars)]).output? path = some out) :
    (∀ query : String, '\n' ∉ query.toList →
      (ofTexts [(source, front ++ "$" ++ toString stars)]).output? (path ++ "?" ++ query) =
        some (out ++ "?" ++ query)) ∧
    (∀ suffix : String, '\n' ∉ suffix.toList →
      (ofTexts [(source, front ++ "$" ++ toString stars)]).output? (path ++ suffix) =
        some (out ++ suffix)) ∧
    ∃ start values last,
      (PathRule.ofTexts source (front ++ "$" ++ toString stars)).glob.find? path.toList =
        some (start, values ++ [last]) ∧
      ∀ suffix : String, '\n' ∉ suffix.toList →
        (PathRule.ofTexts source (front ++ "$" ++ toString stars)).glob.find?
            (path ++ suffix).toList = some (start, values ++ [last ++ suffix.toList]) := by
  have happend : ∀ suffix : String, '\n' ∉ suffix.toList →
      (ofTexts [(source, front ++ "$" ++ toString stars)]).output? (path ++ suffix) =
        some (out ++ suffix) := by
    intro suffix hsuffix
    rw [output?_singleton] at h ⊢
    obtain ⟨chars, hchars, rfl⟩ := Option.map_eq_some_iff.mp h
    rw [String.toList_append, PathRule.output?_longer hstar hcount hfront hsuffix hchars]
    simp
  refine ⟨fun query hquery => ?_, happend, ?_⟩
  · have hpath : path ++ "?" ++ query = path ++ ("?" ++ query) := String.append_assoc ..
    have hout : out ++ "?" ++ query = out ++ ("?" ++ query) := String.append_assoc ..
    rw [hpath, hout]
    exact happend ("?" ++ query) (by simpa using hquery)
  · rw [output?_singleton] at h
    obtain ⟨chars, hchars, -⟩ := Option.map_eq_some_iff.mp h
    obtain ⟨⟨n, captures⟩, hfind, -⟩ := Option.map_eq_some_iff.mp hchars
    obtain ⟨values, last, rfl, hlonger⟩ :=
      Template.find?_append (PathRule.endsInToken hstar) hfind
    refine ⟨n, values, last, hfind, fun suffix hsuffix => ?_⟩
    rw [String.toList_append, hlonger _ hsuffix]

theorem output?_append_versioned :
    "/*/api/*".toList.getLast? = some '*' ∧ "/*/api/*".toList.count '*' = 2 ∧
    (ofTexts [("/*/api/*", "/v2/$1/" ++ "$" ++ toString 2)]).output? "/eu/api/users" =
      some "/v2/eu/users" ∧
    (ofTexts [("/*/api/*", "/v2/$1/" ++ "$" ++ toString 2)]).output?
      ("/eu/api/users" ++ "?" ++ "page=2") = some ("/v2/eu/users" ++ "?" ++ "page=2") := by
  have hstar : "/*/api/*".toList.getLast? = some '*' := by decide
  have hcount : "/*/api/*".toList.count '*' = 2 := by decide
  have hreference : PathRule.Parts ('$' :: (['1'] ++ ['/'])) [.reference ['1'], .char '/'] :=
    .reference (List.forall_mem_singleton.mpr rfl) (fun c hc => Option.some.inj hc ▸ rfl)
      (.char (by decide) .nil)
  have hparts : PathRule.Parts "/v2/$1/".toList
      [.char '/', .char 'v', .char '2', .char '/', .reference ['1'], .char '/'] :=
    .char (by decide) (.char (by decide) (.char (by decide) (.char (by decide) hreference)))
  have hfront : ∀ ps, PathRule.Parts "/v2/$1/".toList ps → ∀ digits, .reference digits ∈ ps →
      Nat.ofDigitChars 10 digits 0 ≠ 2 := by
    intro ps hps digits hdigits
    rw [hparts.unique hps] at hdigits
    obtain rfl : digits = ['1'] := by simpa using hdigits
    decide
  have hrewritten : (ofTexts [("/*/api/*", "/v2/$1/" ++ "$" ++ toString 2)]).output?
      "/eu/api/users" = some "/v2/eu/users" := by decide +kernel
  exact ⟨hstar, hcount, hrewritten,
    (output?_append _ _ _ _ 2 hstar hcount hfront hrewritten).1 "page=2" (by decide)⟩

end PathRules

end Gateway
