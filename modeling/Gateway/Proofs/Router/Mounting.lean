import Gateway.Proofs.Router.Anchoring
import Gateway.Proofs.Route.Suffix

/-! The patterns under which files are served: the clean path of a group and a mount, and the path
of the file behind it. What they find in a path is the part behind one of its slashes. -/

namespace Gateway

open Gateway.Path Text

namespace Template

theorem readPieces_append (s t : List Char) :
    readPieces (s ++ '/' :: t) = readPieces s ++ .char '/' :: readPieces t := by
  have hname : isNameChar '/' = false := by decide
  have htake : ∀ cs : List Char,
      (cs ++ '/' :: t).takeWhile isNameChar = cs.takeWhile isNameChar := by
    intro cs
    induction cs with
    | nil => simp [hname]
    | cons c cs ih => by_cases hc : isNameChar c = true <;> simp [hc, ih]
  have hdrop : ∀ cs : List Char,
      (cs ++ '/' :: t).dropWhile isNameChar = cs.dropWhile isNameChar ++ '/' :: t := by
    intro cs
    induction cs with
    | nil => simp [hname]
    | cons c cs ih => by_cases hc : isNameChar c = true <;> simp [hc, ih]
  fun_induction readPieces s with
  | case1 => simp [readPieces]
  | case2 c cs hc hempty ih =>
    rw [List.cons_append, readPieces, if_pos hc, htake, if_pos hempty, ih]
    rfl
  | case3 c cs hc hne ih =>
    rw [List.cons_append, readPieces, if_pos hc, htake, if_neg hne, hdrop, ih]
    rfl
  | case4 c cs hc ih =>
    rw [List.cons_append, readPieces, if_neg hc, ih]
    rfl

theorem Fits.exists_append {ps qs : List Piece} {s : List Char} {vs : List (List Char)}
    (h : Fits (ps ++ qs) s vs) : ∃ s₁ s₂ us ws, s = s₁ ++ s₂ ∧ vs = us ++ ws ∧ Fits ps s₁ us ∧
      Fits qs s₂ ws := by
  induction ps generalizing s vs with
  | nil => exact ⟨[], s, [], vs, rfl, rfl, .nil, h⟩
  | cons p ps ih =>
    cases p with
    | char c =>
      obtain ⟨r, rfl, hr⟩ := fits_char_iff.mp h
      obtain ⟨s₁, s₂, us, ws, rfl, rfl, hu, hw⟩ := ih hr
      exact ⟨c :: s₁, s₂, us, ws, rfl, rfl, .char c hu, hw⟩
    | token name =>
      obtain ⟨v, r, vs', rfl, hv, rfl, hr⟩ := fits_token_iff.mp h
      obtain ⟨s₁, s₂, us, ws, rfl, rfl, hu, hw⟩ := ih hr
      exact ⟨v ++ s₁, s₂, v :: us, ws, by simp, rfl, .token name v hv hu, hw⟩

theorem ofText_rooted {path : List Char} (rooted : path.head? = some '/') (anchored : Bool) :
    ofText ((caret anchored).toList ++ path) = ⟨anchored, readPieces path⟩ := by
  cases anchored with
  | true => rfl
  | false => exact ofText_plain (by simp [caret, rooted])

end Template

namespace Path

theorem intercalate_cons (sep first : List Char) (steps : List (List Char)) :
    sep.intercalate (first :: steps) = first ++ steps.flatMap (sep ++ ·) := by
  induction steps generalizing first with
  | nil => simp
  | cons s steps ih => simp [List.intercalate_cons_cons, ih s]

theorem cleanChars_step (front : List Char) {s : List Char} (hs : Proper s) (single : '/' ∉ s) :
    cleanChars (front ++ '/' :: s) = (kept front).flatMap ('/' :: ·) ++ '/' :: s := by
  have hpieces : pieces '/' (front ++ '/' :: s) = pieces '/' front ++ [s] := by
    rw [pieces_append, pieces_of_notMem single]
  have hkept : kept (front ++ '/' :: s) = kept front ++ [s] := by
    rw [kept, hpieces, resolve_concat, walk_of_proper _ hs, List.reverse_cons]
    rfl
  have hends : endsWithSlash (front ++ '/' :: s) = false := by
    rw [List.append_cons, endsWithSlash_append _ hs.1, endsWithSlash, beq_eq_false_iff_ne]
    exact fun h => single (List.mem_of_getLast? h)
  rw [← intercalate_pieces '/' (cleanChars _), pieces_cleanChars, hkept, hends]
  simp [ending, intercalate_cons]

end Path

namespace Router

/-- The pattern is that of files that are served at the root: nothing but a marker and a caret
stands in front of the path of the file. -/
def AtRoot (pattern : String) : Prop :=
  ∃ marker ∈ ["", "= ", "~ "], ∃ caret ∈ ["", "^"], pattern = marker ++ caret ++ filesPattern "/"

instance (pattern : String) : Decidable (AtRoot pattern) :=
  inferInstanceAs (Decidable (∃ marker ∈ ["", "= ", "~ "], ∃ caret ∈ ["", "^"],
    pattern = marker ++ caret ++ filesPattern "/"))

theorem splitMarker_cases (cs : List Char) : ∃ marker ∈ ["", "= ", "~ "], ∃ rest,
    Pattern.splitMarker cs = (marker, rest) ∧ cs = marker.toList ++ rest := by
  unfold Pattern.splitMarker
  split
  · exact ⟨"= ", by simp, _, rfl, rfl⟩
  · exact ⟨"~ ", by simp, _, rfl, rfl⟩
  · exact ⟨"", by simp, _, rfl, rfl⟩

theorem splitMarker_files (body : List Char) : ∃ marker ∈ ["", "= ", "~ "], ∃ rest,
    Pattern.splitMarker (body ++ "/*filepath".toList) = (marker, rest ++ "/*filepath".toList) := by
  obtain ⟨marker, hmarker, rest, hsplit, hparts⟩ := splitMarker_cases (body ++ "/*filepath".toList)
  refine ⟨marker, hmarker, ?_⟩
  rcases List.append_eq_append_iff.mp hparts with ⟨excess, hexcess, hfile⟩ | ⟨more, -, rfl⟩
  · have hslash : '/' ∉ excess := by
      have hfree : ∀ marker ∈ ["", "= ", "~ "], '/' ∉ marker.toList := by decide
      exact fun h => hfree marker hmarker (hexcess ▸ List.mem_append_right _ h)
    cases excess with
    | nil => exact ⟨[], by rw [hsplit, hfile]; rfl⟩
    | cons c excess =>
      obtain rfl : '/' = c := (List.cons.inj (show '/' :: _ = c :: _ from hfile)).1
      exact absurd List.mem_cons_self hslash
  · exact ⟨more, hsplit⟩

theorem proper_file : Proper "*filepath".toList := ⟨by decide, by decide, by decide⟩

/-- Behind the marker and the caret of a mount are the steps of the group and the mount, and the path
of the file. -/
theorem join_filesPattern (base mount : String) : ∃ marker ∈ ["", "= ", "~ "],
    ∃ (anchored : Bool) (steps : List (List Char)), join base (filesPattern mount) =
      marker ++ caret anchored ++
        String.ofList (steps.flatMap ('/' :: ·) ++ "/*filepath".toList) := by
  obtain ⟨marker, hmarker, rest, hsplit⟩ :=
    splitMarker_files (mount.toList.reverse.dropWhile (· == '/')).reverse
  have hchars : (filesPattern mount).toList =
      (mount.toList.reverse.dropWhile (· == '/')).reverse ++ "/*filepath".toList := by
    simp [filesPattern, String.toList_append]
  rw [← hchars] at hsplit
  have hclean : ∀ body : List Char,
      clean (base ++ "/" ++ String.ofList (body ++ "/*filepath".toList)) =
        String.ofList
          ((kept (base.toList ++ '/' :: body)).flatMap ('/' :: ·) ++ "/*filepath".toList) := by
    intro body
    have hstep := cleanChars_step (base.toList ++ '/' :: body) proper_file (by decide)
    simpa [clean, String.toList_append] using congrArg String.ofList hstep
  by_cases hcaret : (rest ++ "/*filepath".toList).head? = some '^'
  · obtain ⟨body, rfl⟩ : ∃ body, rest = '^' :: body := by
      cases rest with
      | nil => simp at hcaret
      | cons c body => exact ⟨body, by simpa using hcaret⟩
    refine ⟨marker, hmarker, true, kept (base.toList ++ '/' :: body), ?_⟩
    rw [List.cons_append] at hsplit
    rw [join_caret hsplit, hclean]
    rfl
  · refine ⟨marker, hmarker, false, kept (base.toList ++ '/' :: rest), ?_⟩
    rw [join_uncareted hsplit (by simp) hcaret, hclean]
    simp [caret]

theorem atRoot_iff {marker : String} (hmarker : marker ∈ ["", "= ", "~ "]) (anchored : Bool)
    (steps : List (List Char)) :
    AtRoot (marker ++ caret anchored ++
      String.ofList (steps.flatMap ('/' :: ·) ++ "/*filepath".toList)) ↔ steps = [] := by
  constructor
  · rintro ⟨marker', hmarker', caret', hcaret', h⟩
    have hfree : '/' ∉ (marker' ++ caret').toList := by
      simp only [List.mem_cons, List.not_mem_nil, or_false] at hmarker' hcaret'
      rcases hmarker' with rfl | rfl | rfl <;> rcases hcaret' with rfl | rfl <;> decide
    have hchars := congrArg String.toList h
    have hfile : (filesPattern "/").toList = "/*filepath".toList := by decide +kernel
    rw [String.toList_append, String.toList_append (s := marker' ++ caret'), hfile,
      String.toList_ofList, ← List.append_assoc] at hchars
    rw [← List.append_cancel_right hchars] at hfree
    cases steps with
    | nil => rfl
    | cons s steps => simp at hfree
  · rintro rfl
    refine ⟨marker, hmarker, caret anchored, ?_, rfl⟩
    cases anchored <;> simp [caret]

theorem ofText_marked {marker : String} (hmarker : marker ∈ ["", "= ", "~ "]) {anchored : Bool}
    {path : List Char} (rooted : path.head? = some '/') {priority : Bool} {text : String}
    {t : Template}
    (h : Pattern.ofText (marker ++ caret anchored ++ String.ofList path) =
      .template priority text t) :
    t = ⟨anchored, Template.readPieces path⟩ := by
  rw [← Template.ofText_rooted rooted anchored]
  simp only [List.mem_cons, List.not_mem_nil, or_false] at hmarker
  unfold Pattern.ofText at h
  rw [String.toList_append, String.toList_append, String.toList_ofList, List.append_assoc] at h
  rcases hmarker with rfl | rfl | rfl
  · cases anchored with
    | true => exact (Pattern.template.inj h).2.2.symm
    | false =>
      obtain ⟨rest, rfl⟩ := List.head?_eq_some_iff.mp rooted
      exact (Pattern.template.inj h).2.2.symm
  · cases h
  · exact (Pattern.template.inj h).2.2.symm

/-- The template of such a pattern has the slash and the token of the file at its end, and in front
of them what stands for the group and the mount. -/
theorem pieces_filesPattern {base mount text : String} {priority : Bool} {t : Template}
    (h : Pattern.ofText (join base (filesPattern mount)) = .template priority text t) :
    ∃ front, t.pieces = front ++ [.char '/', .token StaticFiles.parameter.toList] ∧
      (front = [] ↔ AtRoot (join base (filesPattern mount))) ∧
      (front ≠ [] → ∃ more, front = .char '/' :: more) := by
  obtain ⟨marker, hmarker, anchored, steps, hjoin⟩ := join_filesPattern base mount
  have hroot := atRoot_iff hmarker anchored steps
  have hfile : "/*filepath".toList = '/' :: "*filepath".toList := by decide
  have htoken : Template.readPieces "*filepath".toList = [.token StaticFiles.parameter.toList] := by
    decide +kernel
  have hrooted : (steps.flatMap ('/' :: ·) ++ "/*filepath".toList).head? = some '/' := by
    cases steps <;> simp
  rw [hjoin] at h ⊢
  have ht := ofText_marked hmarker hrooted h
  rw [hfile, Template.readPieces_append, htoken] at ht
  subst ht
  refine ⟨_, rfl, ?_, ?_⟩
  · rw [hroot]
    cases steps <;> simp [Template.readPieces]
  · intro hne
    cases steps with
    | nil => simp [Template.readPieces] at hne
    | cons s steps =>
      rw [List.flatMap_cons, List.cons_append, Template.readPieces, if_neg (by decide)]
      exact ⟨_, rfl⟩

end Router

theorem Matcher.find?_cases {patterns : List String} {path : String} {hit : Hit}
    (h : (build patterns).find? path = some hit) :
    FirstExact patterns path hit ∨ ∃ priority, BestTemplate patterns priority path hit := by
  unfold find? at h
  cases he : (build patterns).exactHit? path with
  | some first =>
    simp only [he, Option.some.injEq] at h
    subst first
    exact .inl ((exactHit?_eq_some_iff patterns path hit).mp he)
  | none =>
    have hbest := best?_candidates_eq_some_iff patterns
    cases hc : Candidate.best? ((build patterns).candidates true path) with
    | some c =>
      simp only [he, hc] at h
      exact .inr ⟨true, (hbest true path hit).mp (by rw [hc, Option.map_some, h])⟩
    | none =>
      simp only [he, hc] at h
      exact .inr ⟨false, (hbest false path hit).mp h⟩

theorem Params.value_of_last {ps : Params} {names values : List String} {name value : String}
    (hnames : ps.map Prod.fst = names ++ [name]) (hvalues : ps.map Prod.snd = values ++ [value])
    (other : name ∉ names) : ps.value name = value := by
  obtain ⟨qs, rs, rfl, rfl, hr⟩ := List.map_eq_append_iff.mp hnames
  obtain ⟨⟨n, v⟩, rfl, rfl⟩ := List.map_eq_singleton_iff.mp hr
  rw [List.map_append] at hvalues
  obtain ⟨-, hv⟩ := List.append_inj' hvalues rfl
  obtain rfl : v = value := (List.cons.inj hv).1
  have hskip : qs.find? (·.1 == n) = none := by
    rw [List.find?_eq_none]
    intro q hq he
    exact other (List.mem_map.mpr ⟨q, hq, by simpa using he⟩)
  simp [value, get?, List.find?_append, hskip]

namespace Router

theorem lookup?_cases {r : Router} (sound : r.Sound) {m : Method} {path pattern : String}
    {chain : Chain} {hit : Hit} (h : r.lookup? m path = some (chain, pattern, hit)) :
    (∃ text, Pattern.ofText pattern = .exact text) ∧ hit.params = [] ∨
    ∃ priority text t start captures, Pattern.ofText pattern = .template priority text t ∧
      t.find? path.toList = some (start, captures) ∧ captures.getLast? ≠ some [] ∧
      hit.params.map Prod.fst = t.names.map String.ofList ∧
      hit.params.map Prod.snd = captures.map fun v => String.ofList (Candidate.withoutSlash v) := by
  obtain ⟨table, htable, h⟩ := Option.bind_eq_some_iff.mp h
  obtain ⟨hit', hhit, h⟩ := Option.bind_eq_some_iff.mp h
  obtain ⟨_, -, h⟩ := Option.bind_eq_some_iff.mp h
  obtain ⟨listed, hlisted, h⟩ := Option.bind_eq_some_iff.mp h
  cases h
  rw [(sound.tables.tables m table (Tables.mem_of_get? htable)).matcher] at hhit
  rcases Matcher.find?_cases hhit with hexact | ⟨priority, t, start, captures, hc, -, hparams⟩
  · have hat := hexact.exact.listed
    rw [hlisted] at hat
    exact .inl ⟨⟨_, Option.some.inj hat⟩, hexact.params⟩
  · have hat := hc.listed
    rw [hlisted] at hat
    exact .inr ⟨priority, _, t, start, captures, Option.some.inj hat, hc.found, hc.kept, hparams⟩

/-- Where files are served, the value of the parameter is what stands behind some slash of the path,
less one slash at its end. At the root that is the first slash; elsewhere there is something in
front. -/
structure Behind (pattern path : String) (params : Params) (front back : List Char) : Prop where
  text : path.toList = front ++ '/' :: back
  nonempty : back ≠ []
  line : '\n' ∉ back
  value : (Pattern.ofText pattern).names.count StaticFiles.parameter ≤ 1 →
    params.value StaticFiles.parameter = String.ofList (Candidate.withoutSlash back)
  below : ¬ AtRoot pattern → front ≠ []
  whole : AtRoot pattern → ∀ rest, path.toList = '/' :: rest → '\n' ∉ rest → front = []

theorem value_of_pieces {t : Template} {front : List Piece} {params : Params}
    {us : List (List Char)} {back : List Char}
    (pieces : t.pieces = front ++ [.char '/', .token StaticFiles.parameter.toList])
    (names : params.map Prod.fst = t.names.map String.ofList)
    (values : params.map Prod.snd =
      (us ++ [back]).map fun v => String.ofList (Candidate.withoutSlash v))
    (once : (t.names.map String.ofList).count StaticFiles.parameter ≤ 1) :
    params.value StaticFiles.parameter = String.ofList (Candidate.withoutSlash back) := by
  have hown : t.names.map String.ofList =
      (Template.mk t.anchored front).names.map String.ofList ++ [StaticFiles.parameter] := by
    simp [Template.names, pieces]
  rw [hown, List.count_append, List.count_singleton_self] at once
  have hother := List.count_eq_zero.mp (Nat.le_zero.mp (Nat.le_of_add_le_add_right once))
  rw [List.map_append] at values
  exact Params.value_of_last (names.trans hown) values hother

theorem start_of_pieces {t : Template} {name : List Char}
    (pieces : t.pieces = [.char '/', .token name]) {path rest : List Char} {start : Nat}
    {captures : List (List Char)} (found : t.find? path = some (start, captures))
    (rooted : path = '/' :: rest) (line : '\n' ∉ rest) : start = 0 := by
  have hwhole : Template.Fits t.pieces path [rest] := by
    rw [pieces, rooted]
    exact .char '/' (Template.fits_last.mpr ⟨rfl, line⟩)
  have hsplit : t.outline.Split path [] [rest] :=
    Template.split_iff.mpr ⟨path, rfl, hwhole, fun _ => rfl⟩
  exact Nat.le_zero.mp (Template.start_le_of_split found hsplit)

theorem exists_behind {r : Router} (sound : r.Sound) {m : Method} {path base mount : String}
    {chain : Chain} {hit : Hit}
    (h : r.lookup? m path = some (chain, join base (filesPattern mount), hit))
    (template : ∀ text, Pattern.ofText (join base (filesPattern mount)) ≠ .exact text) :
    ∃ front back, Behind (join base (filesPattern mount)) path hit.params front back := by
  rcases lookup?_cases sound h with ⟨⟨text, hexact⟩, -⟩ |
    ⟨priority, text, t, start, captures, htemplate, hfound, hkept, hnames, hvalues⟩
  · exact absurd hexact (template text)
  obtain ⟨front, hpieces, hroot, hslash⟩ := pieces_filesPattern htemplate
  have hfits := Template.fits_of_find? hfound
  rw [hpieces] at hfits
  obtain ⟨s, s', us, ws, hpath, rfl, hfront, hlast⟩ := hfits.exists_append
  obtain ⟨back, rfl, htoken⟩ := Template.fits_char_iff.mp hlast
  obtain ⟨rfl, hline⟩ := Template.fits_last.mp htoken
  refine ⟨path.toList.take start ++ s, back, ?_, ?_, hline, fun once => ?_, fun hnot => ?_,
    fun hat rest hrest hlines => ?_⟩
  · rw [List.append_assoc, ← hpath, List.take_append_drop]
  · rintro rfl
    exact hkept (by simp)
  · rw [htemplate] at once
    exact value_of_pieces hpieces hnames hvalues once
  · obtain ⟨more, rfl⟩ := hslash fun he => hnot (hroot.mp he)
    obtain ⟨s, rfl, -⟩ := Template.fits_char_iff.mp hfront
    simp
  · obtain rfl := hroot.mpr hat
    cases hfront
    rw [start_of_pieces hpieces hfound hrest hlines]
    rfl

end Router

end Gateway
