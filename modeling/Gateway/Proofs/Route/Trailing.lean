import Gateway.Proofs.Route.Compile
import Gateway.Proofs.Route.Selection

/-! The last value that a template captures is the longest that any split of the path has, so that a
template whose last value is empty has no split that serves the path. -/

namespace Gateway

namespace Template

/-- Where the search stands at least as far from the end as another reading of the path, it keeps at
least as much for the last token. -/
theorem last_length_le {ps : List Piece} {s r : List Char} {vs ws : List (List Char)}
    (h : capture ps s = some vs) (hf : Fits ps r ws) (hr : r <:+ s) :
    ∀ v ∈ vs.getLast?, ∀ w ∈ ws.getLast?, w.length ≤ v.length := by
  induction hf generalizing s vs with
  | nil => simp
  | @char ps r ws c hf ih =>
    cases s with
    | nil => simp at hr
    | cons d s =>
      by_cases hc : c = d
      · subst c
        exact ih (by simpa [capture] using h) (Text.suffix_tail hr)
      · simp [capture, hc] at h
  | @token ps r ws name w hw hf ih =>
    obtain ⟨x, hx⟩ := hr
    obtain ⟨v, t, us, hs, -, ht, rfl, hfirst⟩ := capture_token_eq_some_iff.mp h
    have hsplit : s = (x ++ w) ++ r := by rw [← hx, List.append_assoc]
    have hlen : v.length ≤ (x ++ w).length := length_le_of_fits hfirst hsplit hf
    have hsuffix : r <:+ t := by
      refine List.suffix_of_suffix_length_le ⟨x ++ w, hsplit.symm⟩ ⟨v, hs.symm⟩ ?_
      have hboth := congrArg List.length (hs.symm.trans hsplit)
      simp only [List.length_append] at hboth hlen
      omega
    cases ws with
    | nil =>
      have hcount : us.length + 1 = ([] : List (List Char)).length + 1 :=
        (fits_of_capture ht).count.symm.trans hf.count
      obtain rfl : us = [] := by simpa using hcount
      obtain rfl : t = r := (fits_of_capture ht).eq_weave.trans hf.eq_weave.symm
      obtain rfl : v = x ++ w := List.append_cancel_right (hs.symm.trans hsplit)
      simp
    | cons w' ws =>
      have hcount : us.length + 1 = (w' :: ws).length + 1 :=
        (fits_of_capture ht).count.symm.trans hf.count
      obtain ⟨v', us, rfl⟩ : ∃ v' us', us = v' :: us' :=
        List.exists_cons_of_length_pos (by simp at hcount; omega)
      simpa only [List.getLast?_cons_cons] using ih ht hsuffix

theorem last_length_le_of_find? {t : Template} {path before : List Char} {n : Nat}
    {vs ws : List (List Char)} (h : t.find? path = some (n, vs))
    (hs : t.outline.Split path before ws) :
    ∀ v ∈ vs.getLast?, ∀ w ∈ ws.getLast?, w.length ≤ v.length := by
  have hn : n ≤ before.length := start_le_of_split h hs
  obtain ⟨rest, rfl, hf, -⟩ := split_iff.mp hs
  refine last_length_le (capture_of_find? h).2 hf ?_
  rw [List.drop_append_of_le_length hn]
  exact List.suffix_append _ _

theorem exists_last_of_find? {t : Template} {path : List Char} {n : Nat} {vs : List (List Char)}
    (htoken : t.names ≠ []) (h : t.find? path = some (n, vs)) : ∃ us v, vs = us ++ [v] := by
  have hne : vs ≠ [] := by
    rintro rfl
    exact htoken (List.eq_nil_of_length_eq_zero (length_of_find? h).symm)
  exact ⟨_, _, (List.dropLast_concat_getLast hne).symm⟩

end Template

theorem Pattern.denotes_of_ofText {pattern text : String} {priority : Bool} {t : Template}
    (h : ofText pattern = .template priority text t) : Template.Denotes text.toList t := by
  refine Template.denotes_iff.mpr ?_
  unfold ofText at h
  split at h
  · cases h
  · cases h
    rw [String.toList_ofList]
  · cases h
    rfl

namespace Matcher

variable {patterns : List String} {priority : Bool} {path : String} {i : Nat} {text : String}
  {t : Template}

theorem candidate_iff (hlisted : (patterns[i]?).map Pattern.ofText = some (.template priority text t))
    {captures : List (List Char)} :
    (∃ c ∈ (build patterns).candidates priority path, c.index = i ∧ c.captures = captures) ↔
      captures.getLast? ≠ some [] ∧ ∃ start, t.find? path.toList = some (start, captures) := by
  constructor
  · rintro ⟨c, hc, rfl, rfl⟩
    obtain ⟨i, other, u, start, captures, h, rfl⟩ := mem_candidates.mp hc
    have hsame : Pattern.template priority other u = .template priority text t :=
      Option.some.inj (h.listed.symm.trans hlisted)
    obtain ⟨-, -, rfl⟩ := Pattern.template.inj hsame
    exact ⟨h.kept, start, h.found⟩
  · rintro ⟨hkept, start, hfound⟩
    exact ⟨_, mem_candidates.mpr ⟨i, text, t, start, captures, ⟨hlisted, hfound, hkept⟩, rfl⟩,
      rfl, rfl⟩

/-- A template with a token serves a path exactly when some split of the path, not only the one that
is found, has a last value that is not empty. The last value that is captured is the longest one. -/
theorem serves_iff_split (patterns : List String) (priority : Bool) (path : String) (i : Nat)
    (text : String) (t u : Template)
    (hlisted : (patterns[i]?).map Pattern.ofText = some (.template priority text u))
    (ht : Template.Denotes text.toList t) (htoken : t.names ≠ []) :
    ((∃ c ∈ (build patterns).candidates priority path, c.index = i) ↔
      ∃ before values last,
        t.outline.Split path.toList before (values ++ [last]) ∧ last ≠ []) ∧
    (∀ c ∈ (build patterns).candidates priority path, c.index = i →
      ∃ start, t.find? path.toList = some (start, c.captures)) ∧
    ∀ start captures, t.find? path.toList = some (start, captures) →
      ∃ values last, captures = values ++ [last] ∧
        (∃ before, t.outline.Split path.toList before captures) ∧
        ∀ before others other, t.outline.Split path.toList before (others ++ [other]) →
          other.length ≤ last.length := by
  obtain ⟨p, -, hp⟩ := Option.map_eq_some_iff.mp hlisted
  obtain rfl : t = u := (Template.denotes_iff.mp ht).trans
    (Template.denotes_iff.mp (Pattern.denotes_of_ofText hp)).symm
  have hlongest : ∀ {start values last before others other},
      t.find? path.toList = some (start, values ++ [last]) →
      t.outline.Split path.toList before (others ++ [other]) → other.length ≤ last.length := by
    intro start values last before others other hf hs
    exact Template.last_length_le_of_find? hf hs last (by simp) other (by simp)
  refine ⟨⟨?_, ?_⟩, ?_, ?_⟩
  · rintro ⟨c, hc, hi⟩
    obtain ⟨hkept, start, hf⟩ := (candidate_iff hlisted).mp ⟨c, hc, hi, rfl⟩
    obtain ⟨values, last, he⟩ := Template.exists_last_of_find? htoken hf
    refine ⟨_, values, last, he ▸ Template.split_of_find? hf, ?_⟩
    rintro rfl
    simp [he] at hkept
  · rintro ⟨before, values, last, hs, hne⟩
    obtain ⟨⟨start, captures⟩, hf⟩ := Option.isSome_iff_exists.mp (Template.find?_isSome_of_split hs)
    obtain ⟨found, final, rfl⟩ := Template.exists_last_of_find? htoken hf
    have hle := hlongest hf hs
    have hkept : (found ++ [final]).getLast? ≠ some [] := by
      simp only [List.getLast?_append, List.getLast?_singleton, Option.some_or, ne_eq,
        Option.some.injEq]
      rintro rfl
      exact hne (List.eq_nil_of_length_eq_zero (by simpa using hle))
    obtain ⟨c, hc, hi, -⟩ := (candidate_iff hlisted).mpr ⟨hkept, start, hf⟩
    exact ⟨c, hc, hi⟩
  · intro c hc hi
    exact ((candidate_iff hlisted).mp ⟨c, hc, hi, rfl⟩).2
  · intro start captures hf
    obtain ⟨values, last, rfl⟩ := Template.exists_last_of_find? htoken hf
    exact ⟨values, last, rfl, ⟨_, Template.split_of_find? hf⟩, fun _ _ _ hs => hlongest hf hs⟩

def pairTemplate : Template := ⟨false, [.char '/', .token ['a'], .char '/', .token ['b']]⟩

/-- The path `/x//y` is served, as the split with the values `x/` and `y` tells; the one that is found
has the values `x` and `/y`. -/
theorem serves_iff_split_pair :
    (["/login", "/:a/*b"][1]?).map Pattern.ofText = some (.template false "/:a/*b" pairTemplate) ∧
    Template.Denotes "/:a/*b".toList pairTemplate ∧ pairTemplate.names ≠ [] ∧
    ∃ c ∈ (build ["/login", "/:a/*b"]).candidates false "/x//y", c.index = 1 := by
  have hlisted : (["/login", "/:a/*b"][1]?).map Pattern.ofText =
      some (.template false "/:a/*b" pairTemplate) := by decide +kernel
  have hdenotes : Template.Denotes "/:a/*b".toList pairTemplate :=
    Template.denotes_iff.mpr (by decide +kernel)
  have hnames : pairTemplate.names ≠ [] := by decide
  have hsplit : pairTemplate.outline.Split "/x//y".toList [] ([['x', '/']] ++ [['y']]) :=
    ⟨by decide, rfl, by decide, fun _ => rfl⟩
  exact ⟨hlisted, hdenotes, hnames,
    (serves_iff_split _ false "/x//y" 1 _ _ _ hlisted hdenotes hnames).1.mpr
      ⟨_, _, _, hsplit, by decide⟩⟩

end Matcher

end Gateway
