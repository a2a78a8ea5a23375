import Gateway.Proofs.Route.Fits
import Gateway.Proofs.Route.Ranking

/-! Which pattern of a list serves a path: the first exact one that equals it, else the best of the
templates with priority, else the best of the others. -/

namespace Gateway

/-- The rank of a match that starts at character `start`: without tokens it covers the path when it
starts in front. -/
def Template.key (t : Template) (start : Nat) : Bool ×ₗ ℕ ×ₗ ℕ :=
  toLex (decide (t.names = [] ∧ start = 0),
    toLex (t.names.length, (Utf8.encode (String.ofList t.escaped)).length))

namespace Candidate

theorem ofTemplate?_eq_some_iff {i : Nat} {text : String} {t : Template} {path : List Char}
    {c : Candidate} : ofTemplate? i text t path = some c ↔
      ∃ start captures, t.find? path = some (start, captures) ∧ captures.getLast? ≠ some [] ∧
        c = ofMatch i text t start captures := by
  cases hf : t.find? path with
  | none => simp [ofTemplate?, hf]
  | some found =>
    obtain ⟨start, captures⟩ := found
    by_cases hl : captures.getLast? = some []
    · simp only [ofTemplate?, hf, if_pos hl, reduceCtorEq, false_iff]
      rintro ⟨_, _, he, hn, _⟩
      obtain ⟨rfl, rfl⟩ := Prod.mk.inj (Option.some.inj he)
      exact hn hl
    · simp only [ofTemplate?, hf, if_neg hl, Option.some.injEq]
      constructor
      · rintro rfl
        exact ⟨start, captures, rfl, hl, rfl⟩
      · rintro ⟨_, _, he, _, rfl⟩
        obtain ⟨rfl, rfl⟩ := Prod.mk.inj he
        rfl

theorem key_ofMatch {t : Template} {path : List Char} {start : Nat} {captures : List (List Char)}
    (h : t.find? path = some (start, captures)) (i : Nat) (text : String) :
    (ofMatch i text t start captures).rank.key = t.key start := by
  have hl := Template.length_of_find? h
  have he : captures.isEmpty = decide (t.names = []) := by
    rw [Bool.eq_iff_iff, List.isEmpty_iff_length_eq_zero, hl, decide_eq_true_iff,
      List.length_eq_zero_iff]
  simp only [Rank.key, ofMatch, Template.key, hl, he, Bool.decide_and]
  rfl

theorem params_ofMatch {t : Template} {path : List Char} {start : Nat}
    {captures : List (List Char)} (h : t.find? path = some (start, captures)) (i : Nat)
    (text : String) :
    (ofMatch i text t start captures).hit.params.map Prod.fst = t.names.map String.ofList ∧
    (ofMatch i text t start captures).hit.params.map Prod.snd =
      captures.map fun v => String.ofList (withoutSlash v) := by
  have hl := Template.length_of_find? h
  simp only [hit, ofMatch, List.map_map, Function.comp_def]
  constructor
  · simpa only [List.map_map, Function.comp_def] using
      congrArg (List.map String.ofList) (List.map_fst_zip hl.ge)
  · simpa only [List.map_map, Function.comp_def] using
      congrArg (List.map fun v => String.ofList (withoutSlash v)) (List.map_snd_zip hl.le)

end Candidate

namespace Matcher

theorem getElem?_build (patterns : List String) (i : Nat) :
    (build patterns).patterns[i]? = (patterns[i]?).map fun p => (i, Pattern.ofText p) := by
  simp [build, List.getElem?_zipIdx, Function.comp_def]

theorem mem_build {patterns : List String} {i : Nat} {p : Pattern} :
    (i, p) ∈ (build patterns).patterns ↔ (patterns[i]?).map Pattern.ofText = some p := by
  rw [List.mem_iff_getElem?]
  constructor
  · rintro ⟨j, hj⟩
    obtain ⟨q, hq, he⟩ := Option.map_eq_some_iff.mp ((getElem?_build patterns j).symm.trans hj)
    obtain ⟨rfl, rfl⟩ := Prod.mk.inj he
    rw [hq, Option.map_some]
  · intro h
    obtain ⟨q, hq, rfl⟩ := Option.map_eq_some_iff.mp h
    exact ⟨i, by rw [getElem?_build, hq, Option.map_some]⟩

theorem build_sorted (patterns : List String) :
    (build patterns).patterns.Pairwise (·.1 < ·.1) := by
  rw [List.pairwise_iff_getElem]
  intro i j hi hj hij
  have hget : ∀ k (hk : k < (build patterns).patterns.length),
      (build patterns).patterns[k].1 = k := by
    intro k hk
    have hk' := (List.getElem?_eq_getElem hk).symm.trans (getElem?_build patterns k)
    obtain ⟨p, _, he⟩ := Option.map_eq_some_iff.mp hk'.symm
    rw [← he]
  rwa [hget i hi, hget j hj]

/-- The pattern at place `i` is an exact one, and the path is its text but for the case of ASCII
letters. -/
structure ExactAt (patterns : List String) (path : String) (i : Nat) (text : String) : Prop where
  listed : (patterns[i]?).map Pattern.ofText = some (.exact text)
  same : sameText text path = true

/-- The pattern at place `i` is a template that matches the path from character `start` on, and its
last token, if there is one, captures something. -/
structure CandidateAt (patterns : List String) (priority : Bool) (path : String) (i : Nat)
    (text : String) (t : Template) (start : Nat) (captures : List (List Char)) : Prop where
  listed : (patterns[i]?).map Pattern.ofText = some (.template priority text t)
  found : t.find? path.toList = some (start, captures)
  kept : captures.getLast? ≠ some []

def HasExact (patterns : List String) (path : String) : Prop :=
  ∃ i text, ExactAt patterns path i text

def HasCandidate (patterns : List String) (priority : Bool) (path : String) : Prop :=
  ∃ i text t start captures, CandidateAt patterns priority path i text t start captures

/-- The hit is the first exact pattern that equals the path. -/
structure FirstExact (patterns : List String) (path : String) (hit : Hit) : Prop where
  exact : ExactAt patterns path hit.index hit.pattern
  first : ∀ i text, ExactAt patterns path i text → hit.index ≤ i
  params : hit.params = []

/-- The hit is the first of the candidates of the highest rank, with the names of its tokens in
order and what they captured, less a slash at the end. -/
def BestTemplate (patterns : List String) (priority : Bool) (path : String) (hit : Hit) : Prop :=
  ∃ t start captures,
    CandidateAt patterns priority path hit.index hit.pattern t start captures ∧
    (∀ i text u begin values, CandidateAt patterns priority path i text u begin values →
      u.key begin ≤ t.key start ∧ (u.key begin = t.key start → hit.index ≤ i)) ∧
    hit.params.map Prod.fst = t.names.map String.ofList ∧
    hit.params.map Prod.snd =
      captures.map fun v => String.ofList (Candidate.withoutSlash v)

theorem exactHitAt?_eq_some_iff {path : String} {i : Nat} {p : Pattern} {hit : Hit} :
    exactHitAt? path (i, p) = some hit ↔
      ∃ text, p = .exact text ∧ sameText text path = true ∧ hit = ⟨i, [], text⟩ := by
  cases p with
  | template => simp [exactHitAt?]
  | exact s =>
    constructor
    · intro h
      obtain ⟨hs, he⟩ := Option.ite_none_right_eq_some.mp h
      exact ⟨s, rfl, hs, (Option.some.inj he).symm⟩
    · rintro ⟨_, ⟨⟩, hs, rfl⟩
      exact if_pos hs

theorem places_of_split {l₁ l₂ : List (Nat × Pattern)} {a : Nat × Pattern}
    (h : (l₁ ++ a :: l₂).Pairwise (·.1 < ·.1)) :
    (∀ x ∈ l₁, x.1 < a.1) ∧ ∀ x ∈ l₂, a.1 < x.1 := by
  obtain ⟨_, h₂, hc⟩ := List.pairwise_append.mp h
  exact ⟨fun x hx => hc x hx a List.mem_cons_self, (List.pairwise_cons.mp h₂).1⟩

theorem exactHit?_eq_some_iff (patterns : List String) (path : String) (hit : Hit) :
    (build patterns).exactHit? path = some hit ↔ FirstExact patterns path hit := by
  rw [exactHit?, List.findSome?_eq_some_iff]
  constructor
  · rintro ⟨l₁, ⟨i, p⟩, l₂, hl, hf, hn⟩
    obtain ⟨text, rfl, hs, rfl⟩ := exactHitAt?_eq_some_iff.mp hf
    obtain ⟨_, hafter⟩ := places_of_split (hl ▸ build_sorted patterns)
    refine ⟨⟨mem_build.mp (by simp [hl]), hs⟩, ?_, rfl⟩
    intro j other hj
    have hm := mem_build.mpr hj.listed
    rw [hl, List.mem_append, List.mem_cons] at hm
    rcases hm with hm | he | hm
    · exact absurd ((hn _ hm).symm.trans (if_pos hj.same)) (by simp)
    · exact (Prod.mk.inj he).1.ge
    · exact (hafter _ hm).le
  · rintro ⟨⟨hl, hs⟩, hfirst, hp⟩
    obtain ⟨l₁, l₂, hsplit⟩ := List.append_of_mem (mem_build.mpr hl)
    obtain ⟨hbefore, _⟩ := places_of_split (hsplit ▸ build_sorted patterns)
    refine ⟨l₁, _, l₂, hsplit, exactHitAt?_eq_some_iff.mpr ⟨_, rfl, hs, ?_⟩, ?_⟩
    · cases hit
      simp_all
    · intro ⟨j, q⟩ hq
      rw [Option.eq_none_iff_forall_ne_some]
      intro other he
      obtain ⟨text, rfl, hsame, _⟩ := exactHitAt?_eq_some_iff.mp he
      have hj : ExactAt patterns path j text := ⟨mem_build.mp (by simp [hsplit, hq]), hsame⟩
      exact absurd (hfirst j text hj) (hbefore _ hq).not_ge

theorem exactHit?_eq_none_iff (patterns : List String) (path : String) :
    (build patterns).exactHit? path = none ↔ ¬ HasExact patterns path := by
  rw [exactHit?, List.findSome?_eq_none_iff]
  constructor
  · rintro h ⟨i, text, he⟩
    exact absurd ((h _ (mem_build.mpr he.listed)).symm.trans (if_pos he.same)) (by simp)
  · rintro h ⟨i, p⟩ hp
    rw [Option.eq_none_iff_forall_ne_some]
    intro hit he
    obtain ⟨text, rfl, hs, _⟩ := exactHitAt?_eq_some_iff.mp he
    exact h ⟨i, text, mem_build.mp hp, hs⟩

theorem candidateAt?_eq_some_iff {priority : Bool} {path : String} {i : Nat} {p : Pattern}
    {c : Candidate} : candidateAt? priority path (i, p) = some c ↔
      ∃ text t start captures, p = .template priority text t ∧
        t.find? path.toList = some (start, captures) ∧ captures.getLast? ≠ some [] ∧
        c = .ofMatch i text t start captures := by
  cases p with
  | exact s => simp [candidateAt?]
  | template b s t =>
    by_cases hb : b = priority
    · subst b
      rw [candidateAt?, if_pos rfl, Candidate.ofTemplate?_eq_some_iff]
      constructor
      · rintro ⟨start, captures, hf, hk, rfl⟩
        exact ⟨s, t, start, captures, rfl, hf, hk, rfl⟩
      · rintro ⟨_, _, start, captures, he, hf, hk, rfl⟩
        cases he
        exact ⟨start, captures, hf, hk, rfl⟩
    · simp [candidateAt?, hb]

theorem mem_candidates {patterns : List String} {priority : Bool} {path : String}
    {c : Candidate} : c ∈ (build patterns).candidates priority path ↔
      ∃ i text t start captures, CandidateAt patterns priority path i text t start captures ∧
        c = .ofMatch i text t start captures := by
  rw [candidates, List.mem_filterMap]
  constructor
  · rintro ⟨⟨i, p⟩, hp, hc⟩
    obtain ⟨text, t, start, captures, rfl, hf, hk, rfl⟩ := candidateAt?_eq_some_iff.mp hc
    exact ⟨i, text, t, start, captures, ⟨mem_build.mp hp, hf, hk⟩, rfl⟩
  · rintro ⟨i, text, t, start, captures, h, rfl⟩
    exact ⟨_, mem_build.mpr h.listed,
      candidateAt?_eq_some_iff.mpr ⟨text, t, start, captures, rfl, h.found, h.kept, rfl⟩⟩

theorem candidates_sorted (patterns : List String) (priority : Bool) (path : String) :
    ((build patterns).candidates priority path).Pairwise (·.index < ·.index) := by
  rw [candidates, List.pairwise_filterMap]
  refine (build_sorted patterns).imp ?_
  rintro ⟨i, p⟩ ⟨j, q⟩ hij c hc d hd
  obtain ⟨_, _, _, _, _, _, _, rfl⟩ := candidateAt?_eq_some_iff.mp hc
  obtain ⟨_, _, _, _, _, _, _, rfl⟩ := candidateAt?_eq_some_iff.mp hd
  exact hij

theorem best?_candidates_eq_some_iff (patterns : List String) (priority : Bool) (path : String)
    (hit : Hit) :
    (Candidate.best? ((build patterns).candidates priority path)).map Candidate.hit = some hit ↔
      BestTemplate patterns priority path hit := by
  have hsorted := candidates_sorted patterns priority path
  rw [Option.map_eq_some_iff]
  constructor
  · rintro ⟨c, hc, rfl⟩
    obtain ⟨hm, hbest⟩ := (Candidate.best?_eq_some_iff hsorted c).mp hc
    obtain ⟨i, text, t, start, captures, h, rfl⟩ := mem_candidates.mp hm
    refine ⟨t, start, captures, h, ?_, Candidate.params_ofMatch h.found i text⟩
    intro j other u begin values hu
    have hb := hbest _ (mem_candidates.mpr ⟨j, other, u, begin, values, hu, rfl⟩)
    rwa [Candidate.key_ofMatch h.found, Candidate.key_ofMatch hu.found] at hb
  · rintro ⟨t, start, captures, h, hbest, hnames, hvalues⟩
    refine ⟨.ofMatch hit.index hit.pattern t start captures, ?_, ?_⟩
    · refine (Candidate.best?_eq_some_iff hsorted _).mpr ⟨mem_candidates.mpr
        ⟨_, _, t, start, captures, h, rfl⟩, fun d hd => ?_⟩
      obtain ⟨j, other, u, begin, values, hu, rfl⟩ := mem_candidates.mp hd
      rw [Candidate.key_ofMatch h.found, Candidate.key_ofMatch hu.found]
      exact hbest j other u begin values hu
    · have hp := Candidate.params_ofMatch h.found hit.index hit.pattern
      have he : (Candidate.ofMatch hit.index hit.pattern t start captures).hit.params =
          hit.params :=
        (List.zip_of_prod (hp.1.trans hnames.symm) (hp.2.trans hvalues.symm)).trans
          (List.zip_of_prod rfl rfl).symm
      exact congrArg (Hit.mk hit.index · hit.pattern) he

theorem best?_candidates_eq_none_iff (patterns : List String) (priority : Bool)
    (path : String) : Candidate.best? ((build patterns).candidates priority path) = none ↔
      ¬ HasCandidate patterns priority path := by
  rw [Candidate.best?_eq_none_iff, List.eq_nil_iff_forall_not_mem]
  constructor
  · rintro h ⟨i, text, t, start, captures, hc⟩
    exact h _ (mem_candidates.mpr ⟨i, text, t, start, captures, hc, rfl⟩)
  · rintro h c hc
    obtain ⟨i, text, t, start, captures, hc, _⟩ := mem_candidates.mp hc
    exact h ⟨i, text, t, start, captures, hc⟩

theorem find?_index_lt {patterns : List String} {path : String} {hit : Hit}
    (h : (build patterns).find? path = some hit) : hit.index < patterns.length := by
  have hlisted : ∀ {i p}, (patterns[i]?).map Pattern.ofText = some p → i < patterns.length :=
    fun hp => by
      obtain ⟨_, hq, _⟩ := Option.map_eq_some_iff.mp hp
      exact (List.getElem?_eq_some_iff.mp hq).1
  have hbest : ∀ priority,
      (Candidate.best? ((build patterns).candidates priority path)).map Candidate.hit = some hit →
        hit.index < patterns.length := fun priority hb => by
    obtain ⟨_, _, _, hc, _⟩ := (best?_candidates_eq_some_iff patterns priority path hit).mp hb
    exact hlisted hc.listed
  unfold find? at h
  cases he : (build patterns).exactHit? path with
  | some first =>
    simp only [he, Option.some.injEq] at h
    subst first
    exact hlisted ((exactHit?_eq_some_iff patterns path hit).mp he).exact.listed
  | none =>
    cases hc : Candidate.best? ((build patterns).candidates true path) with
    | some c =>
      refine hbest true ?_
      rw [hc, Option.map_some]
      simpa only [he, hc] using h
    | none => exact hbest false (by simpa only [he, hc] using h)

/-- The best pattern and nothing else serves a path: an exact one before the templates with
priority, and these before the others. -/
theorem find?_selects (patterns : List String) (path : String) :
    (∀ hit, (build patterns).find? path = some hit ↔
      FirstExact patterns path hit ∨
      ¬ HasExact patterns path ∧ BestTemplate patterns true path hit ∨
      ¬ HasExact patterns path ∧ ¬ HasCandidate patterns true path ∧
        BestTemplate patterns false path hit) ∧
    ((build patterns).find? path = none ↔
      ¬ HasExact patterns path ∧ ¬ HasCandidate patterns true path ∧
        ¬ HasCandidate patterns false path) := by
  have hexact := exactHit?_eq_some_iff patterns path
  have hbest := best?_candidates_eq_some_iff patterns
  have hnone := best?_candidates_eq_none_iff patterns
  cases he : (build patterns).exactHit? path with
  | some first =>
    have hfirst : HasExact patterns path := ⟨_, _, ((hexact first).mp he).exact⟩
    simp only [find?, he, hfirst, not_true_eq_false, false_and, or_false, reduceCtorEq, and_true]
    exact fun hit => by rw [← hexact hit, he]
  | none =>
    have hno := (exactHit?_eq_none_iff patterns path).mp he
    have hnot : ∀ hit, ¬ FirstExact patterns path hit := fun hit h => hno ⟨_, _, h.exact⟩
    cases hc : Candidate.best? ((build patterns).candidates true path) with
    | some c =>
      have hhas : HasCandidate patterns true path := by
        by_contra h
        simp [(hnone true path).mpr h] at hc
      simp only [find?, he, hc, hno, hhas, hnot, not_true_eq_false, not_false_eq_true, false_and,
        true_and, or_false, false_or, reduceCtorEq, and_false, and_true]
      exact fun hit => by rw [← hbest true path hit, hc, Option.map_some]
    | none =>
      have hhas := (hnone true path).mp hc
      have hlow : ∀ hit, ¬ BestTemplate patterns true path hit :=
        fun hit ⟨t, start, captures, h, _⟩ => hhas ⟨_, _, t, start, captures, h⟩
      simp only [find?, he, hc, hno, hhas, hnot, hlow, not_false_eq_true, true_and, and_false,
        false_or, Option.map_eq_none_iff]
      exact ⟨hbest false path, hnone false path⟩

end Matcher

end Gateway
