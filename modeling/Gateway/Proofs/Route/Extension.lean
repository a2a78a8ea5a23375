import Gateway.Proofs.Route.Selection

/-! What a list of patterns finds once one more pattern stands at its end: what it found before, or
the new pattern. -/

namespace Gateway

theorem Candidate.best?_concat (cs : List Candidate) (c : Candidate) :
    best? (cs ++ [c]) = best? cs ∨ best? (cs ++ [c]) = some c := by
  cases cs with
  | nil => exact .inr rfl
  | cons d ds =>
    have hlast : best? (d :: ds ++ [c]) = some ((ds.foldl better d).better c) := by
      simp [best?]
    rw [hlast, better]
    split
    · exact .inr rfl
    · exact .inl rfl

namespace Matcher

theorem build_concat (patterns : List String) (pattern : String) :
    (build (patterns ++ [pattern])).patterns =
      (build patterns).patterns ++ [(patterns.length, Pattern.ofText pattern)] := by
  simp [build, List.zipIdx_append]

variable (patterns : List String) (pattern path : String)

theorem exactHit?_concat :
    (build (patterns ++ [pattern])).exactHit? path = (build patterns).exactHit? path ∨
      ∃ hit, (build (patterns ++ [pattern])).exactHit? path = some hit ∧
        hit.index = patterns.length := by
  have happend : (build (patterns ++ [pattern])).exactHit? path =
      ((build patterns).exactHit? path).or
        (exactHitAt? path (patterns.length, Pattern.ofText pattern)) := by
    simp [exactHit?, build_concat, List.findSome?_append]
  rw [happend]
  cases (build patterns).exactHit? path with
  | some first => exact .inl rfl
  | none =>
    cases hnew : exactHitAt? path (patterns.length, Pattern.ofText pattern) with
    | none => exact .inl rfl
    | some hit =>
      obtain ⟨_, -, -, rfl⟩ := exactHitAt?_eq_some_iff.mp hnew
      exact .inr ⟨_, rfl, rfl⟩

theorem best?_candidates_concat (priority : Bool) :
    Candidate.best? ((build (patterns ++ [pattern])).candidates priority path) =
        Candidate.best? ((build patterns).candidates priority path) ∨
      ∃ c, Candidate.best? ((build (patterns ++ [pattern])).candidates priority path) = some c ∧
        c.index = patterns.length := by
  have happend : (build (patterns ++ [pattern])).candidates priority path =
      (build patterns).candidates priority path ++
        (candidateAt? priority path (patterns.length, Pattern.ofText pattern)).toList := by
    simp only [candidates, build_concat, List.filterMap_append, List.filterMap_cons,
      List.filterMap_nil]
    split <;> simp_all
  rw [happend]
  cases hnew : candidateAt? priority path (patterns.length, Pattern.ofText pattern) with
  | none => exact .inl (by simp)
  | some c =>
    obtain ⟨_, _, _, _, -, -, -, hc⟩ := candidateAt?_eq_some_iff.mp hnew
    rcases Candidate.best?_concat ((build patterns).candidates priority path) c with he | he
    · exact .inl he
    · exact .inr ⟨c, he, congrArg Candidate.index hc⟩

/-- A pattern at the end of a list takes paths for itself only. Every other path is served as
before, by the same pattern with the same parameters or by none. -/
theorem find?_concat :
    (build (patterns ++ [pattern])).find? path = (build patterns).find? path ∨
      ∃ hit, (build (patterns ++ [pattern])).find? path = some hit ∧
        hit.index = patterns.length := by
  have hcandidates := best?_candidates_concat patterns pattern path
  unfold find?
  rcases exactHit?_concat patterns pattern path with he | ⟨hit, he, hi⟩
  · rw [he]
    cases (build patterns).exactHit? path with
    | some first => exact .inl rfl
    | none =>
      rcases hcandidates true with hp | ⟨c, hp, hi⟩
      · simp only [hp]
        cases Candidate.best? ((build patterns).candidates true path) with
        | some c => exact .inl rfl
        | none =>
          rcases hcandidates false with hg | ⟨c, hg, hi⟩
          · exact .inl (by rw [hg])
          · exact .inr ⟨c.hit, by rw [hg]; rfl, hi⟩
      · exact .inr ⟨c.hit, by simp only [hp], hi⟩
  · exact .inr ⟨hit, by rw [he], hi⟩

end Matcher

end Gateway
