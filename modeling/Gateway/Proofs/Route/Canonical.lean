import Gateway.Route.Path
import Mathlib.Data.List.Induction
import Mathlib.Logic.Function.Basic

/-! Canonical paths: what their segments are, which paths are made canonical to what, and that a
path is left as it is exactly when it is canonical. -/

namespace Gateway

namespace Text

theorem pieces_eq_splitOn (sep : Char) (s : List Char) : pieces sep s = s.splitOn sep := by
  unfold List.splitOn
  induction s with
  | nil => rfl
  | cons c s ih =>
    rw [pieces, List.splitOnP_cons_eq_if_modifyHead, ← ih]
    by_cases hc : c = sep
    · simp [hc]
    · cases hs : pieces sep s with
      | nil => exact absurd hs (pieces_ne_nil sep s)
      | cons p ps => simp [hc]

theorem intercalate_pieces (sep : Char) (s : List Char) : [sep].intercalate (pieces sep s) = s := by
  rw [pieces_eq_splitOn, List.intercalate_splitOn]

theorem pieces_injective (sep : Char) : Function.Injective (pieces sep) :=
  Function.LeftInverse.injective (intercalate_pieces sep)

theorem pieces_intercalate {sep : Char} {parts : List (List Char)} (h : ∀ p ∈ parts, sep ∉ p)
    (hne : parts ≠ []) : pieces sep ([sep].intercalate parts) = parts := by
  rw [pieces_eq_splitOn, List.splitOn_intercalate sep h hne]

end Text

namespace Path

open Text

def Proper (s : List Char) : Prop := s ≠ [] ∧ s ≠ ['.'] ∧ s ≠ ['.', '.']

/-- The texts behind the slashes of a path, without the empty one behind a slash at its end. -/
def segments (path : List Char) : List (List Char) :=
  let parts := (pieces '/' path).tail
  if parts.getLast? = some [] then parts.dropLast else parts

/-- An absolute path whose segments are all steps down. -/
structure Canonical (path : List Char) : Prop where
  rooted : path.head? = some '/'
  proper : ∀ s ∈ segments path, Proper s

/-- The segments that are kept when a path is walked from left to right. -/
inductive Resolves : List (List Char) → List (List Char) → Prop
  | start : Resolves [] []
  | stay {walked kept : List (List Char)} (s : List Char) (h : Resolves walked kept)
      (same : s = [] ∨ s = ['.']) : Resolves (walked ++ [s]) kept
  | down {walked kept : List (List Char)} (s : List Char) (h : Resolves walked kept)
      (proper : Proper s) : Resolves (walked ++ [s]) (kept ++ [s])
  | up {walked kept : List (List Char)} (last : List Char) (h : Resolves walked (kept ++ [last])) :
      Resolves (walked ++ [['.', '.']]) kept
  | top {walked : List (List Char)} (h : Resolves walked []) :
      Resolves (walked ++ [['.', '.']]) []

/-! ### Walking the segments -/

/-- The kept segments, the last one first, after one more step. -/
def walk (kept : List (List Char)) (s : List Char) : List (List Char) :=
  if s = [] ∨ s = ['.'] then kept
  else if s = ['.', '.'] then kept.tail
  else s :: kept

theorem resolve_append (walked more : List (List Char)) :
    resolve (walked ++ more) = more.foldl walk (resolve walked) := List.foldl_append

theorem resolve_concat (segs : List (List Char)) (s : List Char) :
    resolve (segs ++ [s]) = walk (resolve segs) s := resolve_append segs [s]

theorem walk_of_stay (kept : List (List Char)) {s : List Char} (h : s = [] ∨ s = ['.']) :
    walk kept s = kept := if_pos h

theorem walk_up (kept : List (List Char)) : walk kept ['.', '.'] = kept.tail := rfl

theorem walk_of_proper (kept : List (List Char)) {s : List Char} (h : Proper s) :
    walk kept s = s :: kept := by
  rw [walk, if_neg (not_or.mpr ⟨h.1, h.2.1⟩), if_neg h.2.2]

theorem segment_cases (s : List Char) :
    (s = [] ∨ s = ['.']) ∨ s = ['.', '.'] ∨ Proper s := by
  unfold Proper
  tauto

theorem proper_of_mem_resolve {segs : List (List Char)} : ∀ s ∈ resolve segs, Proper s := by
  induction segs using List.reverseRecOn with
  | nil => simp [resolve]
  | append_singleton segs t ih =>
    rw [resolve_concat]
    rcases segment_cases t with hstay | rfl | hproper
    · rwa [walk_of_stay _ hstay]
    · exact fun s hs => ih s (List.mem_of_mem_tail hs)
    · rw [walk_of_proper _ hproper]
      exact List.forall_mem_cons.mpr ⟨hproper, ih⟩

theorem resolve_subset (segs : List (List Char)) : resolve segs ⊆ segs := by
  induction segs using List.reverseRecOn with
  | nil => exact List.Subset.refl _
  | append_singleton segs t ih =>
    have hold : resolve segs ⊆ segs ++ [t] := List.subset_append_of_subset_left _ ih
    rw [resolve_concat]
    rcases segment_cases t with hstay | rfl | hproper
    · rwa [walk_of_stay _ hstay]
    · exact List.Subset.trans (List.tail_sublist _).subset hold
    · rw [walk_of_proper _ hproper]
      exact List.cons_subset.mpr ⟨by simp, hold⟩

theorem foldl_walk_of_proper {segs : List (List Char)} (kept : List (List Char))
    (h : ∀ s ∈ segs, Proper s) : segs.foldl walk kept = segs.reverse ++ kept := by
  induction segs generalizing kept with
  | nil => rfl
  | cons s segs ih =>
    obtain ⟨hs, hsegs⟩ := List.forall_mem_cons.mp h
    rw [List.foldl_cons, walk_of_proper kept hs, ih _ hsegs, List.reverse_cons, List.append_assoc]
    rfl

theorem resolves_resolve (segs : List (List Char)) : Resolves segs (resolve segs).reverse := by
  induction segs using List.reverseRecOn with
  | nil => exact .start
  | append_singleton segs s ih =>
    rw [resolve_concat]
    rcases segment_cases s with hstay | rfl | hproper
    · rw [walk_of_stay _ hstay]
      exact .stay s ih hstay
    · rw [walk_up]
      cases hr : resolve segs with
      | nil =>
        rw [hr] at ih
        exact .top ih
      | cons last kept =>
        rw [hr, List.reverse_cons] at ih
        exact .up last ih
    · rw [walk_of_proper _ hproper, List.reverse_cons]
      exact .down s ih hproper

theorem Resolves.eq_resolve {segs kept : List (List Char)} (h : Resolves segs kept) :
    resolve segs = kept.reverse := by
  induction h with
  | start => rfl
  | stay s _ same ih => rw [resolve_concat, walk_of_stay _ same, ih]
  | down s _ proper ih => rw [resolve_concat, walk_of_proper _ proper, ih, List.reverse_concat]
  | up last _ ih => rw [resolve_concat, walk_up, ih, List.reverse_concat, List.tail_cons]
  | top _ ih => rw [resolve_concat, walk_up, ih, List.reverse_nil, List.tail_nil]

theorem resolves_iff {segs kept : List (List Char)} :
    Resolves segs kept ↔ kept = (resolve segs).reverse := by
  constructor
  · intro h
    rw [h.eq_resolve, List.reverse_reverse]
  · rintro rfl
    exact resolves_resolve segs

/-! ### What is written -/

theorem pieces_concat_slash (path : List Char) :
    pieces '/' (path ++ ['/']) = pieces '/' path ++ [[]] := pieces_append '/' path []

theorem pieces_render {segs : List (List Char)} (h : ∀ s ∈ segs, '/' ∉ s) (hne : segs ≠ []) :
    pieces '/' (render segs) = [] :: segs := by
  rw [render, pieces, if_pos rfl, pieces_intercalate h hne]

theorem endsWithSlash_iff (path : List Char) :
    endsWithSlash path = true ↔ (pieces '/' path).tail.getLast? = some [] := by
  rw [endsWithSlash, beq_iff_eq, List.getLast?_eq_some_iff, List.getLast?_eq_some_iff]
  constructor
  · rintro ⟨front, rfl⟩
    exact ⟨(pieces '/' front).tail, by
      rw [pieces_concat_slash, List.tail_append_of_ne_nil (pieces_ne_nil _ _)]⟩
  · rintro ⟨parts, htail⟩
    obtain ⟨first, rest, hpieces⟩ := List.exists_cons_of_ne_nil (pieces_ne_nil '/' path)
    rw [hpieces, List.tail_cons] at htail
    rw [htail] at hpieces
    have hfree : ∀ p ∈ first :: parts, '/' ∉ p := fun p hp => (mem_pieces (s := path) (by
      rw [hpieces, ← List.cons_append]
      exact List.mem_append_left _ hp)).2
    refine ⟨['/'].intercalate (first :: parts), pieces_injective '/' ?_⟩
    rw [pieces_concat_slash, pieces_intercalate hfree (by simp), hpieces, List.cons_append]

/-- What stands behind the last slash of a path, when that is not a segment. -/
def ending (slash : Bool) : List (List Char) := if slash then [[]] else []

theorem eq_nil_of_mem_ending {slash : Bool} {s : List Char} (h : s ∈ ending slash) : s = [] := by
  cases slash with
  | true => exact List.mem_singleton.mp h
  | false => cases h

def kept (path : List Char) : List (List Char) := (resolve (pieces '/' path)).reverse

theorem proper_of_mem_kept {path : List Char} : ∀ s ∈ kept path, Proper s := fun s hs =>
  proper_of_mem_resolve s (List.mem_reverse.mp hs)

theorem one_lt_length_render {segs : List (List Char)} (h : ∀ s ∈ segs, '/' ∉ s)
    (hproper : ∀ s ∈ segs, Proper s) : 1 < (render segs).length ↔ segs ≠ [] := by
  constructor
  · rintro hlt rfl
    exact Nat.lt_irrefl _ hlt
  · intro hne
    have hsome : ['/'].intercalate segs ≠ [] := by
      intro hnil
      have hpieces := pieces_intercalate h hne
      rw [hnil] at hpieces
      exact (hproper [] (hpieces ▸ List.mem_singleton_self _)).1 rfl
    simpa [render] using List.length_pos_iff.mpr hsome

theorem pieces_cleanChars (path : List Char) :
    pieces '/' (cleanChars path) =
      [] :: kept path ++ ending ((kept path).isEmpty || endsWithSlash path) := by
  have hfree : ∀ s ∈ kept path, '/' ∉ s := fun s hs =>
    (mem_pieces (resolve_subset _ (List.mem_reverse.mp hs))).2
  have hlength := one_lt_length_render hfree proper_of_mem_kept
  rw [show cleanChars path = if endsWithSlash path && 1 < (render (kept path)).length
    then render (kept path) ++ ['/'] else render (kept path) from rfl]
  by_cases hne : kept path = []
  · simp [hne, render, ending, pieces, List.intercalate]
  · have hpieces := pieces_render hfree hne
    have hlt := hlength.mpr hne
    cases hend : endsWithSlash path with
    | true => simp [hlt, ending, pieces_concat_slash, hpieces]
    | false => simp [hne, ending, hpieces]

theorem mem_pieces_cleanChars {path s : List Char} (h : s ∈ pieces '/' (cleanChars path)) :
    s = [] ∨ s ∈ kept path := by
  rw [pieces_cleanChars, List.cons_append, List.mem_cons, List.mem_append] at h
  rcases h with h | h | h
  · exact .inl h
  · exact .inr h
  · exact .inl (eq_nil_of_mem_ending h)

theorem mem_clean {path : String} {c : Char} (h : c ∈ (clean path).toList) :
    c = '/' ∨ c ∈ path.toList := by
  rw [clean, String.toList_ofList, ← intercalate_pieces '/' (cleanChars _)] at h
  rcases mem_intercalate h with h | ⟨s, hs, hc⟩
  · exact .inl (List.mem_singleton.mp h)
  · rcases mem_pieces_cleanChars hs with rfl | hs
    · cases hc
    · exact .inr ((mem_pieces (resolve_subset _ (List.mem_reverse.mp hs))).1 hc)

/-! ### Canonical form -/

theorem getLast?_kept_ne (path : List Char) : (kept path).getLast? ≠ some [] := fun h =>
  (proper_of_mem_kept [] (List.mem_of_getLast? h)).1 rfl

theorem getLast?_kept_append_ending (path : List Char) (slash : Bool) :
    (kept path ++ ending slash).getLast? = some [] ↔ slash = true := by
  cases slash with
  | true => simp [ending]
  | false => simp [ending, getLast?_kept_ne path]

theorem segments_cleanChars (path : List Char) : segments (cleanChars path) = kept path := by
  rw [segments, pieces_cleanChars]
  simp only [List.cons_append, List.tail_cons, getLast?_kept_append_ending]
  cases (kept path).isEmpty || endsWithSlash path <;> simp [ending]

theorem head?_cleanChars (path : List Char) : (cleanChars path).head? = some '/' := by
  unfold cleanChars
  simp only []
  split <;> rfl

theorem canonical_cleanChars (path : List Char) : Canonical (cleanChars path) where
  rooted := head?_cleanChars path
  proper := by
    rw [segments_cleanChars]
    exact proper_of_mem_kept

theorem endsWithSlash_cleanChars (path : List Char) :
    endsWithSlash (cleanChars path) = ((kept path).isEmpty || endsWithSlash path) := by
  rw [Bool.eq_iff_iff, endsWithSlash_iff, pieces_cleanChars]
  exact getLast?_kept_append_ending path _

theorem resolve_of_proper {segs : List (List Char)} (h : ∀ s ∈ segs, Proper s) (slash : Bool) :
    resolve ([] :: segs ++ ending slash) = segs.reverse := by
  have hending : (ending slash).foldl walk (resolve ([] :: segs)) = resolve ([] :: segs) := by
    cases slash <;> rfl
  rw [resolve_append, hending]
  exact (foldl_walk_of_proper (walk [] []) h).trans (List.append_nil _)

theorem kept_cleanChars (path : List Char) : kept (cleanChars path) = kept path := by
  rw [kept, pieces_cleanChars, resolve_of_proper proper_of_mem_kept, List.reverse_reverse]

theorem pieces_of_rooted {path : List Char} (h : path.head? = some '/') :
    pieces '/' path =
      [] :: segments path ++ ending ((segments path).isEmpty || endsWithSlash path) := by
  obtain ⟨rest, rfl⟩ := List.head?_eq_some_iff.mp h
  have hpieces : pieces '/' ('/' :: rest) = [] :: pieces '/' rest := by rw [pieces, if_pos rfl]
  have hends := endsWithSlash_iff ('/' :: rest)
  rw [segments, hpieces]
  rw [hpieces] at hends
  simp only [List.tail_cons] at hends ⊢
  by_cases hlast : (pieces '/' rest).getLast? = some []
  · obtain ⟨front, hfront⟩ := List.getLast?_eq_some_iff.mp hlast
    simp [hends.mpr hlast, hfront, ending]
  · have hno : endsWithSlash ('/' :: rest) = false := Bool.eq_false_iff.mpr (mt hends.mp hlast)
    simp [hlast, hno, ending, pieces_ne_nil]

theorem Canonical.kept_eq {path : List Char} (h : Canonical path) : kept path = segments path := by
  rw [kept, pieces_of_rooted h.rooted, resolve_of_proper h.proper, List.reverse_reverse]

theorem Canonical.cleanChars_eq {path : List Char} (h : Canonical path) :
    cleanChars path = path := by
  apply pieces_injective '/'
  rw [pieces_cleanChars, h.kept_eq, ← pieces_of_rooted h.rooted]

theorem clean_eq_iff {path : String} : clean path = path ↔ Canonical path.toList := by
  rw [clean, ← String.toList_inj, String.toList_ofList]
  constructor
  · intro h
    exact h ▸ canonical_cleanChars path.toList
  · exact Canonical.cleanChars_eq

theorem cleanChars_eq_root_iff {path : List Char} : cleanChars path = ['/'] ↔ kept path = [] := by
  constructor
  · intro h
    rw [← segments_cleanChars, h]
    rfl
  · intro h
    apply pieces_injective '/'
    rw [pieces_cleanChars, h]
    rfl

theorem endsWithSlash_cleanChars_iff (path : List Char) :
    endsWithSlash (cleanChars path) = true ↔
      cleanChars path = ['/'] ∨ endsWithSlash path = true := by
  rw [endsWithSlash_cleanChars, Bool.or_eq_true, List.isEmpty_iff, cleanChars_eq_root_iff]

/-- A clean path is canonical. Its segments are those that are left when the segments of the path
are walked from left to right, and it ends with a slash if it is the root or the path ends with one.
Cleaning it again does nothing, and it is the canonical paths that cleaning leaves as they are. -/
theorem clean_canonical (path : String) :
    Canonical (clean path).toList ∧
    (∀ steps, Resolves (pieces '/' path.toList) steps ↔ steps = segments (clean path).toList) ∧
    ((clean path).toList.getLast? = some '/' ↔
      clean path = "/" ∨ path.toList.getLast? = some '/') ∧
    clean (clean path) = clean path ∧
    ∀ other, clean other = other ↔ Canonical other.toList := by
  have hchars : (clean path).toList = cleanChars path.toList := String.toList_ofList
  have hcanonical : Canonical (clean path).toList := hchars ▸ canonical_cleanChars _
  refine ⟨hcanonical, fun steps => ?_, ?_, clean_eq_iff.mpr hcanonical, fun other => clean_eq_iff⟩
  · rw [hchars, segments_cleanChars, kept, resolves_iff]
  · have hends := endsWithSlash_cleanChars_iff path.toList
    rw [endsWithSlash, endsWithSlash, beq_iff_eq, beq_iff_eq] at hends
    rwa [← String.toList_inj, hchars]

end Path

end Gateway
