import Gateway.Proofs.Route.Canonical

/-! Patterns below a base: which of them are clean paths behind a marker and a caret, and that a base
which was joined itself can be written out instead. -/

namespace Gateway.Path

open Text

/-! ### Clean paths below clean paths -/

theorem endsWithSlash_append (front : List Char) {back : List Char} (h : back ≠ []) :
    endsWithSlash (front ++ back) = endsWithSlash back := by
  rw [endsWithSlash, endsWithSlash, List.getLast?_append, List.getLast?_eq_some_getLast h,
    Option.some_or]

theorem cleanChars_append (front back : List Char) :
    cleanChars (cleanChars front ++ '/' :: back) = cleanChars (front ++ '/' :: back) := by
  have hkept : kept (cleanChars front ++ '/' :: back) = kept (front ++ '/' :: back) := by
    have hfront : resolve (pieces '/' (cleanChars front)) = resolve (pieces '/' front) :=
      List.reverse_inj.mp (kept_cleanChars front)
    rw [kept, kept, pieces_append, pieces_append, resolve_append, resolve_append, hfront]
  apply pieces_injective '/'
  rw [pieces_cleanChars, pieces_cleanChars, hkept, endsWithSlash_append _ (List.cons_ne_nil _ _),
    endsWithSlash_append _ (List.cons_ne_nil _ _)]

theorem clean_append (front back : String) :
    clean (clean front ++ "/" ++ back) = clean (front ++ "/" ++ back) := by
  simp only [clean, String.toList_append, String.toList_ofList, List.append_assoc]
  exact congrArg String.ofList (cleanChars_append front.toList back.toList)

/-! ### Markers and carets -/

def Unmarked (path : String) : Prop :=
  ∀ marker ∈ [Pattern.exactMarker, Pattern.priorityMarker], ¬ marker.toList <+: path.toList

instance (path : String) : Decidable (Unmarked path) :=
  inferInstanceAs (Decidable (∀ marker ∈ [Pattern.exactMarker, Pattern.priorityMarker], _))

/-- A path below a base, with neither a marker nor a caret in front. -/
structure Plain (path : String) : Prop where
  nonempty : path ≠ ""
  unmarked : Unmarked path
  uncareted : path.toList.head? ≠ some '^'

instance (path : String) : Decidable (Plain path) :=
  decidable_of_iff (path ≠ "" ∧ Unmarked path ∧ path.toList.head? ≠ some '^')
    ⟨fun ⟨hne, hmarker, hcaret⟩ => ⟨hne, hmarker, hcaret⟩,
      fun h => ⟨h.nonempty, h.unmarked, h.uncareted⟩⟩

theorem splitMarker_of_unmarked {path : String} (h : Unmarked path) :
    Pattern.splitMarker path.toList = ("", path.toList) := by
  simp only [Unmarked, List.forall_mem_cons] at h
  obtain ⟨hexact, hpriority, -⟩ := h
  unfold Pattern.splitMarker
  split
  · next rest he => exact absurd ⟨rest, he.symm⟩ hexact
  · next rest he => exact absurd ⟨rest, he.symm⟩ hpriority
  · rfl

theorem splitMarker_marker {marker : String} (h : marker ∈ ["", "= ", "~ "]) {path : String}
    (unmarked : Unmarked path) :
    Pattern.splitMarker (marker ++ path).toList = (marker, path.toList) := by
  simp only [List.mem_cons, List.not_mem_nil, or_false] at h
  rcases h with rfl | rfl | rfl
  · rw [String.empty_append, splitMarker_of_unmarked unmarked]
  · rw [String.toList_append]
    rfl
  · rw [String.toList_append]
    rfl

theorem slash_stays (base rest : List Char) :
    (endsWithSlash rest && !endsWithSlash (cleanChars (base ++ '/' :: rest))) = false := by
  cases hrest : endsWithSlash rest with
  | false => rfl
  | true =>
    have hne : rest ≠ [] := by
      rintro rfl
      cases hrest
    have hends : endsWithSlash (base ++ '/' :: rest) = true := by
      rw [List.append_cons, endsWithSlash_append _ hne, hrest]
    rw [(endsWithSlash_cleanChars_iff _).mpr (.inr hends)]
    rfl

theorem clean_below (base : String) (rest : List Char) :
    String.ofList (cleanChars (base.toList ++ '/' :: rest)) =
      clean (base ++ "/" ++ String.ofList rest) := by
  simp [clean, String.toList_append]

theorem join_caret {base relative marker : String} {rest : List Char}
    (h : Pattern.splitMarker relative.toList = (marker, '^' :: rest)) :
    join base relative = marker ++ "^" ++ clean (base ++ "/" ++ String.ofList rest) := by
  simp [join, h, slash_stays, clean_below]

theorem join_uncareted {base relative marker : String} {rest : List Char}
    (h : Pattern.splitMarker relative.toList = (marker, rest)) (hne : rest ≠ [])
    (uncareted : rest.head? ≠ some '^') :
    join base relative = marker ++ clean (base ++ "/" ++ String.ofList rest) := by
  have hempty : rest.isEmpty = false := List.isEmpty_eq_false_iff.mpr hne
  simp only [join, h, hempty, Bool.false_eq_true, if_false]
  split
  · simp at uncareted
  · simp [slash_stays, clean_below]

theorem unmarked_caret (rest : String) : Unmarked ("^" ++ rest) := by
  simp [Unmarked, Pattern.exactMarker, Pattern.priorityMarker, String.toList_append]

namespace Plain

variable {path : String}

theorem toList_ne_nil (h : Plain path) : path.toList ≠ [] :=
  fun he => h.nonempty (String.toList_eq_nil_iff.mp he)

theorem join_eq (h : Plain path) (base : String) : join base path = clean (base ++ "/" ++ path) := by
  rw [join_uncareted (splitMarker_of_unmarked h.unmarked) h.toList_ne_nil h.uncareted,
    String.ofList_toList, String.empty_append]

theorem join_marked (h : Plain path) {marker caret : String} (hmarker : marker ∈ ["", "= ", "~ "])
    (hcaret : caret ∈ ["", "^"]) (base : String) :
    join base (marker ++ caret ++ path) = marker ++ caret ++ join base path := by
  rw [h.join_eq]
  simp only [List.mem_cons, List.not_mem_nil, or_false] at hcaret
  rcases hcaret with rfl | rfl
  · rw [String.append_empty, join_uncareted (splitMarker_marker hmarker h.unmarked) h.toList_ne_nil
      h.uncareted, String.ofList_toList]
  · have hsplit : Pattern.splitMarker (marker ++ ("^" ++ path)).toList =
        (marker, '^' :: path.toList) := by
      rw [splitMarker_marker hmarker (unmarked_caret path), String.toList_append]
      rfl
    rw [String.append_assoc, join_caret hsplit, String.ofList_toList]

theorem append (h : Plain path) (back : String) : Plain (path ++ "/" ++ back) := by
  obtain ⟨c, cs, hpath⟩ := List.exists_cons_of_ne_nil h.toList_ne_nil
  have hchars : (path ++ "/" ++ back).toList = c :: cs ++ '/' :: back.toList := by
    simp [String.toList_append, hpath]
  have hnew : (path ++ "/" ++ back).toList.head? = path.toList.head? := by rw [hchars, hpath]; rfl
  refine ⟨fun he => ?_, ?_, hnew ▸ h.uncareted⟩
  · rw [he] at hchars
    cases hchars
  · -- a marker ends with a blank, so it does not reach into what was added
    have hunmarked := h.unmarked
    simp only [Unmarked, hpath, hchars] at hunmarked ⊢
    cases cs with
    | nil => simp [Pattern.exactMarker, Pattern.priorityMarker]
    | cons d ds =>
      simpa [Pattern.exactMarker, Pattern.priorityMarker] using hunmarked

end Plain

theorem join_join {p q : String} (hp : Plain p) (hq : Plain q) (base : String) :
    join (join base p) q = join base (p ++ "/" ++ q) := by
  rw [hq.join_eq, hp.join_eq, (hp.append q).join_eq, clean_append]
  simp only [String.append_assoc]

end Gateway.Path
