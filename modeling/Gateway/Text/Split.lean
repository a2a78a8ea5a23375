/-! Cutting character lists at separators, and testing for and dropping their ends. -/

namespace Gateway.Text

/-- The pieces between the occurrences of `sep`; there is always at least one. -/
def pieces (sep : Char) : List Char → List (List Char)
  | [] => [[]]
  | c :: cs =>
    if c = sep then [] :: pieces sep cs
    else match pieces sep cs with
      | [] => [[c]]
      | p :: ps => (c :: p) :: ps

def cut (sep : Char) : List Char → Option (List Char × List Char)
  | [] => none
  | c :: cs =>
    if c = sep then some ([], cs)
    else (cut sep cs).map fun (a, b) => (c :: a, b)

/-- What follows `start` in a text that begins with it. -/
def dropStart? : (start text : List Char) → Option (List Char)
  | [], text => some text
  | _ :: _, [] => none
  | c :: start, d :: text => if c = d then dropStart? start text else none

def trim (p : Char → Bool) (text : List Char) : List Char :=
  ((text.dropWhile p).reverse.dropWhile p).reverse

def occursIn (needle : List Char) : List Char → Bool
  | [] => needle.isEmpty
  | c :: cs => (dropStart? needle (c :: cs)).isSome || occursIn needle cs

/-- The text with every occurrence of two characters next to each other replaced. -/
def replacePair (a b : Char) (put : List Char) : List Char → List Char
  | [] => []
  | [c] => [c]
  | c :: d :: rest =>
    if c = a ∧ d = b then put ++ replacePair a b put rest
    else c :: replacePair a b put (d :: rest)

theorem pieces_ne_nil (sep : Char) (s : List Char) : pieces sep s ≠ [] := by
  cases s with
  | nil => simp [pieces]
  | cons c cs =>
    rw [pieces]
    split
    · simp
    · split <;> simp

theorem mem_pieces {sep : Char} {s p : List Char} (h : p ∈ pieces sep s) :
    p ⊆ s ∧ sep ∉ p := by
  induction s generalizing p with
  | nil =>
    obtain rfl : p = [] := by simpa [pieces] using h
    exact ⟨List.nil_subset _, by simp⟩
  | cons c cs ih =>
    rw [pieces] at h
    split at h
    · rcases List.mem_cons.mp h with rfl | h
      · exact ⟨List.nil_subset _, by simp⟩
      · exact ⟨List.subset_cons_of_subset _ (ih h).1, (ih h).2⟩
    · next hc =>
      cases hcs : pieces sep cs with
      | nil => exact absurd hcs (pieces_ne_nil sep cs)
      | cons q qs =>
        rw [hcs] at h ih
        rcases List.mem_cons.mp h with rfl | h
        · obtain ⟨hsub, hsep⟩ := ih List.mem_cons_self
          exact ⟨List.cons_subset_cons _ hsub, by simp [hsep, Ne.symm hc]⟩
        · obtain ⟨hsub, hsep⟩ := ih (List.mem_cons_of_mem _ h)
          exact ⟨List.subset_cons_of_subset _ hsub, hsep⟩

theorem pieces_of_notMem {sep : Char} {s : List Char} (h : sep ∉ s) : pieces sep s = [s] := by
  induction s with
  | nil => rfl
  | cons c cs ih =>
    obtain ⟨hc, hcs⟩ := not_or.mp (mt List.mem_cons.mpr h)
    rw [pieces, if_neg (Ne.symm hc), ih hcs]

theorem pieces_append (sep : Char) (s t : List Char) :
    pieces sep (s ++ sep :: t) = pieces sep s ++ pieces sep t := by
  induction s with
  | nil => simp [pieces]
  | cons c cs ih =>
    rw [List.cons_append, pieces, pieces, ih]
    split
    · rfl
    · cases hcs : pieces sep cs with
      | nil => exact absurd hcs (pieces_ne_nil sep cs)
      | cons p ps => rfl

/-- A part of a text without separators that has one, or an end of the text, on either side. -/
def Between (sep : Char) (item text : List Char) : Prop :=
  sep ∉ item ∧ ∃ before after, text = before ++ item ++ after ∧
    (before = [] ∨ ∃ s, before = s ++ [sep]) ∧ (after = [] ∨ ∃ s, after = sep :: s)

theorem between_of_mem_pieces {sep : Char} {item text : List Char} (h : item ∈ pieces sep text) :
    Between sep item text := by
  by_cases hsep : sep ∈ text
  · obtain ⟨first, rest, rfl, hfirst⟩ := List.eq_append_cons_of_mem hsep
    rw [pieces_append, pieces_of_notMem hfirst] at h
    rcases List.mem_cons.mp h with rfl | h
    · exact ⟨hfirst, [], sep :: rest, by simp, .inl rfl, .inr ⟨rest, rfl⟩⟩
    · obtain ⟨hitem, before, after, rfl, hbefore, hafter⟩ := between_of_mem_pieces h
      refine ⟨hitem, first ++ sep :: before, after, by simp, .inr ?_, hafter⟩
      rcases hbefore with rfl | ⟨s, rfl⟩
      · exact ⟨first, rfl⟩
      · exact ⟨first ++ sep :: s, by simp⟩
  · rw [pieces_of_notMem hsep] at h
    obtain rfl := List.mem_singleton.mp h
    exact ⟨hsep, [], [], by simp, .inl rfl, .inl rfl⟩
termination_by text.length

theorem mem_pieces_iff {sep : Char} {item text : List Char} :
    item ∈ pieces sep text ↔ Between sep item text := by
  refine ⟨between_of_mem_pieces, ?_⟩
  rintro ⟨hitem, before, after, rfl, hbefore, hafter⟩
  have hself : item ∈ pieces sep item := by
    rw [pieces_of_notMem hitem]
    exact List.mem_singleton_self item
  have hrest : item ∈ pieces sep (item ++ after) := by
    rcases hafter with rfl | ⟨s, rfl⟩
    · rwa [List.append_nil]
    · rw [pieces_append]
      exact List.mem_append_left _ hself
  rcases hbefore with rfl | ⟨s, rfl⟩
  · exact hrest
  · rw [List.append_assoc, List.append_assoc, List.singleton_append, pieces_append]
    exact List.mem_append_right _ hrest

theorem mem_intercalate {sep : List Char} {parts : List (List Char)} {c : Char}
    (h : c ∈ sep.intercalate parts) : c ∈ sep ∨ ∃ p ∈ parts, c ∈ p := by
  induction parts with
  | nil => simp [List.intercalate] at h
  | cons p parts ih =>
    cases parts with
    | nil => exact .inr ⟨p, by simp, by simpa [List.intercalate] using h⟩
    | cons q qs =>
      simp only [List.intercalate, List.intersperse_cons_cons, List.flatten_cons,
        List.mem_append] at h
      rcases h with h | h | h
      · exact .inr ⟨p, by simp, h⟩
      · exact .inl h
      · exact (ih h).imp_right fun ⟨r, hr, hc⟩ => ⟨r, List.mem_cons_of_mem _ hr, hc⟩

theorem trim_subset (p : Char → Bool) (text : List Char) : trim p text ⊆ text := fun _ hc =>
  List.dropWhile_subset p (List.mem_reverse.mp
    (List.dropWhile_subset p (List.mem_reverse.mp hc)))

theorem suffix_tail {c d : Char} {s t : List Char} (h : c :: s <:+ d :: t) : s <:+ t := by
  refine List.suffix_of_suffix_length_le ((List.suffix_cons c s).trans h) (List.suffix_cons d t) ?_
  simpa using h.length_le

theorem takeWhile_append {p : Char → Bool} {run rest : List Char} (hrun : ∀ c ∈ run, p c = true)
    (hrest : ∀ c ∈ rest.head?, p c = false) : (run ++ rest).takeWhile p = run := by
  rw [List.takeWhile_append_of_pos hrun]
  cases rest with
  | nil => simp
  | cons c rest => simp [hrest c rfl]

theorem dropWhile_append {p : Char → Bool} {run rest : List Char} (hrun : ∀ c ∈ run, p c = true)
    (hrest : ∀ c ∈ rest.head?, p c = false) : (run ++ rest).dropWhile p = rest := by
  rw [List.dropWhile_append_of_pos hrun]
  cases rest with
  | nil => rfl
  | cons c rest => simp [hrest c rfl]

theorem trim_eq_self {p : Char → Bool} {text : List Char} (h : ∀ c ∈ text, p c = false) :
    trim p text = text := by
  have hdrop : ∀ s ⊆ text, ([] ++ s).dropWhile p = s := fun s hs =>
    dropWhile_append (by simp) fun c hc => h c (hs (List.mem_of_mem_head? hc))
  simp only [List.nil_append] at hdrop
  rw [trim, hdrop text (List.Subset.refl _), hdrop _ (by simp), List.reverse_reverse]

theorem head?_dropWhile (p : Char → Bool) (text : List Char) :
    ∀ c ∈ (text.dropWhile p).head?, p c = false := by
  intro c hc
  have hfirst := List.head?_dropWhile_not p text
  rw [Option.mem_def.mp hc] at hfirst
  exact hfirst

theorem takeWhile_eq_nil_iff {p : Char → Bool} {text : List Char} :
    text.takeWhile p = [] ↔ ∀ c ∈ text.head?, p c = false := by
  cases text with
  | nil => simp
  | cons c text => by_cases hc : p c = true <;> simp [hc]

end Gateway.Text
