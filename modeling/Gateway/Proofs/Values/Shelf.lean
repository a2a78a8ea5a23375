import Gateway.Values.Shelf
import Mathlib.Data.List.Duplicate
import Mathlib.Data.List.NodupEquivFin

/-! What the holders of values see of one another's writes, and when two shelves look the same to
those who hold some of the stores. -/

namespace Gateway.Shelf

/-- Every holder uses a store that exists. -/
def Valid (s : Shelf) : Prop := ∀ h store, s.storeOf? h = some store → store < s.stores.length

theorem valid_empty : Valid {} := by
  rintro (i | i) store h <;> simp [storeOf?] at h

theorem view_of_storeOf? {s t : Shelf} {h k : Holder} (hs : s.storeOf? h = t.storeOf? k)
    (hst : s.stores = t.stores) : s.view h = t.view k := by
  rw [view, view, hs, hst]

theorem storeOf?_handle_length (s : Shelf) : s.storeOf? (.handle s.handles.length) = none := by
  simp [storeOf?]

/-! ### Writing -/

@[simp] theorem storeOf?_modify (s : Shelf) (h k : Holder) (f : Values → Values) :
    (s.modify h f).storeOf? k = s.storeOf? k := by
  unfold modify
  cases s.storeOf? h <;> cases k <;> rfl

@[simp] theorem handles_modify (s : Shelf) (h : Holder) (f : Values → Values) :
    (s.modify h f).handles = s.handles := by
  unfold modify
  cases s.storeOf? h <;> rfl

@[simp] theorem contexts_modify (s : Shelf) (h : Holder) (f : Values → Values) :
    (s.modify h f).contexts = s.contexts := by
  unfold modify
  cases s.storeOf? h <;> rfl

theorem Valid.modify {s : Shelf} (hs : s.Valid) (h : Holder) (f : Values → Values) :
    (s.modify h f).Valid := by
  intro k store hk
  rw [storeOf?_modify] at hk
  unfold Shelf.modify
  cases s.storeOf? h with
  | none => exact hs k store hk
  | some i => simpa using hs k store hk

/-- Those who hold the same store see a write, and nobody else does. -/
theorem view_modify {s : Shelf} (hs : s.Valid) (h k : Holder) (f : Values → Values) :
    (s.modify h f).view k =
      if s.storeOf? h ≠ none ∧ s.storeOf? k = s.storeOf? h then f (s.view k) else s.view k := by
  rw [view, storeOf?_modify]
  unfold modify view
  cases hh : s.storeOf? h with
  | none => simp
  | some i =>
    cases hk : s.storeOf? k with
    | none => simp
    | some j =>
      have hj : j < s.stores.length := hs k j hk
      by_cases hij : j = i
      · subst hij
        simp [hj]
      · have hji : ¬ i = j := fun h => hij h.symm
        simp [hij, hji, List.getElem?_modify]

/-! ### Handles -/

/-- The holder whose store `k` uses when handle `i` has been made to use that of `h`. -/
def Holder.redirect (k : Holder) (i : Nat) (h : Holder) : Holder := if k = .handle i then h else k

theorem storeOf?_share (s : Shelf) (h k : Holder) :
    (s.share h).storeOf? k = s.storeOf? (k.redirect s.handles.length h) := by
  unfold Holder.redirect
  cases k with
  | context j => rfl
  | handle j =>
    by_cases hj : j = s.handles.length
    · subst hj
      simp [share, storeOf?]
    · rw [if_neg (by simpa using hj)]
      simp only [share, storeOf?, List.getElem?_append]
      by_cases hl : j < s.handles.length
      · simp [hl]
      · have hpos : j - s.handles.length ≠ 0 := by omega
        simp [hl, hpos]

theorem storeOf?_drop (s : Shelf) (i : Nat) (k : Holder) :
    (s.drop i).storeOf? k = s.storeOf? (k.redirect i (.handle s.handles.length)) := by
  unfold Holder.redirect
  cases k with
  | context j => rfl
  | handle j =>
    by_cases hj : j = i
    · subst hj
      rw [if_pos rfl, storeOf?_handle_length]
      by_cases hl : j < s.handles.length <;> simp [drop, storeOf?, hl]
    · rw [if_neg (by simpa using hj)]
      have hij : ¬ i = j := fun h => hj h.symm
      simp [drop, storeOf?, hij]

theorem Valid.of_redirect {s t : Shelf} (hs : s.Valid) (r : Holder → Holder)
    (hst : t.stores = s.stores) (hr : ∀ k, t.storeOf? k = s.storeOf? (r k)) : t.Valid := by
  intro k store hk
  rw [hst]
  exact hs (r k) store ((hr k).symm.trans hk)

theorem Valid.share {s : Shelf} (hs : s.Valid) (h : Holder) : (s.share h).Valid :=
  hs.of_redirect _ rfl (storeOf?_share s h)

theorem Valid.drop {s : Shelf} (hs : s.Valid) (i : Nat) : (s.drop i).Valid :=
  hs.of_redirect _ rfl (storeOf?_drop s i)

/-! ### Counting holders -/

variable {s t : Shelf} {k l : Holder} {p store : Nat}

theorem two_le_count_iff {contexts : List Nat} (hp : contexts[p]? = some store) :
    2 ≤ contexts.count store ↔ ∃ j ≠ p, contexts[j]? = some store := by
  obtain ⟨hlt, hget⟩ := List.getElem?_eq_some_iff.mp hp
  rw [← List.duplicate_iff_two_le_count, List.duplicate_iff_exists_distinct_get]
  constructor
  · rintro ⟨i, j, hij, hi, hj⟩
    by_cases hip : i.val = p
    · exact ⟨j, hip ▸ (Nat.ne_of_lt hij).symm, List.getElem?_eq_some_iff.mpr ⟨j.isLt, hj.symm⟩⟩
    · exact ⟨i, hip, List.getElem?_eq_some_iff.mpr ⟨i.isLt, hi.symm⟩⟩
  · rintro ⟨j, hjp, hj⟩
    obtain ⟨hlt', hget'⟩ := List.getElem?_eq_some_iff.mp hj
    rcases Nat.lt_or_gt_of_ne hjp with h | h
    · exact ⟨⟨j, hlt'⟩, ⟨p, hlt⟩, h, hget'.symm, hget.symm⟩
    · exact ⟨⟨p, hlt⟩, ⟨j, hlt'⟩, h, hget.symm, hget'.symm⟩

theorem mem_handles_iff :
    some store ∈ s.handles ↔ ∃ i, s.storeOf? (.handle i) = some store := by
  simp only [List.mem_iff_getElem?, storeOf?, Option.join_eq_some_iff]

theorem one_lt_holders_iff (hp : s.contexts[p]? = some store) :
    1 < s.holders store ↔ ∃ l ≠ .context p, s.storeOf? l = some store := by
  have hown : 0 < s.contexts.count store := List.count_pos_iff.mpr (List.mem_of_getElem? hp)
  have hparts : 1 < s.holders store ↔
      0 < s.handles.count (some store) ∨ 2 ≤ s.contexts.count store := by
    rw [holders, ← List.count_eq_length_filter, ← List.count_eq_length_filter]
    omega
  rw [hparts, List.count_pos_iff, mem_handles_iff, two_le_count_iff hp]
  constructor
  · rintro (⟨i, hi⟩ | ⟨j, hjp, hj⟩)
    · exact ⟨.handle i, nofun, hi⟩
    · exact ⟨.context j, fun h => hjp (Holder.context.inj h), hj⟩
  · rintro ⟨i | j, hne, hl⟩
    · exact .inl ⟨i, hl⟩
    · exact .inr ⟨j, fun h => hne (h ▸ rfl), hl⟩

/-! ### Stores of one's own -/

/-- Holder `k` has an empty store that nobody else knows, and the others see what they saw before. -/
structure Renewed (k : Holder) (s t : Shelf) : Prop where
  valid : t.Valid
  own : t.view k = {}
  others : ∀ l ≠ k, t.storeOf? l = s.storeOf? l
  views : ∀ l ≠ k, t.view l = s.view l
  held : t.storeOf? k ≠ none
  unshared : ∀ l ≠ k, t.storeOf? l ≠ t.storeOf? k

theorem renewed_of_fresh (hs : s.Valid) (hst : t.stores = s.stores ++ [({} : Values)])
    (hk : t.storeOf? k = some s.stores.length) (ho : ∀ l ≠ k, t.storeOf? l = s.storeOf? l) :
    Renewed k s t where
  valid := by
    intro l store hl
    rw [hst, List.length_append, List.length_singleton]
    by_cases hlk : l = k
    · obtain rfl : s.stores.length = store := by simpa [← hlk, hl] using hk.symm
      exact Nat.lt_add_one _
    · exact Nat.lt_succ_of_lt (hs l store ((ho l hlk).symm.trans hl))
  own := by simp [view, hk, hst]
  others := ho
  views := by
    intro l hlk
    rw [view, view, ho l hlk, hst]
    cases hl : s.storeOf? l with
    | none => rfl
    | some store => simp [List.getElem?_append_left (hs l store hl)]
  held := by simp [hk]
  unshared := by
    intro l hlk h
    rw [ho l hlk, hk] at h
    exact Nat.lt_irrefl _ (hs l _ h)

theorem renewed_of_emptied (hs : s.Valid) (hst : t.stores = s.stores.set store {})
    (hk : s.storeOf? k = some store) (ho : ∀ l, t.storeOf? l = s.storeOf? l)
    (hne : ∀ l ≠ k, s.storeOf? l ≠ some store) : Renewed k s t where
  valid := by
    intro l store' hl
    rw [hst, List.length_set]
    exact hs l store' ((ho l).symm.trans hl)
  own := by simp [view, ho, hk, hst, hs k store hk]
  others l _ := ho l
  views := by
    intro l hlk
    rw [view, view, ho l, hst]
    cases hl : s.storeOf? l with
    | none => rfl
    | some store' =>
      have hother : store ≠ store' := by
        rintro rfl
        exact hne l hlk hl
      simp [List.getElem?_set_ne hother]
  held := by simp [ho, hk]
  unshared := by
    intro l hlk
    rw [ho, ho, hk]
    exact hne l hlk

theorem newHandle_renewed (hs : s.Valid) : Renewed (.handle s.handles.length) s s.newHandle := by
  refine renewed_of_fresh hs rfl (by simp [newHandle, storeOf?]) ?_
  rintro (j | j) hj
  · have hj' : j ≠ s.handles.length := fun h => hj (h ▸ rfl)
    by_cases hlt : j < s.handles.length
    · simp [newHandle, storeOf?, List.getElem?_append_left hlt]
    · have hpos : j - s.handles.length ≠ 0 := by omega
      simp [newHandle, storeOf?, List.getElem?_append, hlt, hpos]
  · rfl

theorem newContext_renewed (hs : s.Valid) :
    Renewed (.context s.contexts.length) s s.newContext := by
  refine renewed_of_fresh hs rfl (by simp [newContext, storeOf?]) ?_
  rintro (j | j) hj
  · rfl
  · have hj' : j ≠ s.contexts.length := fun h => hj (h ▸ rfl)
    by_cases hlt : j < s.contexts.length
    · simp [newContext, storeOf?, List.getElem?_append_left hlt]
    · have hpos : j - s.contexts.length ≠ 0 := by omega
      simp [newContext, storeOf?, List.getElem?_append, hlt, hpos]

theorem reset_keeps_iff (hs : s.Valid) (hp : p < s.contexts.length) :
    (s.reset p).storeOf? (.context p) = s.storeOf? (.context p) ↔
      ∀ l ≠ .context p, s.storeOf? l ≠ s.storeOf? (.context p) := by
  have hget : s.contexts[p]? = some s.contexts[p] := List.getElem?_eq_getElem hp
  have hown : s.storeOf? (.context p) = some s.contexts[p] := hget
  rw [hown]
  simp only [reset, hget]
  split
  · next hshared =>
    obtain ⟨l, hne, hl⟩ := (one_lt_holders_iff hget).mp hshared
    have hlt : s.contexts[p] < s.stores.length := hs _ _ hown
    refine iff_of_false ?_ fun h => h l hne hl
    simpa [storeOf?, hp] using hlt.ne'
  · next halone =>
    exact iff_of_true hget fun l hne hl => halone ((one_lt_holders_iff hget).mpr ⟨l, hne, hl⟩)

/-- However a context is reset, it has an empty store of its own afterwards: one that others hold is
left to them, and one that nobody else holds is emptied. -/
theorem reset_renewed (hs : s.Valid) (hp : p < s.contexts.length) :
    Renewed (.context p) s (s.reset p) := by
  have hget : s.contexts[p]? = some s.contexts[p] := List.getElem?_eq_getElem hp
  simp only [reset, hget]
  split
  · refine renewed_of_fresh hs rfl (by simp [storeOf?, hp]) ?_
    rintro (j | j) hj
    · rfl
    · have hpj : p ≠ j := fun h => hj (h ▸ rfl)
      exact List.getElem?_set_ne hpj
  · next halone =>
    exact renewed_of_emptied hs rfl hget (fun _ => rfl) fun l hne hl =>
      halone ((one_lt_holders_iff hget).mpr ⟨l, hne, hl⟩)

/-! ### Contexts -/

/-- The shelf has an empty store for a context that no handle knows, and the handles see what they
saw before. -/
structure CleanedAt (p : Nat) (s t : Shelf) : Prop where
  valid : t.Valid
  handles : t.handles = s.handles
  views : ∀ i, t.view (.handle i) = s.view (.handle i)
  own : t.view (.context p) = {}
  unshared : ∀ i, t.storeOf? (.handle i) ≠ t.storeOf? (.context p)

theorem Renewed.cleanedAt (h : Renewed (.context p) s t) (hh : t.handles = s.handles) :
    CleanedAt p s t where
  valid := h.valid
  handles := hh
  views _ := h.views _ nofun
  own := h.own
  unshared _ := h.unshared _ nofun

@[simp] theorem handles_reset (s : Shelf) (p : Nat) : (s.reset p).handles = s.handles := by
  unfold reset
  cases s.contexts[p]? with
  | none => rfl
  | some store => simp only []; split <;> rfl

@[simp] theorem length_contexts_reset (s : Shelf) (p : Nat) :
    (s.reset p).contexts.length = s.contexts.length := by
  unfold reset
  cases s.contexts[p]? with
  | none => rfl
  | some store => simp only []; split <;> simp

@[simp] theorem length_contexts_newContext (s : Shelf) :
    s.newContext.contexts.length = s.contexts.length + 1 := by simp [newContext]

theorem reset_cleanedAt (hs : s.Valid) (hp : p < s.contexts.length) :
    CleanedAt p s (s.reset p) :=
  (reset_renewed hs hp).cleanedAt (handles_reset s p)

theorem newContext_cleanedAt (hs : s.Valid) :
    CleanedAt s.contexts.length s s.newContext :=
  (newContext_renewed hs).cleanedAt rfl

theorem CleanedAt.trans {p q : Nat} {s t u : Shelf} (h : CleanedAt p s t) (h' : CleanedAt q t u) :
    CleanedAt q s u where
  valid := h'.valid
  handles := h'.handles.trans h.handles
  views i := (h'.views i).trans (h.views i)
  own := h'.own
  unshared := h'.unshared

/-! ### Two shelves -/

/-- The holders that one request knows on two shelves: the same handle on both, and its context,
which may have different places. -/
inductive Paired (p q : Nat) : Holder → Holder → Prop
  | handle (i : Nat) : Paired p q (.handle i) (.handle i)
  | own : Paired p q (.context p) (.context q)

theorem Paired.redirect {p q : Nat} {h h' k k' : Holder} (hh : Paired p q h h')
    (hk : Paired p q k k') (i : Nat) : Paired p q (k.redirect i h) (k'.redirect i h') := by
  unfold Holder.redirect
  cases hk with
  | handle j =>
    split
    · exact hh
    · exact .handle j
  | own => exact .own

/-- Holders that are paired see the same, and two of them share a store on both shelves or on
neither. -/
structure Alike (p q : Nat) (s t : Shelf) : Prop where
  left : s.Valid
  right : t.Valid
  handles : s.handles.length = t.handles.length
  views : ∀ {h k}, Paired p q h k → s.view h = t.view k
  shared : ∀ {h k h' k'}, Paired p q h k → Paired p q h' k' →
    (s.storeOf? h = s.storeOf? h' ↔ t.storeOf? k = t.storeOf? k')

namespace Alike

variable {p q : Nat} {s t : Shelf} {h k : Holder}

theorem storeOf?_eq_none_iff (a : Alike p q s t) (hk : Paired p q h k) :
    s.storeOf? h = none ↔ t.storeOf? k = none := by
  have hs := a.shared hk (.handle s.handles.length)
  rw [storeOf?_handle_length] at hs
  rw [hs, a.handles, storeOf?_handle_length]

theorem modify (a : Alike p q s t) (hk : Paired p q h k) (f : Values → Values) :
    Alike p q (s.modify h f) (t.modify k f) where
  left := a.left.modify h f
  right := a.right.modify k f
  handles := by simpa using a.handles
  views := by
    intro h' k' hk'
    rw [view_modify a.left, view_modify a.right, a.views hk']
    exact if_congr (and_congr (not_congr (a.storeOf?_eq_none_iff hk)) (a.shared hk' hk)) rfl rfl
  shared := by
    intro h' k' h'' k'' hk' hk''
    simpa using a.shared hk' hk''

theorem of_redirect (a : Alike p q s t) {s' t' : Shelf} {r r' : Holder → Holder}
    (hs : s'.stores = s.stores) (ht : t'.stores = t.stores)
    (hr : ∀ k, s'.storeOf? k = s.storeOf? (r k)) (hr' : ∀ k, t'.storeOf? k = t.storeOf? (r' k))
    (hl : s'.handles.length = t'.handles.length)
    (hp : ∀ {h k}, Paired p q h k → Paired p q (r h) (r' k)) : Alike p q s' t' where
  left := a.left.of_redirect r hs hr
  right := a.right.of_redirect r' ht hr'
  handles := hl
  views := by
    intro h k hk
    rw [view_of_storeOf? (hr h) hs, view_of_storeOf? (hr' k) ht]
    exact a.views (hp hk)
  shared := by
    intro h k h' k' hk hk'
    rw [hr, hr, hr', hr']
    exact a.shared (hp hk) (hp hk')

theorem share (a : Alike p q s t) (hk : Paired p q h k) : Alike p q (s.share h) (t.share k) := by
  refine a.of_redirect rfl rfl (storeOf?_share s h) (storeOf?_share t k) ?_ fun hk' => ?_
  · simpa [Shelf.share] using a.handles
  · rw [a.handles]
    exact hk.redirect hk' _

theorem drop (a : Alike p q s t) (i : Nat) : Alike p q (s.drop i) (t.drop i) := by
  refine a.of_redirect rfl rfl (storeOf?_drop s i) (storeOf?_drop t i) ?_ fun hk => ?_
  · simpa [Shelf.drop] using a.handles
  · rw [a.handles]
    exact (Paired.handle _).redirect hk i

end Alike

/-- The handles see the same on both shelves and share stores in the same way. -/
structure SameHandles (s t : Shelf) : Prop where
  handles : s.handles.length = t.handles.length
  views : ∀ i, s.view (.handle i) = t.view (.handle i)
  shared : ∀ i j, s.storeOf? (.handle i) = s.storeOf? (.handle j) ↔
    t.storeOf? (.handle i) = t.storeOf? (.handle j)

theorem SameHandles.refl (s : Shelf) : s.SameHandles s := ⟨rfl, fun _ => rfl, fun _ _ => .rfl⟩

/-- However the context of a request was cleaned, the request finds the same values. -/
theorem CleanedAt.alike {p q : Nat} {s t s' t' : Shelf} (h : CleanedAt p s s')
    (h' : CleanedAt q t t') (hh : s.SameHandles t) : Alike p q s' t' where
  left := h.valid
  right := h'.valid
  handles := by rw [h.handles, h'.handles, hh.handles]
  views := by
    rintro _ _ (i | _)
    · rw [h.views, h'.views, hh.views]
    · rw [h.own, h'.own]
  shared := by
    have hs : ∀ i, s'.storeOf? (.handle i) = s.storeOf? (.handle i) := fun i => by
      simp only [storeOf?, h.handles]
    have ht : ∀ i, t'.storeOf? (.handle i) = t.storeOf? (.handle i) := fun i => by
      simp only [storeOf?, h'.handles]
    rintro _ _ _ _ (i | _) (j | _)
    · rw [hs, hs, ht, ht]
      exact hh.shared i j
    · exact iff_of_false (h.unshared i) (h'.unshared i)
    · exact iff_of_false (h.unshared j).symm (h'.unshared j).symm
    · exact iff_of_true rfl rfl

end Gateway.Shelf
