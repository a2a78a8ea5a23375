import Gateway.Proofs.Values.Shelf
import Gateway.Proofs.Values.Store
import Mathlib.Data.List.Induction

/-! What the holders of values see after anything was done through any of them: what was changed in
the store of the holder since it was made, by all who used that store. Who they are is read off the
history alone, and there every reset gives the context a new store: how many hold the old one at that
moment makes no difference that a holder sees. -/

namespace Gateway.Shelf

/-- What is done through the holders of values, which are named by the order in which they were
made. -/
inductive Op where
  | newHandle
  | newContext
  | share (h : Holder)
  | drop (i : Nat)
  | set (h : Holder) (name : String) (value : Stored)
  | remove (h : Holder) (name : String)
  | get (h : Holder) (kind : Stored.Kind) (name : String)
  | contains (h : Holder) (name : String)
  | reset (i : Nat)

inductive Answer where
  | done
  | told (yes : Bool)
  | found (value : Option Stored)

def apply (s : Shelf) : Op → Shelf × Answer
  | .newHandle => (s.newHandle, .done)
  | .newContext => (s.newContext, .done)
  | .share h => (s.share h, .done)
  | .drop i => (s.drop i, .done)
  | .set h name value => (s.set h name value, .done)
  | .remove h name => ((s.remove h name).1, .told (s.remove h name).2)
  | .get h kind name => (s, .found (s.getOf? h kind name))
  | .contains h name => (s, .told (s.contains h name))
  | .reset i => (s.reset i, .done)

/-- The shelf after all that was done in the past, the latest first. -/
def run : List Op → Shelf
  | [] => {}
  | op :: past => ((run past).apply op).1

/-! ### The history of a store -/

/-- The holder through which something is done. -/
def Op.through? : Op → Option Holder
  | .newHandle | .newContext => none
  | .share h | .set h _ _ | .remove h _ | .get h _ _ | .contains h _ => some h
  | .drop i => some (.handle i)
  | .reset i => some (.context i)

def handlesMade : List Op → Nat
  | [] => 0
  | .newHandle :: past | .share _ :: past => handlesMade past + 1
  | _ :: past => handlesMade past

def contextsMade : List Op → Nat
  | [] => 0
  | .newContext :: past => contextsMade past + 1
  | _ :: past => contextsMade past

/-- How much had been done when the store that a holder uses was made, with a new handle or context
or by a reset. A dropped handle uses none. -/
def origin? : List Op → Holder → Option Nat
  | [], _ => none
  | op :: past, k =>
    match op with
    | .newHandle => if k = .handle (handlesMade past) then some past.length else origin? past k
    | .newContext => if k = .context (contextsMade past) then some past.length else origin? past k
    | .reset i => if k = .context i ∧ i < contextsMade past then some past.length else origin? past k
    | .share h => origin? past (k.redirect (handlesMade past) h)
    | .drop i => if k = .handle i then none else origin? past k
    | _ => origin? past k

inductive Change where
  | set (name : String) (value : Stored)
  | remove (name : String)

namespace Change

def apply (vs : Values) : Change → Values
  | set name value => vs.set name value
  | remove name => vs.remove name

def name : Change → String
  | set name _ | remove name => name

def value? : Change → Option Stored
  | set _ value => some value
  | remove _ => none

end Change

def Op.change? : Op → Option (Holder × Change)
  | .set h name value => some (h, .set name value)
  | .remove h name => some (h, .remove name)
  | _ => none

/-- The changes of the store made at `o`, in the order in which they were made. -/
def changes (o : Nat) : List Op → List Change
  | [] => []
  | op :: past =>
    match op.change? with
    | some (h, c) => changes o past ++ if origin? past h = some o then [c] else []
    | none => changes o past

def seen (past : List Op) (h : Holder) : List Change :=
  match origin? past h with
  | some o => changes o past
  | none => []

def replay (cs : List Change) : Values := cs.foldl Change.apply {}

def lastOf? (name : String) (cs : List Change) : Option Stored :=
  (cs.reverse.find? (·.name == name)).bind (·.value?)

theorem get?_replay (name : String) (cs : List Change) :
    (replay cs).get? name = lastOf? name cs := by
  induction cs using List.reverseRecOn with
  | nil => rfl
  | append_singleton cs c ih =>
    have hlast : lastOf? name (cs ++ [c]) =
        if c.name = name then c.value? else lastOf? name cs := by
      by_cases hc : c.name = name <;> simp [lastOf?, hc]
    rw [hlast, ← ih, replay, List.foldl_append]
    cases c with
    | set m v => exact Values.get?_set _ m name v
    | remove m => exact Values.get?_remove _ m name

/-! ### Origins -/

section Origins

variable {past : List Op} {op : Op} {h k : Holder} {i c o : Nat}

theorem origin?_lt (ho : origin? past h = some o) : o < past.length := by
  induction past generalizing h with
  | nil => cases ho
  | cons op past ih =>
    rw [List.length_cons]
    cases op with
    | newHandle | newContext | reset i =>
      simp only [origin?] at ho
      split at ho
      · cases ho
        exact Nat.lt_add_one _
      · exact Nat.lt_succ_of_lt (ih ho)
    | drop i =>
      simp only [origin?] at ho
      split at ho
      · cases ho
      · exact Nat.lt_succ_of_lt (ih ho)
    | share _ | set _ _ _ | remove _ _ | get _ _ _ | contains _ _ => exact Nat.lt_succ_of_lt (ih ho)

theorem origin?_ne_length : origin? past h ≠ some past.length :=
  fun ho => Nat.lt_irrefl _ (origin?_lt ho)

theorem changes_of_length_le (ho : past.length ≤ o) : changes o past = [] := by
  induction past with
  | nil => rfl
  | cons op past ih =>
    have hle := (Nat.le_add_right _ 1).trans ho
    rw [changes, ih hle]
    cases op.change? with
    | none => rfl
    | some hc =>
      have hne : origin? past hc.1 ≠ some o := fun h => Nat.not_lt_of_le hle (origin?_lt h)
      exact if_neg hne

theorem handlesMade_le_cons (op : Op) (past : List Op) :
    handlesMade past ≤ handlesMade (op :: past) := by
  cases op <;> simp [handlesMade]

theorem contextsMade_le_cons (op : Op) (past : List Op) :
    contextsMade past ≤ contextsMade (op :: past) := by
  cases op <;> simp [contextsMade]

theorem origin?_handle_unmade (hi : handlesMade past ≤ i) : origin? past (.handle i) = none := by
  induction past generalizing i with
  | nil => rfl
  | cons op past ih =>
    have hlater := ih ((handlesMade_le_cons op past).trans hi)
    cases op with
    | newHandle =>
      have hlt : handlesMade past < i := hi
      simpa [origin?, hlt.ne'] using hlater
    | share h =>
      have hlt : handlesMade past < i := hi
      simpa [origin?, Holder.redirect, hlt.ne'] using hlater
    | newContext | reset _ => simpa [origin?] using hlater
    | drop j => simp [origin?, hlater]
    | set _ _ _ | remove _ _ | get _ _ _ | contains _ _ => exact hlater

theorem origin?_context_unmade (hc : contextsMade past ≤ c) :
    origin? past (.context c) = none := by
  induction past generalizing c with
  | nil => rfl
  | cons op past ih =>
    have hlater := ih ((contextsMade_le_cons op past).trans hc)
    cases op with
    | newContext =>
      have hlt : contextsMade past < c := hc
      simpa [origin?, hlt.ne'] using hlater
    | reset j =>
      have hne : ¬ (c = j ∧ j < contextsMade past) := by
        rintro ⟨rfl, hlt⟩
        exact Nat.not_lt_of_le hc hlt
      simpa [origin?, hne] using hlater
    | newHandle | drop _ => simpa [origin?] using hlater
    | share h => simpa [origin?, Holder.redirect] using hlater
    | set _ _ _ | remove _ _ | get _ _ _ | contains _ _ => exact hlater

theorem origin?_handle_cons (hi : i < handlesMade past) (hop : op ≠ .drop i) :
    origin? (op :: past) (.handle i) = origin? past (.handle i) := by
  cases op with
  | drop j =>
    have hij : ¬ i = j := fun h => hop (h ▸ rfl)
    simp [origin?, hij]
  | newHandle | newContext | reset _ => simp [origin?, hi.ne]
  | share h => simp [origin?, Holder.redirect, hi.ne]
  | set _ _ _ | remove _ _ | get _ _ _ | contains _ _ => rfl

theorem origin?_context_cons (hc : c < contextsMade past) (hop : op ≠ .reset c) :
    origin? (op :: past) (.context c) = origin? past (.context c) := by
  cases op with
  | reset j =>
    have hcj : ¬ c = j := fun h => hop (h ▸ rfl)
    simp [origin?, hcj]
  | newHandle | newContext | drop _ => simp [origin?, hc.ne]
  | share h => simp [origin?, Holder.redirect]
  | set _ _ _ | remove _ _ | get _ _ _ | contains _ _ => rfl

/-- A handle keeps its store until it is dropped. -/
theorem origin?_handle_later (hi : i < handlesMade past) (later : List Op) :
    i < handlesMade (later ++ past) ∧
    (origin? (later ++ past) (.handle i) = origin? past (.handle i) ∨
      origin? (later ++ past) (.handle i) = none) := by
  induction later with
  | nil => exact ⟨hi, .inl rfl⟩
  | cons op later ih =>
    obtain ⟨hlt, ih⟩ := ih
    refine ⟨hlt.trans_le (handlesMade_le_cons op _), ?_⟩
    rw [List.cons_append]
    by_cases hop : op = .drop i
    · exact .inr (by simp [hop, origin?])
    · rwa [origin?_handle_cons hlt hop]

theorem origin?_context_later (hc : c < contextsMade past) (later : List Op) :
    c < contextsMade (later ++ .reset c :: past) ∧
    ∃ o, origin? (later ++ .reset c :: past) (.context c) = some o ∧ past.length ≤ o := by
  induction later with
  | nil => exact ⟨hc, past.length, by simp [origin?, hc], Nat.le_refl _⟩
  | cons op later ih =>
    obtain ⟨hlt, o, ho, hle⟩ := ih
    refine ⟨hlt.trans_le (contextsMade_le_cons op _), ?_⟩
    rw [List.cons_append]
    by_cases hop : op = .reset c
    · refine ⟨(later ++ .reset c :: past).length, by simp [hop, origin?, hlt], ?_⟩
      rw [List.length_append, List.length_cons]
      omega
    · exact ⟨o, by rwa [origin?_context_cons hlt hop], hle⟩

theorem cons_of_apart (hh : origin? past h ≠ none)
    (hop : ∀ k, op.through? = some k → origin? past k ≠ origin? past h) :
    origin? (op :: past) h = origin? past h ∧ seen (op :: past) h = seen past h := by
  have ho : origin? (op :: past) h = origin? past h := by
    cases h with
    | handle i =>
      refine origin?_handle_cons (Nat.lt_of_not_le (mt origin?_handle_unmade hh)) ?_
      rintro rfl
      exact hop (.handle i) rfl rfl
    | context c =>
      refine origin?_context_cons (Nat.lt_of_not_le (mt origin?_context_unmade hh)) ?_
      rintro rfl
      exact hop (.context c) rfl rfl
  refine ⟨ho, ?_⟩
  obtain ⟨o, hsome⟩ := Option.ne_none_iff_exists'.mp hh
  rw [seen, seen, ho, hsome]
  rw [hsome] at hop
  cases op with
  | set k _ _ | remove k _ =>
    simp only [changes, Op.change?, if_neg (hop k rfl), List.append_nil]
  | _ => rfl

end Origins

/-! ### Runs -/

/-- The shelf is as the past says: holders share a store when it has one origin, and see what was
changed in it. -/
structure Traced (past : List Op) (s : Shelf) : Prop where
  valid : s.Valid
  handles : s.handles.length = handlesMade past
  contexts : s.contexts.length = contextsMade past
  shared : ∀ h k, s.storeOf? h = s.storeOf? k ↔ origin? past h = origin? past k
  views : ∀ h, s.view h = replay (seen past h)

namespace Traced

variable {past : List Op} {s t : Shelf} {op : Op} {h : Holder}

theorem storeOf?_eq_none_iff (tr : Traced past s) (h : Holder) :
    s.storeOf? h = none ↔ origin? past h = none := by
  have hs := tr.shared h (.handle s.handles.length)
  rwa [storeOf?_handle_length, tr.handles, origin?_handle_unmade (Nat.le_refl _)] at hs

theorem of_redirect (tr : Traced past s) (r : Holder → Holder) (hst : t.stores = s.stores)
    (hr : ∀ k, t.storeOf? k = s.storeOf? (r k))
    (ho : ∀ k, origin? (op :: past) k = origin? past (r k)) (hc : op.change? = none)
    (hl : t.handles.length = handlesMade (op :: past))
    (hl' : t.contexts.length = contextsMade (op :: past)) : Traced (op :: past) t where
  valid := tr.valid.of_redirect r hst hr
  handles := hl
  contexts := hl'
  shared h k := by rw [hr, hr, ho, ho, tr.shared]
  views h := by
    rw [view_of_storeOf? (hr h) hst, tr.views, seen, seen, ho]
    simp only [changes, hc]

theorem renew (tr : Traced past s) {k : Holder} (hk : Renewed k s t)
    (ho : ∀ h, origin? (op :: past) h = if h = k then some past.length else origin? past h)
    (hc : op.change? = none) (hl : t.handles.length = handlesMade (op :: past))
    (hl' : t.contexts.length = contextsMade (op :: past)) : Traced (op :: past) t where
  valid := hk.valid
  handles := hl
  contexts := hl'
  shared h l := by
    rw [ho, ho]
    by_cases hh : h = k <;> by_cases hlk : l = k
    · rw [hh, hlk]
      exact iff_of_true rfl rfl
    · rw [if_pos hh, if_neg hlk, hh]
      exact iff_of_false (hk.unshared l hlk).symm (Ne.symm origin?_ne_length)
    · rw [if_neg hh, if_pos hlk, hlk]
      exact iff_of_false (hk.unshared h hh) origin?_ne_length
    · rw [if_neg hh, if_neg hlk, hk.others h hh, hk.others l hlk, tr.shared]
  views h := by
    rw [seen, ho]
    by_cases hh : h = k
    · rw [if_pos hh, hh, hk.own]
      simp only [changes, hc, changes_of_length_le (Nat.le_refl _)]
      rfl
    · rw [if_neg hh, hk.views h hh, tr.views, seen]
      simp only [changes, hc]

theorem modify (tr : Traced past s) {c : Change} (hc : op.change? = some (h, c))
    (ho : ∀ k, origin? (op :: past) k = origin? past k)
    (hl : handlesMade (op :: past) = handlesMade past)
    (hl' : contextsMade (op :: past) = contextsMade past) :
    Traced (op :: past) (s.modify h (Change.apply · c)) where
  valid := tr.valid.modify h _
  handles := by rw [handles_modify, hl, tr.handles]
  contexts := by rw [contexts_modify, hl', tr.contexts]
  shared k l := by rw [storeOf?_modify, storeOf?_modify, ho, ho, tr.shared]
  views k := by
    have hsees := and_congr (not_congr (tr.storeOf?_eq_none_iff h)) (tr.shared k h)
    rw [view_modify tr.valid, if_congr hsees rfl rfl, tr.views, seen, seen, ho]
    cases hk : origin? past k with
    | none =>
      rw [if_neg]
      rintro ⟨hh, hkh⟩
      exact hh hkh.symm
    | some o =>
      by_cases hh : origin? past h = some o
      · simp [changes, hc, hh, replay]
      · rw [if_neg]
        · simp [changes, hc, hh]
        · rintro ⟨-, hkh⟩
          exact hh hkh.symm

theorem apply (tr : Traced past s) (op : Op) : Traced (op :: past) (s.apply op).1 := by
  cases op with
  | newHandle =>
    refine tr.renew (newHandle_renewed tr.valid) (fun h => ?_) rfl ?_ tr.contexts
    · rw [origin?, tr.handles]
    · simp [Shelf.apply, newHandle, handlesMade, tr.handles]
  | newContext =>
    refine tr.renew (newContext_renewed tr.valid) (fun h => ?_) rfl tr.handles ?_
    · rw [origin?, tr.contexts]
    · simp [Shelf.apply, newContext, contextsMade, tr.contexts]
  | share h =>
    refine tr.of_redirect _ rfl (storeOf?_share s h) (fun k => ?_) rfl ?_ tr.contexts
    · rw [origin?, tr.handles]
    · simp [Shelf.apply, share, handlesMade, tr.handles]
  | drop i =>
    refine tr.of_redirect _ rfl (storeOf?_drop s i) (fun k => ?_) rfl ?_ tr.contexts
    · rw [origin?, Holder.redirect, tr.handles]
      split
      · rw [origin?_handle_unmade (Nat.le_refl _)]
      · rfl
    · simp [Shelf.apply, drop, handlesMade, tr.handles]
  | set h name value => exact tr.modify (c := .set name value) rfl (fun _ => rfl) rfl rfl
  | remove h name => exact tr.modify (c := .remove name) rfl (fun _ => rfl) rfl rfl
  | get _ _ _ | contains _ _ => exact ⟨tr.valid, tr.handles, tr.contexts, tr.shared, tr.views⟩
  | reset c =>
    by_cases hc : c < s.contexts.length
    · refine tr.renew (reset_renewed tr.valid hc) (fun h => ?_) rfl ?_ ?_
      · rw [tr.contexts] at hc
        simp [origin?, hc]
      · simp [Shelf.apply, handlesMade, tr.handles]
      · simp [Shelf.apply, contextsMade, tr.contexts]
    · have hnone : s.contexts[c]? = none := List.getElem?_eq_none (Nat.le_of_not_lt hc)
      have hreset : s.reset c = s := by rw [reset, hnone]
      refine tr.of_redirect id ?_ ?_ ?_ rfl ?_ ?_
      · simp [Shelf.apply, hreset]
      · simp [Shelf.apply, hreset]
      · rw [tr.contexts] at hc
        simp [origin?, hc]
      · simp [Shelf.apply, handlesMade, tr.handles]
      · simp [Shelf.apply, contextsMade, tr.contexts]

theorem run (past : List Op) : Traced past (Shelf.run past) := by
  induction past with
  | nil =>
    have hview : ∀ h, ({} : Shelf).view h = {} := by rintro (_ | _) <;> rfl
    have hstore : ∀ h, ({} : Shelf).storeOf? h = none := by
      rintro (_ | _) <;> simp [storeOf?]
    exact ⟨valid_empty, rfl, rfl, fun h k => by simp [Shelf.run, hstore, origin?], hview⟩
  | cons op past ih => exact ih.apply op

end Traced

section Isolation

variable {past later : List Op} {op : Op} {h : Holder} {i c : Nat}

theorem view_cons_of_apart (hh : origin? past h ≠ none)
    (hop : ∀ k, op.through? = some k → origin? past k ≠ origin? past h) :
    (run (op :: past)).view h = (run past).view h := by
  rw [(Traced.run _).views, (Traced.run _).views, (cons_of_apart hh hop).2]

/-- A handle that was held when a context was reset, and still is, and the context use stores of
different origins. -/
theorem apart_of_reset (hc : c < contextsMade past) (hi : i < handlesMade past)
    (hheld : origin? (later ++ .reset c :: past) (.handle i) ≠ none) :
    origin? (later ++ .reset c :: past) (.handle i) = origin? past (.handle i) ∧
    origin? (later ++ .reset c :: past) (.context c) ≠ none ∧
    origin? (later ++ .reset c :: past) (.context c) ≠
      origin? (later ++ .reset c :: past) (.handle i) := by
  have hreset : origin? (.reset c :: past) (.handle i) = origin? past (.handle i) := by
    simp [origin?]
  have hmade : i < handlesMade (.reset c :: past) := hi
  have hkept := (origin?_handle_later hmade later).2.resolve_right hheld
  rw [hreset] at hkept
  obtain ⟨-, o, ho, hle⟩ := origin?_context_later hc later
  refine ⟨hkept, by simp [ho], ?_⟩
  rw [ho, hkept]
  exact fun h => Nat.not_lt_of_le hle (origin?_lt h.symm)

end Isolation

/-- Whatever was done, holders whose stores have one origin see the same values, which are what the
changes made through any of them leave. What is found under a name is what its last change left
there, and only with its own type, and looking for it changes nothing. A context that is reset sees
nothing, in the same store when nobody else used that and in another one otherwise, and the handles
see what they saw before. A handle that was held then keeps its store for as long as it is held, and
from then on nothing that is done through the context, or a holder that shares its store, is seen by
the handle, or one that shares the store of that, nor the other way round. -/
theorem shared_until_reset (past : List Op) :
    (∀ h k, origin? past h = origin? past k → (run past).view h = (run past).view k) ∧
    (∀ h, (run past).view h = replay (seen past h)) ∧
    (∀ h name,
      let last := lastOf? name (seen past h)
      (∀ kind, (run past).apply (.get h kind name) =
        (run past, .found (last.filter (·.kind == kind)))) ∧
      (run past).apply (.contains h name) = (run past, .told last.isSome) ∧
      ((run past).apply (.remove h name)).2 = .told last.isSome) ∧
    ∀ c < contextsMade past,
      (run (.reset c :: past)).view (.context c) = {} ∧
      ((run (.reset c :: past)).storeOf? (.context c) = (run past).storeOf? (.context c) ↔
        ∀ h ≠ .context c, origin? past h ≠ origin? past (.context c)) ∧
      (∀ i, (run (.reset c :: past)).view (.handle i) = (run past).view (.handle i)) ∧
      ∀ later, ∀ i < handlesMade past,
        let now := later ++ .reset c :: past
        origin? now (.handle i) ≠ none →
          origin? now (.handle i) = origin? past (.handle i) ∧
          ∀ h k, origin? now h = origin? now (.handle i) →
            origin? now k = origin? now (.context c) → ∀ op : Op,
              (op.through? = some k → (run (op :: now)).view h = (run now).view h) ∧
              (op.through? = some h → (run (op :: now)).view k = (run now).view k) := by
  have tr := Traced.run past
  refine ⟨fun h k hk => ?_, tr.views, fun h name => ?_, fun c hc => ?_⟩
  · rw [tr.views, tr.views, seen, seen, hk]
  · have hget : ((run past).view h).get? name = lastOf? name (seen past h) := by
      rw [tr.views, get?_replay]
    refine ⟨fun kind => ?_, ?_, ?_⟩
    · simp only [apply, getOf?, Values.getOf?, hget]
    · simp only [apply, contains, Values.contains, hget]
    · simp only [apply, remove, contains, Values.contains, hget]
  · have hmade : c < (run past).contexts.length := tr.contexts ▸ hc
    have hnew := reset_renewed tr.valid hmade
    have hkeeps := (reset_keeps_iff tr.valid hmade).trans
      (forall₂_congr fun h _ => not_congr (tr.shared h _))
    refine ⟨hnew.own, hkeeps, fun i => hnew.views _ nofun, ?_⟩
    intro later i hi now hheld
    obtain ⟨hkept, hown, hne⟩ := apart_of_reset hc hi hheld
    refine ⟨hkept, fun h k hh hk op => ⟨fun hop => ?_, fun hop => ?_⟩⟩
    · refine view_cons_of_apart (hh ▸ hheld) fun l hl => ?_
      obtain rfl := Option.some.inj (hop.symm.trans hl)
      exact hh ▸ hk ▸ hne
    · refine view_cons_of_apart (hk ▸ hown) fun l hl => ?_
      obtain rfl := Option.some.inj (hop.symm.trans hl)
      exact hh ▸ hk ▸ hne.symm

def heldPast : List Op := [.share (.context 0), .set (.context 0) "k" (.integer 1), .newContext]

theorem shared_until_reset_held :
    0 < contextsMade heldPast ∧ 0 < handlesMade heldPast ∧
    origin? (.reset 0 :: heldPast) (.handle 0) = some 0 ∧
    (run (.set (.context 0) "k" (.integer 2) :: .reset 0 :: heldPast)).view (.handle 0) =
      (run heldPast).view (.handle 0) := by
  have hc : 0 < contextsMade heldPast := by decide
  have hi : 0 < handlesMade heldPast := by decide
  have ho : origin? (.reset 0 :: heldPast) (.handle 0) = some 0 := by decide
  obtain ⟨-, -, hviews, happart⟩ := (shared_until_reset heldPast).2.2.2 0 hc
  obtain ⟨-, hisolated⟩ := happart [] 0 hi (by simp [ho])
  refine ⟨hc, hi, ho, ?_⟩
  exact ((hisolated _ (.context 0) rfl rfl _).1 rfl).trans (hviews 0)

end Gateway.Shelf
