import Gateway.Proofs.Shutdown.Signal
import Mathlib.Data.List.Perm.Basic

/-! Any number of tasks around one signal, whose steps interleave in any order: some raise it, some
wait for it, and others listen to it in ways of their own. -/

namespace Gateway.Shutdown

def Waiter.id? : Waiter → Option Nat
  | subscribed id | receiving id => some id
  | begun | returned => none

/-- The tasks that share a signal; a listener is named by its receiver. -/
structure Tasks where
  signal : Shutdown := {}
  triggers : List Trigger := []
  waiters : List Waiter := []
  listeners : List Nat := []

namespace Tasks

/-- A task begins, takes its next step or gives up; `hear` is the attempt of a listener to
receive. -/
inductive Event where
  | call
  | raise (i : Nat)
  | wait
  | proceed (i : Nat)
  | leave (i : Nat)
  | listen
  | hear (i : Nat)
  | quit (i : Nat)

def step (s : Tasks) : Event → Option Tasks
  | .call => some { s with triggers := s.triggers ++ [.begun] }
  | .raise i =>
    s.triggers[i]?.bind fun t => (t.step s.signal).map fun (signal, t) =>
      { s with signal, triggers := s.triggers.set i t }
  | .wait => some { s with waiters := s.waiters ++ [.begun] }
  | .proceed i =>
    s.waiters[i]?.bind fun w => (w.step s.signal).map fun (signal, w) =>
      { s with signal, waiters := s.waiters.set i w }
  | .leave i =>
    s.waiters[i]?.map fun w =>
      { s with signal := w.drop s.signal, waiters := s.waiters.eraseIdx i }
  | .listen =>
    let (signal, id) := s.signal.subscribe
    some { s with signal, listeners := s.listeners ++ [id] }
  | .hear i => s.listeners[i]?.map fun id => { s with signal := (s.signal.receive id).1 }
  | .quit i =>
    s.listeners[i]?.map fun id =>
      { s with signal := s.signal.unsubscribe id, listeners := s.listeners.eraseIdx i }

/-- Steps that a task cannot take now are passed over. -/
def run (s : Tasks) (events : List Event) : Tasks := events.foldl (fun s e => (s.step e).getD s) s

def Raised (s : Tasks) : Prop := ∃ t ∈ s.triggers, t ≠ Trigger.begun

/-- What all tasks can rely on. The receivers are those of the tasks, one each, and a waiter that
found the flag down has its message by the time that a call is complete. -/
structure Sound (s : Tasks) : Prop where
  signal : s.signal.Sound
  owned : (s.waiters.filterMap Waiter.id? ++ s.listeners).Perm s.signal.ids
  raised : s.signal.fired = true ↔ s.Raised
  sent : 0 < s.signal.sent → s.signal.fired = true
  returned : .returned ∈ s.waiters → s.signal.fired = true
  pending : .completed ∈ s.triggers → ∀ id, .receiving id ∈ s.waiters → s.signal.Pending id

variable {s : Tasks}

theorem sound_new : ({} : Tasks).Sound where
  signal := ⟨List.nodup_nil, by simp [ids], by simp⟩
  owned := .refl _
  raised := by simp [Raised]
  sent := by simp
  returned := by simp
  pending := by simp

theorem Sound.fired_of_completed (h : s.Sound) (hc : .completed ∈ s.triggers) :
    s.signal.fired = true := h.raised.mpr ⟨_, hc, by simp⟩

theorem Sound.mem_ids (h : s.Sound) {w : Waiter} {id : Nat} (hw : w ∈ s.waiters)
    (hid : w.id? = some id) : id ∈ s.signal.ids :=
  h.owned.mem_iff.mp (List.mem_append_left _ (List.mem_filterMap.mpr ⟨w, hw, hid⟩))

theorem Sound.perm (h : s.Sound) {ws : List Waiter} (hp : ws.Perm s.waiters) :
    { s with waiters := ws }.Sound where
  signal := h.signal
  owned := ((hp.filterMap _).append_right _).trans h.owned
  raised := h.raised
  sent := h.sent
  returned hr := h.returned (hp.mem_iff.mp hr)
  pending hc id hid := h.pending hc id (hp.mem_iff.mp hid)

/-! ### Tasks that raise the signal -/

theorem Sound.call (h : s.Sound) :
    { s with triggers := s.triggers ++ [Trigger.begun] }.Sound where
  signal := h.signal
  owned := h.owned
  raised := h.raised.trans (by simp [Raised, or_and_right])
  sent := h.sent
  returned := h.returned
  pending hc := h.pending (by simpa using hc)

theorem Sound.mark (h : s.Sound) {i : Nat} (hi : i < s.triggers.length) :
    { s with signal := s.signal.mark, triggers := s.triggers.set i .marked }.Sound where
  signal := ⟨h.signal.distinct, h.signal.issued, h.signal.seen⟩
  owned := h.owned
  raised := iff_of_true rfl ⟨.marked, List.mem_set hi _, by simp⟩
  sent _ := rfl
  returned _ := rfl
  pending hc := by
    have hold : .completed ∈ s.triggers := (List.mem_or_eq_of_mem_set hc).resolve_right (by simp)
    exact h.pending hold

theorem Sound.broadcast (h : s.Sound) {i : Nat} (hi : s.triggers[i]? = some .marked) :
    { s with signal := s.signal.broadcast, triggers := s.triggers.set i .completed }.Sound := by
  obtain ⟨hlt, hget⟩ := List.getElem?_eq_some_iff.mp hi
  have hfired : s.signal.broadcast.fired = true := by
    rw [fired_broadcast]
    exact h.raised.mpr ⟨.marked, hget ▸ List.getElem_mem hlt, by simp⟩
  exact {
    signal := h.signal.broadcast
    owned := by rw [ids_broadcast]; exact h.owned
    raised := iff_of_true hfired ⟨.completed, List.mem_set hlt _, by simp⟩
    sent := fun _ => hfired
    returned := fun _ => hfired
    pending := fun _ id hid => h.signal.pending_broadcast (h.mem_ids hid rfl) }

theorem Sound.raise (h : s.Sound) {i : Nat} {t t' : Trigger} {signal : Shutdown}
    (hi : s.triggers[i]? = some t) (ht : t.step s.signal = some (signal, t')) :
    { s with signal, triggers := s.triggers.set i t' }.Sound := by
  cases t with
  | begun =>
    cases ht
    exact h.mark (List.getElem?_eq_some_iff.mp hi).1
  | marked =>
    cases ht
    exact h.broadcast hi
  | completed => cases ht

/-! ### Tasks that have a receiver -/

theorem Sound.cons (h : s.Sound) {w : Waiter} (hid : w.id? = none)
    (hr : w = .returned → s.signal.fired = true) : { s with waiters := w :: s.waiters }.Sound where
  signal := h.signal
  owned := by simpa [hid] using h.owned
  raised := h.raised
  sent := h.sent
  returned hm := (List.mem_cons.mp hm).elim (fun he => hr he.symm) h.returned
  pending hc id hm := by
    have hne : .receiving id ≠ w := by
      rintro rfl
      cases hid
    exact h.pending hc id ((List.mem_cons.mp hm).resolve_left hne)

theorem Sound.unsubscribe (h : s.Sound) {id : Nat} {waiters : List Waiter} {listeners : List Nat}
    (hs : waiters ⊆ s.waiters)
    (ho : (id :: (waiters.filterMap Waiter.id? ++ listeners)).Perm s.signal.ids) :
    { s with signal := s.signal.unsubscribe id, waiters, listeners }.Sound := by
  have hnodup := ho.nodup_iff.mpr h.signal.distinct
  obtain ⟨hnot, -⟩ := List.nodup_cons.mp hnodup
  exact {
    signal := h.signal.unsubscribe id
    owned := by
      rw [ids_unsubscribe]
      refine List.Perm.trans (List.Perm.of_eq ?_) (ho.filter _)
      rw [List.filter_cons_of_neg (by simp), List.filter_eq_self.mpr]
      exact fun other hm => bne_iff_ne.mpr fun he => hnot (he ▸ hm)
    raised := h.raised
    sent := h.sent
    returned := fun hr => h.returned (hs hr)
    pending := fun hc other hm => by
      refine (h.pending hc other (hs hm)).unsubscribe ?_
      rintro rfl
      exact hnot (List.mem_append_left _ (List.mem_filterMap.mpr ⟨_, hm, rfl⟩)) }

theorem Sound.subscribe (h : s.Sound) {waiters : List Waiter} {listeners : List Nat}
    (hs : ∀ id, .receiving id ∈ waiters → .receiving id ∈ s.waiters)
    (hr : .returned ∈ waiters → .returned ∈ s.waiters)
    (ho : (waiters.filterMap Waiter.id? ++ listeners).Perm (s.signal.ids ++ [s.signal.issued])) :
    { s with signal := s.signal.subscribe.1, waiters, listeners }.Sound where
  signal := h.signal.subscribe
  owned := by rw [ids_subscribe]; exact ho
  raised := h.raised
  sent := h.sent
  returned hm := h.returned (hr hm)
  pending hc id hm := (h.pending hc id (hs id hm)).subscribe

theorem Sound.moveTo (h : s.Sound) {id next : Nat} (hn : next ≤ s.signal.sent)
    (hid : .receiving id ∉ s.waiters) : { s with signal := s.signal.moveTo id next }.Sound where
  signal := h.signal.moveTo hn
  owned := by rw [ids_moveTo]; exact h.owned
  raised := h.raised
  sent := h.sent
  returned := h.returned
  pending hc other ho := by
    have hne : other ≠ id := fun he => hid (he ▸ ho)
    exact (h.pending hc other ho).moveTo hne next

/-! ### Tasks that wait -/

section Waiting

variable {rest : List Waiter} {w w' : Waiter} {id : Nat} {signal : Shutdown}

theorem Sound.subscribed (h : { s with waiters := .begun :: rest }.Sound) :
    { s with
      signal := s.signal.subscribe.1
      waiters := .subscribed s.signal.issued :: rest }.Sound := by
  refine Sound.subscribe h (by simp) (by simp) ?_
  have hcons : (s.signal.issued :: (rest.filterMap Waiter.id? ++ s.listeners)).Perm
      (s.signal.issued :: s.signal.ids) := h.owned.cons _
  exact hcons.trans (List.perm_append_singleton _ _).symm

theorem Sound.receiving (h : { s with waiters := .subscribed id :: rest }.Sound)
    (hf : s.signal.fired = false) : { s with waiters := .receiving id :: rest }.Sound where
  signal := h.signal
  owned := h.owned
  raised := h.raised
  sent := h.sent
  returned hr := h.returned (by simpa using hr)
  pending hc := by
    have hfired : s.signal.fired = true := h.fired_of_completed hc
    rw [hf] at hfired
    cases hfired

theorem Sound.leave (h : { s with waiters := w :: rest }.Sound) :
    { s with signal := w.drop s.signal, waiters := rest }.Sound := by
  have hsub : rest ⊆ w :: rest := fun _ => List.mem_cons_of_mem _
  cases w with
  | begun | returned =>
    exact ⟨h.signal, h.owned, h.raised, h.sent, fun hr => h.returned (hsub hr),
      fun hc id hm => h.pending hc id (hsub hm)⟩
  | subscribed id | receiving id => exact Sound.unsubscribe h hsub h.owned

theorem Sound.proceed (h : { s with waiters := w :: rest }.Sound)
    (hw : w.step s.signal = some (signal, w')) :
    { s with signal, waiters := w' :: rest }.Sound := by
  have hleave := h.leave
  cases w with
  | begun =>
    cases hw
    exact h.subscribed
  | subscribed id =>
    simp only [Waiter.step] at hw
    split at hw
    · next hf =>
      cases hw
      exact hleave.cons rfl fun _ => hf
    · next hf =>
      cases hw
      exact h.receiving (Bool.not_eq_true _ ▸ hf)
  | receiving id =>
    simp only [Waiter.step] at hw
    rcases s.signal.receive_cases id with he | ⟨next, notice, he, -, hsent⟩
    · rw [he] at hw
      cases hw
    · rw [he] at hw
      cases hw
      rw [unsubscribe_moveTo]
      exact hleave.cons rfl fun _ => h.sent hsent
  | returned => cases hw

end Waiting

/-! ### Tasks that listen -/

theorem Sound.listen (h : s.Sound) :
    { s with
      signal := s.signal.subscribe.1
      listeners := s.listeners ++ [s.signal.issued] }.Sound := by
  refine h.subscribe (fun _ => id) id ?_
  rw [← List.append_assoc]
  exact h.owned.append_right _

theorem Sound.not_receiving (h : s.Sound) {id : Nat} (hl : id ∈ s.listeners) :
    .receiving id ∉ s.waiters := by
  intro hm
  have hnodup := h.owned.nodup_iff.mpr h.signal.distinct
  exact (List.nodup_append.mp hnodup).2.2 id (List.mem_filterMap.mpr ⟨_, hm, rfl⟩) id hl rfl

theorem Sound.hear (h : s.Sound) {id : Nat} (hl : id ∈ s.listeners) :
    { s with signal := (s.signal.receive id).1 }.Sound := by
  rcases s.signal.receive_cases id with he | ⟨next, notice, he, hn, -⟩
  · rw [he]
    exact h
  · rw [he]
    exact h.moveTo hn (h.not_receiving hl)

theorem Sound.quit (h : s.Sound) {i id : Nat} (hi : s.listeners[i]? = some id) :
    { s with
      signal := s.signal.unsubscribe id
      listeners := s.listeners.eraseIdx i }.Sound := by
  refine h.unsubscribe (List.Subset.refl _) (List.Perm.trans ?_ h.owned)
  refine List.perm_middle.symm.trans (List.Perm.append_left _ ?_)
  obtain ⟨hlt, rfl⟩ := List.getElem?_eq_some_iff.mp hi
  exact List.getElem_cons_eraseIdx_perm hlt

/-! ### Schedules -/

theorem Sound.step (h : s.Sound) {e : Event} {s' : Tasks} (hs : s.step e = some s') : s'.Sound := by
  cases e with
  | call =>
    cases hs
    exact h.call
  | raise i =>
    obtain ⟨t, hi, ht⟩ := Option.bind_eq_some_iff.mp hs
    obtain ⟨⟨signal, t'⟩, hstep, rfl⟩ := Option.map_eq_some_iff.mp ht
    exact h.raise hi hstep
  | wait =>
    cases hs
    exact (h.cons (w := .begun) rfl (by simp)).perm (List.perm_append_singleton _ _)
  | proceed i =>
    obtain ⟨w, hi, hw⟩ := Option.bind_eq_some_iff.mp hs
    obtain ⟨⟨signal, w'⟩, hstep, rfl⟩ := Option.map_eq_some_iff.mp hw
    obtain ⟨hlt, rfl⟩ := List.getElem?_eq_some_iff.mp hi
    have hfirst := h.perm (List.getElem_cons_eraseIdx_perm hlt)
    exact (hfirst.proceed hstep).perm (List.set_perm_cons_eraseIdx hlt w')
  | leave i =>
    obtain ⟨w, hi, rfl⟩ := Option.map_eq_some_iff.mp hs
    obtain ⟨hlt, rfl⟩ := List.getElem?_eq_some_iff.mp hi
    exact (h.perm (List.getElem_cons_eraseIdx_perm hlt)).leave
  | listen =>
    cases hs
    exact h.listen
  | hear i =>
    obtain ⟨id, hi, rfl⟩ := Option.map_eq_some_iff.mp hs
    exact h.hear (List.mem_of_getElem? hi)
  | quit i =>
    obtain ⟨id, hi, rfl⟩ := Option.map_eq_some_iff.mp hs
    exact h.quit hi

theorem Sound.run (h : s.Sound) (events : List Event) : (s.run events).Sound := by
  refine List.foldlRecOn events _ h fun s h e _ => ?_
  cases hs : s.step e with
  | none => exact h
  | some s' => exact h.step hs

end Tasks

end Gateway.Shutdown
