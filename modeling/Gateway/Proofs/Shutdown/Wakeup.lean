import Gateway.Proofs.Shutdown.Tasks

/-! No wake-up is lost: once the signal was raised, everyone who waits for it can return, however
the steps of all tasks were interleaved. -/

namespace Gateway.Shutdown.Tasks

variable {s s' : Tasks} {i : Nat} {w w' : Waiter} {signal : Shutdown}

theorem ne_begun_of_step {t t' : Trigger} {before after : Shutdown}
    (h : t.step before = some (after, t')) : t' ≠ .begun := by
  cases t <;> cases h <;> simp

theorem Raised.step (h : s.Raised) {e : Event} (hs : s.step e = some s') : s'.Raised := by
  cases e with
  | call =>
    cases hs
    obtain ⟨t, ht, hne⟩ := h
    exact ⟨t, List.mem_append_left _ ht, hne⟩
  | raise i =>
    obtain ⟨t, hi, ht⟩ := Option.bind_eq_some_iff.mp hs
    obtain ⟨⟨signal, t'⟩, hstep, rfl⟩ := Option.map_eq_some_iff.mp ht
    obtain ⟨hlt, -⟩ := List.getElem?_eq_some_iff.mp hi
    exact ⟨t', List.mem_set hlt t', ne_begun_of_step hstep⟩
  | proceed i =>
    obtain ⟨w, -, hw⟩ := Option.bind_eq_some_iff.mp hs
    obtain ⟨p, -, rfl⟩ := Option.map_eq_some_iff.mp hw
    exact h
  | wait | listen =>
    cases hs
    exact h
  | leave i | hear i | quit i =>
    obtain ⟨x, -, rfl⟩ := Option.map_eq_some_iff.mp hs
    exact h

theorem Raised.run (h : s.Raised) (events : List Event) : (s.run events).Raised := by
  refine List.foldlRecOn events _ h fun s h e _ => ?_
  cases hs : s.step e with
  | none => exact h
  | some s' => exact h.step hs

/-! ### Waiters that take their own steps -/

theorem run_proceed (hi : s.waiters[i]? = some w) (hw : w.step s.signal = some (signal, w'))
    (events : List Event) :
    s.run (.proceed i :: events) =
      { s with signal, waiters := s.waiters.set i w' }.run events := by
  have hstep : s.step (.proceed i) = some { s with signal, waiters := s.waiters.set i w' } := by
    simp only [step, hi, Option.bind_some, hw, Option.map_some]
  simp only [run, List.foldl_cons, hstep, Option.getD_some]

theorem getElem?_run_of_returned (hi : s.waiters[i]? = some .returned) (n : Nat) :
    (s.run (List.replicate n (.proceed i))).waiters[i]? = some .returned := by
  have hstep : s.step (.proceed i) = none := by
    simp only [step, hi, Option.bind_some, Waiter.step, Option.map_none]
  have hrun : s.run (List.replicate n (.proceed i)) = s := by
    induction n with
    | zero => rfl
    | succ n ih =>
      simpa only [run, List.replicate_succ, List.foldl_cons, hstep, Option.getD_none] using ih
  rw [hrun]
  exact hi

theorem Sound.step_eq_returned (h : s.Sound) (hc : .completed ∈ s.triggers)
    (hi : s.waiters[i]? = some w) (hb : w ≠ .begun) (hr : w ≠ .returned) :
    ∃ signal, w.step s.signal = some (signal, .returned) := by
  cases w with
  | begun => exact absurd rfl hb
  | subscribed id =>
    simp only [Waiter.step, h.fired_of_completed hc]
    exact ⟨_, rfl⟩
  | receiving id =>
    obtain ⟨next, notice, he⟩ := (h.pending hc id (List.mem_of_getElem? hi)).receive h.signal
    simp only [Waiter.step, he]
    exact ⟨_, rfl⟩
  | returned => exact absurd rfl hr

theorem Sound.returns_of_subscribed (h : s.Sound) (hc : .completed ∈ s.triggers)
    (hi : s.waiters[i]? = some w) (hb : w ≠ .begun) (n : Nat) :
    (s.run (List.replicate (n + 1) (.proceed i))).waiters[i]? = some .returned := by
  by_cases hr : w = .returned
  · subst hr
    exact getElem?_run_of_returned hi _
  · obtain ⟨signal, hw⟩ := h.step_eq_returned hc hi hb hr
    rw [List.replicate_succ, run_proceed hi hw]
    exact getElem?_run_of_returned
      (List.getElem?_set_self (List.getElem?_eq_some_iff.mp hi).1) n

theorem Sound.returns (h : s.Sound) (hc : .completed ∈ s.triggers)
    (hi : s.waiters[i]? = some w) :
    (s.run (List.replicate 2 (.proceed i))).waiters[i]? = some .returned := by
  by_cases hb : w = .begun
  · subst hb
    have hw : Waiter.begun.step s.signal =
        some (s.signal.subscribe.1, .subscribed s.signal.issued) := rfl
    have hlt := (List.getElem?_eq_some_iff.mp hi).1
    have hfirst := h.run [.proceed i]
    rw [run_proceed hi hw] at hfirst
    rw [List.replicate_succ, run_proceed hi hw]
    exact hfirst.returns_of_subscribed hc (List.getElem?_set_self hlt) (by simp) 0
  · exact h.returns_of_subscribed hc hi hb 1

/-- Once a call to raise the signal is complete, every task that waits has returned, or has yet to
look at the flag, which stays up, or has a message or the notice of missed ones to receive; in any
case it returns if only it goes on. None returns before some call has raised the flag. -/
theorem waiters_return (events : List Event) :
    let s := ({} : Tasks).run events
    (.completed ∈ s.triggers → ∀ i w, s.waiters[i]? = some w →
      (w = .returned ∨
        ((w = .begun ∨ ∃ id, w = .subscribed id) ∧
          ∀ later, (s.run later).signal.fired = true) ∨
        ∃ id notice, w = .receiving id ∧ (s.signal.receive id).2 = some notice) ∧
      (s.run (List.replicate 2 (.proceed i))).waiters[i]? = some .returned) ∧
    (.returned ∈ s.waiters → s.signal.fired = true ∧ s.Raised) := by
  intro s
  have hs : s.Sound := sound_new.run events
  refine ⟨fun hc i w hi => ⟨?_, hs.returns hc hi⟩, fun hr => ?_⟩
  · have hraised : s.Raised := ⟨_, hc, by simp⟩
    have hfired : ∀ later, (s.run later).signal.fired = true := fun later =>
      (hs.run later).raised.mpr (hraised.run later)
    cases w with
    | begun => exact .inr (.inl ⟨.inl rfl, hfired⟩)
    | subscribed id => exact .inr (.inl ⟨.inr ⟨id, rfl⟩, hfired⟩)
    | receiving id =>
      obtain ⟨next, notice, he⟩ := (hs.pending hc id (List.mem_of_getElem? hi)).receive hs.signal
      exact .inr (.inr ⟨id, notice, rfl, by rw [he]⟩)
    | returned => exact .inl rfl
  · exact ⟨hs.returned hr, hs.raised.mp (hs.returned hr)⟩

/-- The one waiter finds the flag up that another, which found it down, is told of. -/
example :
    let s := ({} : Tasks).run
      [.wait, .proceed 0, .proceed 0, .wait, .proceed 1, .call, .raise 0, .proceed 1, .raise 0]
    s.waiters = [.receiving 0, .returned] ∧
      (s.run [.proceed 0]).waiters = [.returned, .returned] := by decide

end Gateway.Shutdown.Tasks
