import Gateway.Relay

/-! One direction of a relay: no move loses, repeats or reorders a byte, and a pump that ended well
has delivered all that its source wrote. -/

namespace Gateway

/-- The result of a pump that has copied and is still to report it. -/
def Stage.result? : Stage → Option CopyResult
  | copied result | ended result => some result
  | copying | reported | aborted => none

namespace Stream

/-- The source has closed, and the sink received all that it wrote. -/
structure Complete (s : Stream) (count : Nat) : Prop where
  closed : s.source.closed = true
  delivered : s.delivered = s.source.written
  counted : count = s.source.written.length

/-- Each byte that was written is delivered, held or unread, in this order. -/
structure Sound (s : Stream) : Prop where
  whole : s.delivered ++ s.pump.held ++ s.source.unread = s.source.written
  counted : s.pump.count = s.delivered.length
  complete : ∀ n, s.pump.stage.result? = some (.ok n) → s.Complete n

variable {s s' : Stream}

theorem Sound.prefix_written (h : s.Sound) : s.delivered <+: s.source.written := by
  rw [← h.whole, List.append_assoc]
  exact List.prefix_append _ _

theorem Sound.complete_of_nothing_left (h : s.Sound) (hc : s.source.closed = true)
    (hu : s.source.unread = []) (hp : s.pump.held = []) : s.Complete s.pump.count := by
  have hall : s.delivered = s.source.written := by
    rw [← h.whole, hu, hp, List.append_nil, List.append_nil]
  exact ⟨hc, hall, hall ▸ h.counted⟩

theorem Complete.nothing_left {n : Nat} (hc : s.Complete n) (h : s.Sound) :
    s.pump.held = [] ∧ s.source.unread = [] := by
  have hwhole := h.whole
  rw [hc.delivered, List.append_assoc] at hwhole
  exact List.append_eq_nil_iff.mp (List.append_right_eq_self.mp hwhole)

theorem Complete.advance {n : Nat} (hc : s.Complete n) {stage : Stage} {sink : Sink}
    (hr : sink.received = s.delivered) : { s with pump.stage := stage, sink }.Complete n :=
  ⟨hc.closed, hr.trans hc.delivered, hc.counted⟩

theorem Sound.advance (h : s.Sound) {stage : Stage} {sink : Sink}
    (hr : sink.received = s.delivered)
    (hs : ∀ n, stage.result? = some (.ok n) → s.Complete n) :
    { s with pump.stage := stage, sink }.Sound where
  whole := by simpa only [delivered, hr] using h.whole
  counted := by simpa only [delivered, hr] using h.counted
  complete n hn := (hs n hn).advance hr

theorem Sound.move (h : s.Sound) {m : Move} (hm : s.move m = some s') : s'.Sound := by
  cases m with
  | write bytes =>
    simp only [Stream.move, Option.ite_none_left_eq_some, Option.some.injEq] at hm
    obtain ⟨hopen, rfl⟩ := hm
    exact {
      whole := by simp only [← h.whole, List.append_assoc, delivered]
      counted := h.counted
      complete := fun n hn => absurd (h.complete n hn).closed hopen }
  | close =>
    cases hm
    exact ⟨h.whole, h.counted, fun n hn =>
      ⟨rfl, (h.complete n hn).delivered, (h.complete n hn).counted⟩⟩
  | read count =>
    simp only [Stream.move, Option.ite_none_right_eq_some, Option.some.injEq] at hm
    obtain ⟨⟨hcopying, -, -⟩, rfl⟩ := hm
    exact {
      whole := by
        have hsplit := List.take_append_drop count s.source.unread
        simp only [← h.whole, List.append_assoc, delivered, hsplit]
      counted := h.counted
      complete := fun n hn => by
        rw [hcopying] at hn
        cases hn }
  | pass count =>
    simp only [Stream.move, Option.ite_none_right_eq_some, Option.some.injEq] at hm
    obtain ⟨⟨hcopying, -, hle⟩, rfl⟩ := hm
    exact {
      whole := by
        have hsplit := List.take_append_drop count s.pump.held
        simp only [← h.whole, delivered]
        rw [List.append_assoc s.sink.received, hsplit]
      counted := by
        simp only [h.counted, delivered, List.length_append, List.length_take_of_le hle]
      complete := fun n hn => by
        rw [hcopying] at hn
        cases hn }
  | finish =>
    simp only [Stream.move, Option.ite_none_right_eq_some, Option.some.injEq] at hm
    obtain ⟨⟨-, hclosed, hunread, hheld⟩, rfl⟩ := hm
    refine h.advance rfl fun n hn => ?_
    cases hn
    exact h.complete_of_nothing_left hclosed hunread hheld
  | fail reason =>
    simp only [Stream.move, Option.ite_none_right_eq_some, Option.some.injEq] at hm
    obtain ⟨-, rfl⟩ := hm
    exact h.advance rfl fun n hn => by cases hn
  | shut =>
    simp only [Stream.move] at hm
    split at hm
    · next result hstage =>
      cases hm
      exact h.advance rfl fun n hn => h.complete n (hstage ▸ hn)
    · cases hm

theorem Complete.move {n : Nat} (hc : s.Complete n) (h : s.Sound) {m : Move}
    (hm : s.move m = some s') : s'.Complete n := by
  obtain ⟨hheld, hunread⟩ := hc.nothing_left h
  cases m with
  | write bytes =>
    simp only [Stream.move, hc.closed, if_true] at hm
    cases hm
  | close =>
    cases hm
    exact ⟨rfl, hc.delivered, hc.counted⟩
  | read count =>
    simp only [Stream.move, hunread, Option.ite_none_right_eq_some, List.length_nil] at hm
    omega
  | pass count =>
    simp only [Stream.move, hheld, Option.ite_none_right_eq_some, List.length_nil] at hm
    omega
  | finish | fail =>
    simp only [Stream.move, Option.ite_none_right_eq_some, Option.some.injEq] at hm
    obtain ⟨-, rfl⟩ := hm
    exact hc.advance rfl
  | shut =>
    simp only [Stream.move] at hm
    split at hm
    · cases hm
      exact hc.advance rfl
    · cases hm

/-- A peer moves without a pump; a pump moves only as long as it is not over, and never is over by
a move. -/
theorem move_cases {m : Move} (hm : s.move m = some s') :
    (s'.pump = s.pump ∧ s'.sink = s.sink) ∨
      (s.pump.stage.isOver = false ∧ s'.pump.stage.isOver = false) := by
  cases m with
  | write bytes =>
    simp only [Stream.move, Option.ite_none_left_eq_some, Option.some.injEq] at hm
    obtain ⟨-, rfl⟩ := hm
    exact .inl ⟨rfl, rfl⟩
  | close =>
    cases hm
    exact .inl ⟨rfl, rfl⟩
  | read | pass | finish | fail =>
    simp only [Stream.move, Option.ite_none_right_eq_some, Option.some.injEq] at hm
    obtain ⟨hs, rfl⟩ := hm
    simp [hs, Stage.isOver]
  | shut =>
    simp only [Stream.move] at hm
    split at hm
    · next result hstage =>
      cases hm
      simp [hstage, Stage.isOver]
    · cases hm

theorem isOver_of_move {m : Move} (hm : s.move m = some s') :
    s'.pump.stage.isOver = s.pump.stage.isOver := by
  rcases move_cases hm with ⟨hpump, -⟩ | ⟨hs, hs'⟩
  · rw [hpump]
  · rw [hs, hs']

theorem delivered_of_isOver {m : Move} (ho : s.pump.stage.isOver = true)
    (hm : s.move m = some s') : s'.delivered = s.delivered := by
  rcases move_cases hm with ⟨-, hsink⟩ | ⟨hs, -⟩
  · rw [delivered, delivered, hsink]
  · rw [hs] at ho
    cases ho

end Stream

end Gateway
