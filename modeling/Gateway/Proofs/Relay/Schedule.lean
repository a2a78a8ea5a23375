import Gateway.Proofs.Relay.Stream

/-! Both directions of a relay, its reports and its cancellation under every schedule. -/

namespace Gateway

theorem Side.eq_or_other (a b : Side) : b = a ∨ b = a.other := by
  cases a <;> cases b <;> simp [other]

def Phase.first? : Phase → Option (Option RelayOutcome)
  | running => none
  | stopping first | returned first => some first

namespace Relay

/-- If the outcome is a number of bytes, its direction is complete with that number. -/
def Bears (r : Relay) (o : RelayOutcome) : Prop :=
  ∀ n, o.result = .ok n → (r.stream o.source).Complete n

/-- What holds under every schedule. As long as the relay waits, a pump can be over only by a report
that is still to be received. -/
structure Sound (r : Relay) : Prop where
  streams : ∀ side, (r.stream side).Sound
  reports : ∀ o ∈ r.reports, r.Bears o
  first : ∀ o, r.phase.first? = some (some o) → r.Bears o
  cancelled : r.phase.first? = some none → r.cancelled = true
  heard : r.phase = .running → ∀ side, (r.stream side).pump.stage.isOver = true →
    ∃ o ∈ r.reports, o.source = side
  ended : r.result.isSome → ∀ side, (r.stream side).pump.stage.isOver = true

variable {r r' : Relay} {side : Side}

theorem stream_update_self (r : Relay) (side : Side) (s : Stream) :
    (r.update side s).stream side = s := by
  cases side <;> rfl

theorem stream_update_other (r : Relay) (side : Side) (s : Stream) :
    (r.update side s).stream side.other = r.stream side.other := by
  cases side <;> rfl

theorem reports_update (r : Relay) (side : Side) (s : Stream) :
    (r.update side s).reports = r.reports := by
  cases side <;> rfl

theorem phase_update (r : Relay) (side : Side) (s : Stream) :
    (r.update side s).phase = r.phase := by
  cases side <;> rfl

theorem cancelled_update (r : Relay) (side : Side) (s : Stream) :
    (r.update side s).cancelled = r.cancelled := by
  cases side <;> rfl

theorem result_update (r : Relay) (side : Side) (s : Stream) :
    (r.update side s).result = r.result := by
  cases side <;> rfl

theorem phase_of_result {first : Option RelayOutcome} (hr : r.result = some first) :
    r.phase = .returned first := by
  simp only [result] at hr
  split at hr
  · next hp =>
    cases hr
    exact hp
  · cases hr

theorem stream_letGo (r : Relay) (side : Side) :
    r.letGo.stream side = { r.stream side with sink.ended := true } := by
  cases side <;> rfl

theorem isOver_iff : r.isOver = true ↔ ∀ side, (r.stream side).pump.stage.isOver = true := by
  rw [isOver, Bool.and_eq_true]
  constructor
  · rintro ⟨hup, hdown⟩ (_ | _)
    · exact hup
    · exact hdown
  · exact fun h => ⟨h .client, h .backend⟩

theorem sound_new : ({} : Relay).Sound where
  streams side := by
    cases side <;> exact ⟨rfl, rfl, fun n hn => by cases hn⟩
  reports := by simp
  first o ho := by cases ho
  cancelled hn := by cases hn
  heard _ side ho := by cases side <;> cases ho
  ended hr := by cases hr

theorem Sound.update (h : r.Sound) {s : Stream} (hs : s.Sound)
    (hc : ∀ n, (r.stream side).Complete n → s.Complete n)
    (hh : r.phase = .running → s.pump.stage.isOver = true → ∃ o ∈ r.reports, o.source = side)
    (ho : r.result.isSome → s.pump.stage.isOver = true) : (r.update side s).Sound := by
  have hbears : ∀ o, r.Bears o → (r.update side s).Bears o := by
    intro o hb n hn
    rcases side.eq_or_other o.source with he | he
    · rw [he, stream_update_self]
      exact hc n (he ▸ hb n hn)
    · rw [he, stream_update_other, ← he]
      exact hb n hn
  constructor
  · intro other
    rcases side.eq_or_other other with rfl | rfl
    · rw [stream_update_self]
      exact hs
    · rw [stream_update_other]
      exact h.streams _
  · rw [reports_update]
    exact fun o hm => hbears o (h.reports o hm)
  · rw [phase_update]
    exact fun o hf => hbears o (h.first o hf)
  · rw [phase_update, cancelled_update]
    exact h.cancelled
  · rw [phase_update, reports_update]
    intro hrun other
    rcases side.eq_or_other other with rfl | rfl
    · rw [stream_update_self]
      exact hh hrun
    · rw [stream_update_other]
      exact h.heard hrun _
  · rw [result_update]
    intro hr other
    rcases side.eq_or_other other with rfl | rfl
    · rw [stream_update_self]
      exact ho hr
    · rw [stream_update_other]
      exact h.ended hr _

/-! ### The pumps -/

theorem Sound.move (h : r.Sound) {m : Stream.Move} {s : Stream}
    (hm : (r.stream side).move m = some s) : (r.update side s).Sound := by
  have hover := Stream.isOver_of_move hm
  refine h.update ((h.streams side).move hm) (fun n hc => hc.move (h.streams side) hm) ?_ ?_
  · exact fun hrun ho => h.heard hrun side (hover ▸ ho)
  · exact fun hr => hover ▸ h.ended hr side

theorem Sound.halt (h : r.Sound) {stage : Stage} (hs : stage = .reported ∨ stage = .aborted)
    (hh : r.phase = .running → ∃ o ∈ r.reports, o.source = side) :
    (r.update side { r.stream side with pump.stage := stage }).Sound := by
  have hnone : stage.result? = none := by rcases hs with rfl | rfl <;> rfl
  have hover : stage.isOver = true := by rcases hs with rfl | rfl <;> rfl
  refine h.update ((h.streams side).advance rfl fun n hn => ?_) ?_ ?_ ?_
  · rw [hnone] at hn
    cases hn
  · exact fun n hc => hc.advance rfl
  · exact fun hrun _ => hh hrun
  · exact fun _ => hover

theorem Sound.post (h : r.Sound) {o : RelayOutcome} (ho : r.Bears o) : (r.post o).Sound where
  streams := h.streams
  reports o' hm := (List.mem_append.mp hm).elim (h.reports o') fun hm =>
    List.mem_singleton.mp hm ▸ ho
  first := h.first
  cancelled := h.cancelled
  heard hrun side hs := by
    obtain ⟨o', hm, he⟩ := h.heard hrun side hs
    exact ⟨o', List.mem_append_left _ hm, he⟩
  ended := h.ended

theorem Sound.report (h : r.Sound) {result : CopyResult}
    (hs : (r.stream side).pump.stage = .ended result) :
    ((r.post ⟨side, result⟩).update side
      { r.stream side with pump.stage := .reported }).Sound := by
  have hbears : r.Bears ⟨side, result⟩ := by
    rintro n rfl
    exact (h.streams side).complete n (by rw [hs]; rfl)
  exact (h.post hbears).halt (.inl rfl) fun _ =>
    ⟨_, List.mem_append_right _ (List.mem_singleton_self _), rfl⟩

/-! ### The relay -/

theorem Sound.receive (h : r.Sound) (hs : r.step .receive = some r') : r'.Sound := by
  simp only [step] at hs
  split at hs
  · next first reports hrun hreports =>
    cases hs
    exact {
      streams := h.streams
      reports := fun o hm => h.reports o (hreports ▸ List.mem_cons_of_mem _ hm)
      first := fun o ho => by
        cases ho
        exact h.reports first (hreports ▸ List.mem_cons_self)
      cancelled := fun hn => by cases hn
      heard := fun hrun => by cases hrun
      ended := fun hr => by cases hr }
  · next hrun hreports =>
    simp only [Option.ite_none_right_eq_some] at hs
    obtain ⟨o, hm, -⟩ := h.heard hrun .client (isOver_iff.mp hs.1 .client)
    rw [hreports] at hm
    cases hm
  · cases hs

theorem Sound.stop (h : r.Sound) (hc : r.cancelled = true) :
    { r with phase := .stopping none }.Sound where
  streams := h.streams
  reports := h.reports
  first o ho := by cases ho
  cancelled _ := hc
  heard hrun := by cases hrun
  ended hr := by cases hr

theorem Sound.leave (h : r.Sound) {first : Option RelayOutcome} (hp : r.phase = .stopping first)
    (ho : r.isOver = true) :
    { r.letGo with reports := [], phase := .returned first }.Sound where
  streams side := by
    have hstream : (r.letGo.stream side).Sound := by
      rw [stream_letGo]
      exact (h.streams side).advance rfl (h.streams side).complete
    exact hstream
  reports o hm := by cases hm
  first o hf n hn := by
    have hstream : (r.letGo.stream o.source).Complete n := by
      rw [stream_letGo]
      exact (h.first o (hp ▸ hf) n hn).advance rfl
    exact hstream
  cancelled hn := h.cancelled (hp ▸ hn)
  heard hrun := by cases hrun
  ended _ side := by
    have hstream : (r.letGo.stream side).pump.stage.isOver = true := by
      rw [stream_letGo]
      exact isOver_iff.mp ho side
    exact hstream

theorem Sound.step (h : r.Sound) {e : Event} (hs : r.step e = some r') : r'.Sound := by
  cases e with
  | move side m =>
    obtain ⟨s, hm, rfl⟩ := Option.map_eq_some_iff.mp hs
    exact h.move hm
  | report side =>
    simp only [Relay.step] at hs
    split at hs
    · next result hstage =>
      simp only [Option.ite_none_right_eq_some, Option.some.injEq] at hs
      obtain ⟨-, rfl⟩ := hs
      exact h.report hstage
    · cases hs
  | cancel =>
    cases hs
    exact ⟨h.streams, h.reports, h.first, fun _ => rfl, h.heard, h.ended⟩
  | receive => exact h.receive hs
  | stop =>
    simp only [Relay.step, Option.ite_none_right_eq_some, Option.some.injEq] at hs
    obtain ⟨⟨-, hcancelled⟩, rfl⟩ := hs
    exact h.stop hcancelled
  | abort side =>
    simp only [Relay.step] at hs
    split at hs
    · next first hstopping =>
      simp only [Option.ite_none_left_eq_some, Option.some.injEq] at hs
      obtain ⟨-, rfl⟩ := hs
      refine h.halt (.inr rfl) fun hrun => ?_
      rw [hstopping] at hrun
      cases hrun
    · cases hs
  | leave =>
    simp only [Relay.step] at hs
    split at hs
    · next first hstopping =>
      simp only [Option.ite_none_right_eq_some, Option.some.injEq] at hs
      obtain ⟨hover, rfl⟩ := hs
      exact h.leave hstopping hover
    · cases hs

theorem Sound.run (h : r.Sound) (events : List Event) : (r.run events).Sound := by
  refine List.foldlRecOn events _ h fun r h e _ => ?_
  cases hs : r.step e with
  | none => exact h
  | some r' => exact h.step hs

/-! ### After the relay -/

/-- The relay has returned, and this is what was delivered from each side. -/
structure Settled (r : Relay) (first : Option RelayOutcome) (delivered : Side → Bytes) : Prop where
  sound : r.Sound
  result : r.result = some first
  kept : ∀ side, (r.stream side).delivered = delivered side

theorem Settled.step {first : Option RelayOutcome} {delivered : Side → Bytes} {e : Event}
    (h : r.Settled first delivered) (hs : r.step e = some r') : r'.Settled first delivered := by
  have hover := h.sound.ended (h.result ▸ rfl)
  have hphase := phase_of_result h.result
  have hsound := h.sound.step hs
  cases e with
  | move side m =>
    obtain ⟨s, hm, rfl⟩ := Option.map_eq_some_iff.mp hs
    refine ⟨hsound, by rw [result_update, h.result], fun other => ?_⟩
    rw [← h.kept other]
    rcases side.eq_or_other other with rfl | rfl
    · rw [stream_update_self, Stream.delivered_of_isOver (hover _) hm]
    · rw [stream_update_other]
  | report side =>
    simp only [Relay.step] at hs
    split at hs
    · next result hstage =>
      have hside := hover side
      rw [hstage] at hside
      cases hside
    · cases hs
  | cancel =>
    cases hs
    exact ⟨hsound, h.result, h.kept⟩
  | receive | stop | abort | leave =>
    simp only [Relay.step, hphase, reduceCtorEq, false_and, if_false] at hs

theorem Settled.run {first : Option RelayOutcome} {delivered : Side → Bytes}
    (h : r.Settled first delivered) (events : List Event) :
    (r.run events).Settled first delivered := by
  refine List.foldlRecOn (motive := (Settled · first delivered)) events _ h fun r h e _ => ?_
  cases hs : r.step e with
  | none => exact h
  | some r' => exact h.step hs

/-- Under every schedule each peer receives a prefix of what the other wrote. A byte count that is
returned is the number of all bytes that the source wrote before it closed, and all of them have
arrived; without an outcome the relay was cancelled; and once it has returned, nobody receives
anything more. -/
theorem delivers_in_order (events : List Event) :
    let r := ({} : Relay).run events
    r.backend.received <+: r.client.written ∧
      r.client.received <+: r.backend.written ∧
      (∀ side n, r.result = some (some ⟨side, .ok n⟩) →
        (r.stream side).source.closed = true ∧
          (r.stream side).delivered = (r.stream side).source.written ∧
          n = (r.stream side).source.written.length) ∧
      (r.result = some none → r.cancelled = true) ∧
      ∀ first, r.result = some first → ∀ later, (r.run later).result = some first ∧
        (r.run later).backend.received = r.backend.received ∧
        (r.run later).client.received = r.client.received := by
  intro r
  have h : r.Sound := sound_new.run events
  refine ⟨(h.streams .client).prefix_written, (h.streams .backend).prefix_written, ?_, ?_, ?_⟩
  · intro side n hr
    have hcomplete := h.first ⟨side, .ok n⟩ (congrArg Phase.first? (phase_of_result hr)) n rfl
    exact ⟨hcomplete.closed, hcomplete.delivered, hcomplete.counted⟩
  · exact fun hr => h.cancelled (congrArg Phase.first? (phase_of_result hr))
  · intro first hr later
    have hlater := Settled.run ⟨h, hr, fun _ => rfl⟩ later
    exact ⟨hlater.result, hlater.kept .client, hlater.kept .backend⟩

example : ((({} : Relay).send .client [1, 2]).closeBy .client).result =
    some (some ⟨.client, .ok 2⟩) := by decide

end Relay

end Gateway
