import Gateway.Shutdown
import Mathlib.Data.List.Nodup

/-! Receivers of a signal: each has an identity of its own, and a message that is sent stays with
those who had subscribed until they receive it. -/

namespace Gateway.Shutdown

variable {s : Shutdown} {id other : Nat}

def ids (s : Shutdown) : List Nat := s.receivers.map (·.id)

/-- The receiver with this identity has a message, or the notice that it missed some, to receive. -/
def Pending (s : Shutdown) (id : Nat) : Prop := ∃ r ∈ s.receivers, r.id = id ∧ r.next < s.sent

structure Sound (s : Shutdown) : Prop where
  distinct : s.ids.Nodup
  issued : ∀ id ∈ s.ids, id < s.issued
  seen : ∀ r ∈ s.receivers, r.next ≤ s.sent

/-! ### Receivers that come, go and move on -/

theorem ids_subscribe (s : Shutdown) : s.subscribe.1.ids = s.ids ++ [s.issued] := by
  simp [ids, subscribe]

theorem ids_unsubscribe (s : Shutdown) (id : Nat) :
    (s.unsubscribe id).ids = s.ids.filter (· != id) := by
  simp only [ids, unsubscribe, List.filter_map]
  rfl

theorem ids_moveTo (s : Shutdown) (id next : Nat) : (s.moveTo id next).ids = s.ids := by
  simp only [ids, moveTo, List.map_map]
  refine List.map_congr_left fun r _ => ?_
  simp only [Function.comp_apply]
  split <;> rfl

theorem unsubscribe_moveTo (s : Shutdown) (id next : Nat) :
    (s.moveTo id next).unsubscribe id = s.unsubscribe id := by
  simp only [moveTo, unsubscribe, Shutdown.mk.injEq, true_and, and_true]
  induction s.receivers with
  | nil => rfl
  | cons r rs ih => by_cases hr : r.id = id <;> simp [hr, ih]

theorem Sound.subscribe (h : s.Sound) : s.subscribe.1.Sound where
  distinct := by
    rw [ids_subscribe]
    refine h.distinct.append (List.nodup_singleton _) ?_
    exact List.disjoint_singleton.mpr fun hm => Nat.lt_irrefl _ (h.issued _ hm)
  issued id hid := by
    rw [ids_subscribe, List.mem_append, List.mem_singleton] at hid
    rcases hid with hid | rfl
    · exact Nat.lt_succ_of_lt (h.issued id hid)
    · exact Nat.lt_succ_self _
  seen r hr := by
    rcases List.mem_append.mp hr with hr | hr
    · exact h.seen r hr
    · rw [List.mem_singleton.mp hr]
      exact Nat.le_refl _

theorem Sound.unsubscribe (h : s.Sound) (id : Nat) : (s.unsubscribe id).Sound where
  distinct := by
    rw [ids_unsubscribe]
    exact h.distinct.filter _
  issued other ho := by
    rw [ids_unsubscribe] at ho
    exact h.issued other (List.mem_of_mem_filter ho)
  seen r hr := h.seen r (List.mem_of_mem_filter hr)

theorem Sound.moveTo (h : s.Sound) {next : Nat} (hn : next ≤ s.sent) :
    (s.moveTo id next).Sound where
  distinct := by rw [ids_moveTo]; exact h.distinct
  issued other ho := by rw [ids_moveTo] at ho; exact h.issued other ho
  seen r hr := by
    obtain ⟨old, hold, rfl⟩ := List.mem_map.mp hr
    split
    · exact hn
    · exact h.seen old hold

theorem Pending.subscribe (h : s.Pending id) : s.subscribe.1.Pending id := by
  obtain ⟨r, hr, hid⟩ := h
  exact ⟨r, List.mem_append_left _ hr, hid⟩

theorem Pending.unsubscribe (h : s.Pending id) (hne : id ≠ other) :
    (s.unsubscribe other).Pending id := by
  obtain ⟨r, hr, rfl, hlt⟩ := h
  exact ⟨r, List.mem_filter.mpr ⟨hr, bne_iff_ne.mpr hne⟩, rfl, hlt⟩

theorem Pending.moveTo (h : s.Pending id) (hne : id ≠ other) (next : Nat) :
    (s.moveTo other next).Pending id := by
  obtain ⟨r, hr, rfl, hlt⟩ := h
  exact ⟨r, List.mem_map.mpr ⟨r, hr, if_neg hne⟩, rfl, hlt⟩

/-! ### Sending and receiving -/

theorem Sound.broadcast (h : s.Sound) : s.broadcast.Sound := by
  unfold Shutdown.broadcast
  split
  · exact h
  · exact ⟨h.distinct, h.issued, fun r hr => Nat.le_succ_of_le (h.seen r hr)⟩

theorem ids_broadcast (s : Shutdown) : s.broadcast.ids = s.ids := by
  unfold broadcast
  split <;> rfl

theorem fired_broadcast (s : Shutdown) : s.broadcast.fired = s.fired := by
  unfold broadcast
  split <;> rfl

/-- A message reaches everyone who has subscribed: if it is lost, nobody has. -/
theorem Sound.pending_broadcast (h : s.Sound) (hid : id ∈ s.ids) : s.broadcast.Pending id := by
  obtain ⟨r, hr, rfl⟩ := List.mem_map.mp hid
  have hsome : s.receivers.isEmpty = false := List.isEmpty_eq_false_iff.mpr (List.ne_nil_of_mem hr)
  simp only [Shutdown.broadcast, hsome]
  exact ⟨r, hr, rfl, Nat.lt_succ_of_le (h.seen r hr)⟩

theorem Sound.find?_of_mem (h : s.Sound) {r : Receiver} (hr : r ∈ s.receivers) :
    s.receivers.find? (·.id == r.id) = some r := by
  have hsome : (s.receivers.find? (·.id == r.id)).isSome :=
    List.find?_isSome.mpr ⟨r, hr, beq_iff_eq.mpr rfl⟩
  obtain ⟨found, hf⟩ := Option.isSome_iff_exists.mp hsome
  have hid : found.id = r.id := by simpa using List.find?_some hf
  rw [hf, List.inj_on_of_nodup_map h.distinct (List.mem_of_find?_eq_some hf) hr hid]

theorem receive_cases (s : Shutdown) (id : Nat) :
    s.receive id = (s, none) ∨ ∃ next notice, s.receive id = (s.moveTo id next, some notice) ∧
      next ≤ s.sent ∧ 0 < s.sent := by
  unfold receive
  split
  · exact .inl rfl
  · split
    · exact .inl rfl
    · split
      · exact .inr ⟨_, _, rfl, Nat.le_refl _, by omega⟩
      · exact .inr ⟨_, _, rfl, by omega, by omega⟩

theorem Pending.receive (h : s.Pending id) (hs : s.Sound) :
    ∃ next notice, s.receive id = (s.moveTo id next, some notice) := by
  obtain ⟨r, hr, rfl, hlt⟩ := h
  simp only [Shutdown.receive, hs.find?_of_mem hr, if_neg (Nat.not_le.mpr hlt)]
  split
  · exact ⟨_, _, rfl⟩
  · exact ⟨_, _, rfl⟩

end Gateway.Shutdown
