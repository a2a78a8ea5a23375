import Gateway.Proofs.Balance.History
import Mathlib.Data.Int.CardIntervalMod

/-! Choosing in turn. After any history the next target is the one whose position is the number of
choices so far, modulo the number of targets, and a run of choices is spread evenly over the targets. -/

namespace Gateway.Balancer

namespace History

def chosen? : Op × Answer → Option Target
  | (.next _, .chosen t) => t
  | _ => none

def chosen (log : List (Op × Answer)) : List Target := log.filterMap chosen?

theorem chosen_append (log later : List (Op × Answer)) :
    chosen (log ++ later) = chosen log ++ chosen later := List.filterMap_append

end History

open History

/-! ### The position -/

variable {b : Balancer}

theorem next_snd_inTurn (inTurn : b.kind = .roundRobin) (draw : Nat) :
    (b.next draw).2 = b.targets[b.turn % b.targets.length]? := by
  unfold next
  rw [inTurn]
  cases hb : b.targets with
  | nil => rfl
  | cons t ts => rfl

theorem next_fst_inTurn (inTurn : b.kind = .roundRobin) (draw : Nat) :
    (b.next draw).1 =
      if b.targets = [] then b else { b with turn := (b.turn + 1) % 2 ^ 64 } := by
  unfold next
  rw [inTurn]
  by_cases hb : b.targets = []
  · simp [hb]
  · simp [hb]

theorem getElem?_turn (present : b.targets ≠ []) (turn : Nat) :
    ∃ h : turn % b.targets.length < b.targets.length,
      b.targets[turn % b.targets.length]? = some b.targets[turn % b.targets.length] :=
  have hlt := Nat.mod_lt turn (List.length_pos_iff.mpr present)
  ⟨hlt, List.getElem?_eq_getElem hlt⟩

theorem turn_apply (inTurn : b.kind = .roundRobin) (word : b.turn < 2 ^ 64) (op : Op) :
    (b.apply op).1.turn = (b.turn + (chosen [(op, (b.apply op).2)]).length) % 2 ^ 64 := by
  have hkept : b.turn = (b.turn + 0) % 2 ^ 64 := (Nat.mod_eq_of_lt word).symm
  cases op with
  | add t =>
    have hturn : (b.add t).1.turn = b.turn := by
      unfold Balancer.add
      split <;> rfl
    exact hturn.trans hkept
  | remove name => exact hkept
  | next draw =>
    have hlog : chosen [(.next draw, (b.apply (.next draw)).2)] =
        b.targets[b.turn % b.targets.length]?.toList := by
      change ([(b.next draw).2].filterMap id) = _
      rw [next_snd_inTurn inTurn, List.filterMap_eq_flatMap_toList]
      simp
    have hturn : (b.apply (.next draw)).1 = (b.next draw).1 := rfl
    rw [hlog, hturn, next_fst_inTurn inTurn]
    by_cases hb : b.targets = []
    · rw [if_pos hb, hb]
      exact hkept
    · obtain ⟨_, hget⟩ := getElem?_turn hb b.turn
      rw [if_neg hb, hget]
      rfl

theorem turn_run (ops : List Op) :
    (({ kind := .roundRobin } : Balancer).run ops).turn =
      (chosen (({ kind := .roundRobin } : Balancer).history ops)).length % 2 ^ 64 := by
  induction ops using List.reverseRecOn with
  | nil => rfl
  | append_singleton ops op ih =>
    have hword : (({ kind := .roundRobin } : Balancer).run ops).turn < 2 ^ 64 := by
      rw [ih]
      exact Nat.mod_lt _ (by decide)
    rw [run_concat, history_concat, turn_apply (holds_run .roundRobin ops).kind_eq hword, ih,
      Nat.mod_add_mod, chosen_append, List.length_append]

/-! ### A run of choices -/

/-- As long as the counter does not wrap, a run of choices goes through the positions from the turn
on, modulo the number of targets. -/
theorem chosen_nexts (inTurn : b.kind = .roundRobin) (present : b.targets ≠ []) {draws : List Nat}
    (few : b.turn + draws.length ≤ 2 ^ 64) :
    chosen (b.history (draws.map .next)) =
      (List.range' b.turn draws.length).filterMap fun i => b.targets[i % b.targets.length]? := by
  induction draws generalizing b with
  | nil => rfl
  | cons draw draws ih =>
    have hhead : chosen? (.next draw, (b.apply (.next draw)).2) =
        b.targets[b.turn % b.targets.length]? := next_snd_inTurn inTurn draw
    have hnext : (b.apply (.next draw)).1 = { b with turn := (b.turn + 1) % 2 ^ 64 } :=
      (next_fst_inTurn inTurn draw).trans (if_neg present)
    rw [List.length_cons] at few
    have htail : chosen ((b.apply (.next draw)).1.history (draws.map .next)) =
        (List.range' (b.turn + 1) draws.length).filterMap
          fun i => b.targets[i % b.targets.length]? := by
      rw [hnext]
      rcases draws with _ | ⟨draw', draws⟩
      · rfl
      · rw [List.length_cons] at few
        have hturn : (b.turn + 1) % 2 ^ 64 = b.turn + 1 := Nat.mod_eq_of_lt (by omega)
        rw [hturn]
        exact ih (b := { b with turn := b.turn + 1 }) inTurn present
          (by simp only [List.length_cons]; omega)
    rw [List.map_cons, history, List.length_cons, List.range'_succ, List.filterMap_cons]
    rw [chosen, List.filterMap_cons, hhead, ← chosen, htail]

theorem countP_range' (p : Nat → Bool) (start n : Nat) :
    (List.range' start n).countP p + Nat.count (fun i => p i) start =
      Nat.count (fun i => p i) (start + n) := by
  rw [Nat.count_add, Nat.add_comm, List.range'_eq_map_range, List.countP_map]
  simp [Nat.count, Function.comp_def]

theorem count_chosen_nexts (inTurn : b.kind = .roundRobin) (distinct : b.targets.Nodup)
    {draws : List Nat} (few : b.turn + draws.length ≤ 2 ^ 64) {j : Nat} (h : j < b.targets.length) :
    let n := b.targets.length
    let last := b.turn + draws.length
    (chosen (b.history (draws.map .next))).count b.targets[j] +
        (b.turn / n + if j < b.turn % n then 1 else 0) =
      last / n + if j < last % n then 1 else 0 := by
  intro n last
  have hpresent : b.targets ≠ [] := List.ne_nil_of_length_pos (by omega)
  have hcount : ∀ k, Nat.count (fun i => (b.targets[i % n]? == some b.targets[j])) k =
      k / n + if j < k % n then 1 else 0 := by
    intro k
    have hiff : ∀ i, (b.targets[i % n]? == some b.targets[j]) = true ↔ i ≡ j [MOD n] := by
      intro i
      have hi : i % n < b.targets.length := Nat.mod_lt _ (by omega)
      rw [beq_iff_eq, List.getElem?_eq_getElem hi, Option.some.injEq, distinct.getElem_inj_iff,
        Nat.ModEq, Nat.mod_eq_of_lt h]
    simp only [hiff]
    rw [Nat.count_modEq_card k (by omega), Nat.mod_eq_of_lt h]
  rw [chosen_nexts inTurn hpresent few, List.count_filterMap, ← hcount, ← hcount]
  exact countP_range' _ _ _

theorem count_chosen_nexts_le (inTurn : b.kind = .roundRobin) (distinct : b.targets.Nodup)
    {draws : List Nat} (few : b.turn + draws.length ≤ 2 ^ 64) {t u : Target} (ht : t ∈ b.targets)
    (hu : u ∈ b.targets) :
    (chosen (b.history (draws.map .next))).count t ≤
      (chosen (b.history (draws.map .next))).count u + 1 := by
  obtain ⟨i, hi, rfl⟩ := List.mem_iff_getElem.mp ht
  obtain ⟨j, hj, rfl⟩ := List.mem_iff_getElem.mp hu
  have hti := count_chosen_nexts inTurn distinct few hi
  have huj := count_chosen_nexts inTurn distinct few hj
  dsimp only at hti huj
  split at hti <;> split at hti <;> split at huj <;> split at huj <;> omega

theorem chosen_nexts_perm (inTurn : b.kind = .roundRobin) (distinct : b.targets.Nodup)
    {draws : List Nat} (few : b.turn + draws.length ≤ 2 ^ 64)
    (round : draws.length = b.targets.length) :
    (chosen (b.history (draws.map .next))).Perm b.targets := by
  by_cases hempty : b.targets = []
  · obtain rfl : draws = [] := by simpa [hempty] using round
    rw [hempty]
    rfl
  refine List.perm_iff_count.mpr fun t => ?_
  by_cases ht : t ∈ b.targets
  · obtain ⟨j, hj, rfl⟩ := List.mem_iff_getElem.mp ht
    have hcount := count_chosen_nexts inTurn distinct few hj
    dsimp only at hcount
    rw [round, Nat.add_mod_right, Nat.add_div_right _ (by omega)] at hcount
    rw [distinct.count, if_pos ht]
    omega
  · rw [List.count_eq_zero_of_not_mem ht, List.count_eq_zero, chosen_nexts inTurn hempty few]
    intro hmem
    obtain ⟨i, -, hi⟩ := List.mem_filterMap.mp hmem
    exact ht (List.mem_of_getElem? hi)

/-- Whatever targets were added, removed and chosen before, a balancer in turn has a target exactly
when one is present, and it is the one at the number of choices so far, modulo the number of targets
present in the order of adding. In a run of choices no target is chosen twice more than another, and
in a run of as many choices as there are targets each is chosen once. -/
theorem chooses_in_turn (before : List Op) :
    let b := ({ kind := .roundRobin } : Balancer).run before
    let log := ({ kind := .roundRobin } : Balancer).history before
    let held := present log
    let k := (chosen log).length
    k < 2 ^ 64 →
    (∀ draw, ((b.next draw).2 = none ↔ held = []) ∧
      (held ≠ [] → ∃ h : k % held.length < held.length,
        (b.next draw).2 = some held[k % held.length])) ∧
    ∀ draws : List Nat, k + draws.length ≤ 2 ^ 64 →
      let run := chosen (b.history (draws.map .next))
      (∀ t ∈ held, ∀ u ∈ held, run.count t ≤ run.count u + 1) ∧
      (draws.length = held.length → run.Perm held) := by
  intro b log held k few
  have hb : b.Holds .roundRobin log := holds_run .roundRobin before
  have hturn : b.turn = k := (turn_run before).trans (Nat.mod_eq_of_lt few)
  have hheld : b.targets = held := hb.targets_eq
  have hdistinct : b.targets.Nodup := hb.distinct.of_map _
  clear_value held k
  subst hheld hturn
  refine ⟨fun draw => ?_, fun draws hdraws => ⟨fun t ht u hu => ?_, fun round => ?_⟩⟩
  · rw [next_snd_inTurn hb.kind_eq]
    by_cases hempty : b.targets = []
    · simp [hempty]
    · obtain ⟨hlt, hget⟩ := getElem?_turn hempty b.turn
      rw [hget]
      exact ⟨iff_of_false (by simp) hempty, fun _ => ⟨hlt, rfl⟩⟩
  · exact count_chosen_nexts_le hb.kind_eq hdistinct hdraws ht hu
  · exact chosen_nexts_perm hb.kind_eq hdistinct hdraws round

def node (name : String) : Target :=
  ⟨name, { scheme := "http", slashes := true, host := some name, path := "/" }, none⟩

def shrunk : List Op :=
  [.next 0, .add (node "a"), .add (node "b"), .add (node "c"), .next 0, .next 0, .remove "c"]

theorem chooses_in_turn_shrunk :
    let b := ({ kind := .roundRobin } : Balancer).run shrunk
    (chosen (({ kind := .roundRobin } : Balancer).history shrunk)).length = 2 ∧
    (∀ draw, (b.next draw).2 = some (node "a")) ∧
    ∀ draws : List Nat, draws.length = 2 →
      (chosen (b.history (draws.map .next))).Perm [node "a", node "b"] := by
  intro b
  have hk : (chosen (({ kind := .roundRobin } : Balancer).history shrunk)).length = 2 := by
    decide +kernel
  have hheld : present (({ kind := .roundRobin } : Balancer).history shrunk) =
      [node "a", node "b"] := by decide +kernel
  obtain ⟨hnext, hrun⟩ := chooses_in_turn shrunk (by rw [hk]; decide)
  refine ⟨hk, fun draw => ?_, fun draws hdraws => ?_⟩
  · obtain ⟨hlt, hsome⟩ := (hnext draw).2 (by rw [hheld]; simp)
    simp only [hk, hheld] at hsome
    exact hsome
  · have hperm := (hrun draws (by rw [hk, hdraws]; decide)).2
    rw [hheld] at hperm
    exact hperm hdraws

end Gateway.Balancer
