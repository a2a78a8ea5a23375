import Gateway.Proofs.Balance.Build
import Gateway.Proofs.Balance.Choice
import Mathlib.Data.List.Induction

/-! What a balancer holds after any number of clients have added, removed and chosen targets: those
that were added and not removed since, in the order in which they were added. -/

namespace Gateway.Balancer

/-- What a client asks of a balancer; a choice is made by its draw. -/
inductive Op where
  | add (t : Target)
  | remove (name : String)
  | next (draw : Nat)

inductive Answer where
  | added (success : Bool)
  | removed (success : Bool)
  | chosen (target : Option Target)

def apply (b : Balancer) : Op → Balancer × Answer
  | .add t => ((b.add t).1, .added (b.add t).2)
  | .remove name => ((b.remove name).1, .removed (b.remove name).2)
  | .next draw => ((b.next draw).1, .chosen (b.next draw).2)

def run (b : Balancer) (ops : List Op) : Balancer := ops.foldl (fun b op => (b.apply op).1) b

def history (b : Balancer) : List Op → List (Op × Answer)
  | [] => []
  | op :: ops => (op, (b.apply op).2) :: (b.apply op).1.history ops

namespace History

def added? : Op × Answer → Option Target
  | (.add t, .added true) => some t
  | _ => none

def refused? : Op × Answer → Option Target
  | (.add t, .added false) => some t
  | _ => none

def changed? : Op × Answer → Option String
  | (.add t, .added true) => some t.name
  | (.remove name, .removed true) => some name
  | _ => none

/-- The targets that were added and have neither been removed nor added again since, in the order in
which they were added. -/
def present : List (Op × Answer) → List Target
  | [] => []
  | e :: later =>
    match added? e with
    | some t => if later.any (changed? · == some t.name) then present later else t :: present later
    | none => present later

theorem present_concat (log : List (Op × Answer)) (e : Op × Answer) :
    present (log ++ [e]) =
      (present log).filter (fun t => changed? e != some t.name) ++ (added? e).toList := by
  induction log with
  | nil => cases h : added? e <;> simp [present, h]
  | cons first log ih =>
    simp only [List.cons_append, present, ih, List.any_append, List.any_cons, List.any_nil,
      Bool.or_false]
    cases added? first with
    | none => rfl
    | some t =>
      simp only []
      by_cases hlog : log.any (changed? · == some t.name) = true
      · simp [hlog]
      · by_cases he : changed? e = some t.name <;> simp [hlog, he]

theorem present_concat_of_unchanged {log : List (Op × Answer)} {e : Op × Answer}
    (hadd : added? e = none) (hc : changed? e = none) : present (log ++ [e]) = present log := by
  rw [present_concat, hadd, hc, Option.toList_none, List.append_nil]
  exact List.filter_eq_self.mpr fun _ _ => rfl

end History

theorem run_concat (b : Balancer) (ops : List Op) (op : Op) :
    b.run (ops ++ [op]) = ((b.run ops).apply op).1 := by
  simp only [run, List.foldl_append, List.foldl_cons, List.foldl_nil]

theorem history_concat (b : Balancer) (ops : List Op) (op : Op) :
    b.history (ops ++ [op]) = b.history ops ++ [(op, ((b.run ops).apply op).2)] := by
  induction ops generalizing b with
  | nil => rfl
  | cons first ops ih => simp only [List.cons_append, history, ih, run, List.foldl_cons]

/-! ### One operation -/

variable {b : Balancer}

theorem accepts_iff {kind : BalancerKind} {t : Target} :
    accepts kind t = true ↔
      (kind = .weighted → ∃ w, t.weight = some w ∧ w.isFinite = true ∧ 0 ≤ w) := by
  cases kind <;> cases hw : t.weight <;> simp [accepts, hw]

theorem add_of_refused {t : Target} (h : ¬ (accepts b.kind t = true ∧ t.name ∉ b.set.names)) :
    b.add t = (b, false) := by
  unfold add
  split
  · next ha =>
    have hmem : t.name ∈ b.set.names := not_not.mp fun hn => h ⟨ha, hn⟩
    simp only [TargetSet.add, List.contains_iff_mem, hmem, if_true]
  · rfl

theorem add_snd_iff {t : Target} :
    (b.add t).2 = true ↔ t.name ∉ b.set.names ∧
      (b.kind = .weighted → ∃ w, t.weight = some w ∧ w.isFinite = true ∧ 0 ≤ w) := by
  rw [← accepts_iff, and_comm]
  by_cases h : accepts b.kind t = true ∧ t.name ∉ b.set.names
  · rw [add_of_accepts h.1 h.2]
    exact iff_of_true rfl h
  · rw [add_of_refused h]
    exact iff_of_false (by simp) h

theorem add_fst {t : Target} :
    ((b.add t).2 = true → (b.add t).1 = { b with set := ⟨b.targets ++ [t]⟩ }) ∧
      ((b.add t).2 = false → (b.add t).1 = b) := by
  by_cases h : accepts b.kind t = true ∧ t.name ∉ b.set.names
  · rw [add_of_accepts h.1 h.2]
    exact ⟨fun _ => rfl, by simp⟩
  · rw [add_of_refused h]
    exact ⟨by simp, fun _ => rfl⟩

theorem remove_snd_iff {name : String} : (b.remove name).2 = true ↔ name ∈ b.set.names :=
  List.contains_iff_mem

theorem next_fst (b : Balancer) (draw : Nat) :
    (b.next draw).1.set = b.set ∧ (b.next draw).1.kind = b.kind := by
  unfold next
  split
  · split <;> exact ⟨rfl, rfl⟩
  · exact ⟨rfl, rfl⟩
  · exact ⟨rfl, rfl⟩

/-! ### Any number of them -/

/-- The targets have different names and are those that the history leaves. -/
structure Holds (b : Balancer) (kind : BalancerKind) (log : List (Op × Answer)) : Prop where
  kind_eq : b.kind = kind
  distinct : b.set.names.Nodup
  targets_eq : b.targets = History.present log

open History

theorem Holds.add {kind : BalancerKind} {log : List (Op × Answer)} (h : b.Holds kind log)
    (t : Target) : (b.add t).1.Holds kind (log ++ [(.add t, .added (b.add t).2)]) := by
  obtain ⟨htaken, hrefused⟩ := b.add_fst (t := t)
  cases hadd : (b.add t).2 with
  | true =>
    obtain ⟨hnew, -⟩ := add_snd_iff.mp hadd
    rw [htaken hadd]
    exact {
      kind_eq := h.kind_eq
      distinct := by
        rw [TargetSet.names, List.map_append]
        exact h.distinct.append (List.nodup_singleton _) (List.disjoint_singleton.mpr hnew)
      targets_eq := by
        rw [present_concat, ← h.targets_eq, List.filter_eq_self.mpr]
        · rfl
        · intro u hu
          refine bne_iff_ne.mpr fun he => hnew ?_
          rw [Option.some.inj he]
          exact List.mem_map_of_mem hu }
  | false =>
    rw [hrefused hadd]
    exact ⟨h.kind_eq, h.distinct, h.targets_eq.trans (present_concat_of_unchanged rfl rfl).symm⟩

theorem Holds.remove {kind : BalancerKind} {log : List (Op × Answer)} (h : b.Holds kind log)
    (name : String) :
    (b.remove name).1.Holds kind (log ++ [(.remove name, .removed (b.remove name).2)]) where
  kind_eq := h.kind_eq
  distinct := h.distinct.sublist (List.filter_sublist.map _)
  targets_eq := by
    have htargets : (b.remove name).1.targets = b.targets.filter (·.name != name) := rfl
    rw [htargets]
    cases hr : (b.remove name).2 with
    | true =>
      rw [present_concat, ← h.targets_eq]
      refine (List.filter_congr fun u _ => ?_).trans (List.append_nil _).symm
      rw [Bool.eq_iff_iff, bne_iff_ne, bne_iff_ne]
      exact not_congr ⟨fun he => congrArg some he.symm, fun he => (Option.some.inj he).symm⟩
    | false =>
      rw [present_concat_of_unchanged rfl rfl, ← h.targets_eq]
      refine List.filter_eq_self.mpr fun u hu => bne_iff_ne.mpr ?_
      rintro rfl
      have hmem : u.name ∈ b.set.names := List.mem_map_of_mem hu
      rw [remove_snd_iff.mpr hmem] at hr
      cases hr

theorem Holds.next {kind : BalancerKind} {log : List (Op × Answer)} (h : b.Holds kind log)
    (draw : Nat) :
    (b.next draw).1.Holds kind (log ++ [(.next draw, .chosen (b.next draw).2)]) := by
  obtain ⟨hset, hkind⟩ := b.next_fst draw
  exact {
    kind_eq := hkind.trans h.kind_eq
    distinct := by rw [hset]; exact h.distinct
    targets_eq := by
      rw [present_concat_of_unchanged rfl rfl, targets, hset]
      exact h.targets_eq }

theorem holds_run (kind : BalancerKind) (ops : List Op) :
    (({ kind } : Balancer).run ops).Holds kind (({ kind } : Balancer).history ops) := by
  induction ops using List.reverseRecOn with
  | nil => exact ⟨rfl, List.nodup_nil, rfl⟩
  | append_singleton ops op ih =>
    rw [run_concat, history_concat]
    cases op with
    | add t => exact ih.add t
    | remove name => exact ih.remove name
    | next draw => exact ih.next draw

/-! ### Building -/

theorem foldl_offer_eq (b : Balancer) (refused ts : List Target) :
    ts.foldl offer (b, refused) =
      (b.run (ts.map .add), refused ++ (b.history (ts.map .add)).filterMap refused?) := by
  induction ts generalizing b refused with
  | nil => simp [run, history]
  | cons t ts ih =>
    rw [List.foldl_cons, List.map_cons, history, run, List.foldl_cons, List.filterMap_cons]
    have hoffer : offer (b, refused) t =
        ((b.add t).1, if (b.add t).2 then refused else refused ++ [t]) := rfl
    rw [hoffer, ih]
    cases hadd : (b.add t).2 with
    | true => simp [apply, hadd, refused?, run]
    | false => simp [apply, hadd, refused?, run]

/-- After any operations of any clients, a balancer holds the targets that were added and not
removed since, in the order of adding, and no name twice. A target is taken if its name is free and
its weight suits the kind, and else nothing changes; one that is removed leaves the others in their
order; one that is chosen is there. A balancer that is built with targets takes and refuses them as
when they are added one by one. -/
theorem targets_in_order (kind : BalancerKind) (ops : List Op) :
    let b := ({ kind } : Balancer).run ops
    b.set.names.Nodup ∧
    b.targets = present (({ kind } : Balancer).history ops) ∧
    (∀ t, ((b.add t).2 = true ↔ t.name ∉ b.set.names ∧
        (kind = .weighted → ∃ w, t.weight = some w ∧ w.isFinite = true ∧ 0 ≤ w)) ∧
      ((b.add t).2 = true → (b.add t).1 = { b with set := ⟨b.targets ++ [t]⟩ }) ∧
      ((b.add t).2 = false → (b.add t).1 = b)) ∧
    (∀ name, ((b.remove name).2 = true ↔ name ∈ b.set.names) ∧
      (b.remove name).1 = { b with set := ⟨b.targets.filter (·.name != name)⟩ }) ∧
    (∀ draw, (b.next draw).1.targets = b.targets ∧
      ∀ t, (b.next draw).2 = some t → t ∈ b.targets) ∧
    ∀ ts, build kind ts =
      (({ kind } : Balancer).run (ts.map .add),
        (({ kind } : Balancer).history (ts.map .add)).filterMap refused?) := by
  intro b
  have hb : b.Holds kind (({ kind } : Balancer).history ops) := holds_run kind ops
  refine ⟨hb.distinct, hb.targets_eq, fun t => ⟨hb.kind_eq ▸ add_snd_iff, add_fst⟩,
    fun name => ⟨remove_snd_iff, rfl⟩, fun draw => ⟨?_, fun t => mem_of_next⟩,
    fun ts => foldl_offer_eq { kind } [] ts⟩
  rw [targets, (b.next_fst draw).1]
  rfl

end Gateway.Balancer
