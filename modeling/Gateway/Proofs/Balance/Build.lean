import Gateway.Balance.Balancer
import Mathlib.Data.List.Nodup

/-! Which targets a new balancer takes. -/

namespace Gateway.Balancer

theorem add_of_accepts {b : Balancer} {t : Target} (ha : accepts b.kind t = true)
    (hn : t.name ∉ b.set.names) : b.add t = ({ b with set := ⟨b.targets ++ [t]⟩ }, true) := by
  have hset : b.set.add t = (⟨b.targets ++ [t]⟩, true) := by
    simp only [TargetSet.add, List.contains_iff_mem, hn, if_false]
    rfl
  simp [add, ha, hset]

theorem foldl_offer {kind : BalancerKind} {ts taken refused : List Target}
    (ha : ∀ t ∈ ts, accepts kind t = true) (hn : ((taken ++ ts).map (·.name)).Nodup) :
    ts.foldl offer ({ kind, set := ⟨taken⟩ }, refused) =
      ({ kind, set := ⟨taken ++ ts⟩ }, refused) := by
  induction ts generalizing taken with
  | nil => simp
  | cons t ts ih =>
    obtain ⟨hat, hats⟩ := List.forall_mem_cons.mp ha
    have hname : t.name ∉ taken.map (·.name) := by
      simp only [List.map_append, List.map_cons] at hn
      exact fun hm => (List.nodup_append.mp hn).2.2 _ hm _ List.mem_cons_self rfl
    have hadd : Balancer.add { kind, set := ⟨taken⟩ } t =
        ({ kind, set := ⟨taken ++ [t]⟩ }, true) := add_of_accepts hat hname
    have hstep : offer ({ kind, set := ⟨taken⟩ }, refused) t =
        ({ kind, set := ⟨taken ++ [t]⟩ }, refused) := by simp [offer, hadd]
    rw [List.foldl_cons, hstep, ih hats (by simpa using hn), List.append_assoc]
    rfl

/-- Targets that the kind accepts and whose names differ are all taken, in their order. -/
theorem build_of_accepts {kind : BalancerKind} {ts : List Target}
    (ha : ∀ t ∈ ts, accepts kind t = true) (hn : (ts.map (·.name)).Nodup) :
    build kind ts = ({ kind, set := ⟨ts⟩ }, []) := foldl_offer ha hn

end Gateway.Balancer
