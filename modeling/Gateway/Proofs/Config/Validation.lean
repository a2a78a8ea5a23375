import Gateway.Config.Validation
import Mathlib.Data.List.Nodup

/-! What a configuration without problems is known to be. -/

namespace Gateway.Config

theorem check_eq_nil {holds : Bool} {field message : String} :
    check holds field message = [] ↔ holds = true := by
  unfold check
  split <;> simp_all

/-- Plain HTTP or WebSocket, with a host. -/
def Forwardable (u : Url) : Prop := (u.scheme = "http" ∨ u.scheme = "ws") ∧ u.host.isSome = true

theorem urlProblems_eq_nil {path url : String} (h : urlProblems path url = []) :
    ∃ u, Url.parse url = .ok u ∧ Forwardable u := by
  unfold urlProblems at h
  split at h
  · cases h
  · next u hu =>
    split at h
    · cases h
    · next hscheme => exact ⟨u, hu, by tauto, check_eq_nil.mp h⟩

theorem weightProblems_eq_nil {path : String} {weight : Option Binary64}
    (h : weightProblems path weight = []) :
    ∃ w, weight = some w ∧ w.isFinite = true ∧ (0 : Binary64) ≤ w := by
  cases weight with
  | none => cases h
  | some w =>
    obtain ⟨hf, hw⟩ := (Bool.and_eq_true_iff).mp (check_eq_nil.mp h)
    exact ⟨w, rfl, hf, of_decide_eq_true hw⟩

theorem nodup_map_of_take {α β : Type} {key : α → β} {l : List α}
    (h : ∀ i a, l[i]? = some a → key a ∉ (l.take i).map key) : (l.map key).Nodup := by
  refine List.pairwise_iff_getElem.mpr fun i j hi hj hij heq => ?_
  have hj' : j < l.length := by simpa using hj
  refine h j l[j] (List.getElem?_eq_getElem hj') ?_
  have hmem : l[i] ∈ l.take j := List.mem_take_iff_getElem.mpr ⟨i, by omega, rfl⟩
  have hkey : key l[i] = key l[j] := by simpa using heq
  exact hkey ▸ List.mem_map_of_mem hmem

/-- A route that has everything it takes to forward requests. -/
structure ProxyRoute.Usable (r : ProxyRoute) : Prop where
  methods : ∀ m ∈ r.methods, Method.ofText? m = some m
  targets : r.targets ≠ []
  names : (r.targets.map (·.name)).Nodup
  urls : ∀ t ∈ r.targets, ∃ u, Url.parse t.url = .ok u ∧ Forwardable u
  weights : r.balancer = .weighted → ∀ t ∈ r.targets,
    ∃ w, t.weight = some w ∧ w.isFinite = true ∧ (0 : Binary64) ≤ w

theorem ofText?_of_isSome {m : String} (h : (Method.ofText? m).isSome = true) :
    Method.ofText? m = some m := by
  unfold Method.ofText? at h ⊢
  split at h
  · next hc => exact if_pos hc
  · cases h

theorem ProxyRoute.usable {r : ProxyRoute} {path : String} (h : r.problems path = []) :
    r.Usable := by
  unfold ProxyRoute.problems at h
  simp only [List.append_eq_nil_iff, List.flatMap_eq_nil_iff, check_eq_nil] at h
  obtain ⟨⟨⟨⟨-, hmethods⟩, hsome⟩, htargets⟩, -⟩ := h
  have htarget : ∀ i t, r.targets[i]? = some t →
      t.name ∉ (r.targets.take i).map (·.name) ∧
        (∃ u, Url.parse t.url = .ok u ∧ Forwardable u) ∧
        (r.balancer = .weighted →
          ∃ w, t.weight = some w ∧ w.isFinite = true ∧ (0 : Binary64) ≤ w) := by
    intro i t ht
    have hp := htargets (t, i) (List.mk_mem_zipIdx_iff_getElem?.mpr ht)
    simp only [TargetEntry.problems, List.append_eq_nil_iff, check_eq_nil] at hp
    obtain ⟨⟨hname, hurl⟩, hweight⟩ := hp
    refine ⟨by simpa using hname, urlProblems_eq_nil hurl, fun hkind => ?_⟩
    rw [if_pos hkind] at hweight
    exact weightProblems_eq_nil hweight
  have hmem : ∀ t ∈ r.targets, ∃ i, r.targets[i]? = some t := fun t ht =>
    List.getElem?_of_mem ht
  refine ⟨fun m hm => ofText?_of_isSome (hmethods m hm), by simpa using hsome, ?_, ?_, ?_⟩
  · exact nodup_map_of_take fun i t ht => (htarget i t ht).1
  · intro t ht
    obtain ⟨i, hi⟩ := hmem t ht
    exact (htarget i t hi).2.1
  · intro hkind t ht
    obtain ⟨i, hi⟩ := hmem t ht
    exact (htarget i t hi).2.2 hkind

theorem usable_of_no_problems {c : Config} (h : c.problems = []) :
    (∀ r ∈ c.proxies, r.Usable) ∧ ∀ m ∈ c.staticFiles, hasParameter m.mount = false := by
  unfold problems at h
  simp only [List.append_eq_nil_iff, List.flatMap_eq_nil_iff, check_eq_nil] at h
  obtain ⟨⟨-, hproxies⟩, hfiles⟩ := h
  constructor
  · intro r hr
    obtain ⟨i, hi⟩ := List.getElem?_of_mem hr
    exact ProxyRoute.usable (hproxies (r, i) (List.mk_mem_zipIdx_iff_getElem?.mpr hi))
  · intro m hm
    obtain ⟨i, hi⟩ := List.getElem?_of_mem hm
    have hp := hfiles (m, i) (List.mk_mem_zipIdx_iff_getElem?.mpr hi)
    simp only [StaticMount.problems, List.append_eq_nil_iff, check_eq_nil] at hp
    simpa using hp.2

end Gateway.Config
