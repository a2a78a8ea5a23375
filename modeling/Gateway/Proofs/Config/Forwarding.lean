import Gateway.Proofs.Balance.Choice
import Gateway.Proofs.Config.Startup
import Gateway.Proxy.Outbound

/-! Where the proxy routes of a configuration without problems forward to. Each of them has targets
with a host and a scheme, and chooses one of them every time, unless all of its weights are zero. -/

namespace Gateway

namespace Outbound

theorem scheme?_of_forwardable {base : Url} (h : Config.Forwardable base) :
    scheme? base.scheme = some "http" := by
  rcases h.1 with hs | hs <;> rw [hs] <;> rfl

theorem uri_of_forwardable {base : Url} (h : Config.Forwardable base) (incoming : Uri) :
    (∃ u, uri base incoming = .ok u) ∨
      uri base incoming =
        .error (.invalidTarget base.text "request does not form a valid upstream URI") := by
  obtain ⟨host, hhost⟩ := Option.isSome_iff_exists.mp h.2
  unfold uri
  rw [hhost, scheme?_of_forwardable h]
  dsimp only
  split
  · next u _ => exact .inl ⟨u, rfl⟩
  · exact .inr rfl

end Outbound

namespace Startup

/-- A route of a configuration without problems gets a balancer that takes all of its targets. In any
turn and for any draw it chooses one of them, to which a request can be made, unless it goes by
weights and none of them is positive. -/
theorem next_forwards {c : Config} (valid : c.problems = []) {p : Config.ProxyRoute}
    (listed : p ∈ c.proxies) :
    ∃ b, balancer p = .ok b ∧ ∀ turn draw, draw < 0x20000000000000 →
      let chosen := ({ b with turn }.next draw).2
      (chosen = none ↔
        p.balancer = .weighted ∧ ∀ e ∈ p.targets, ∀ w, e.weight = some w → ¬ 0 < w) ∧
      ∀ t, chosen = some t →
        (∃ e ∈ p.targets, e.name = t.name ∧ Url.parse e.url = .ok t.url ∧ e.weight = t.weight) ∧
        t.url.host.isSome = true ∧ Outbound.scheme? t.url.scheme = some "http" ∧
        ∀ incoming, (∃ u, Outbound.uri t.url incoming = .ok u) ∨
          Outbound.uri t.url incoming =
            .error (.invalidTarget t.url.text "request does not form a valid upstream URI") := by
  have husable := (Config.usable_of_no_problems valid).1 p listed
  obtain ⟨ts, hb, hkeys⟩ := exists_balancer husable
  have hentry : ∀ t ∈ ts, ∃ e ∈ p.targets,
      e.name = t.name ∧ Url.parse e.url = .ok t.url ∧ e.weight = t.weight := by
    intro t ht
    obtain ⟨e, he, heq⟩ := List.mem_map.mp (hkeys ▸ List.mem_map_of_mem ht)
    simp only [Prod.mk.injEq] at heq
    exact ⟨e, he, heq⟩
  have htargets : ts ≠ [] := by
    rintro rfl
    exact husable.targets (List.map_eq_nil_iff.mp hkeys.symm)
  have hnonneg : p.balancer = .weighted → ∀ t ∈ ts, ∃ w, t.weight = some w ∧ 0 ≤ w := by
    intro hkind t ht
    obtain ⟨e, he, -, -, hweight⟩ := hentry t ht
    obtain ⟨w, hw, -, hpos⟩ := husable.weights hkind e he
    exact ⟨w, hweight ▸ hw, hpos⟩
  have hweights : ts.map (·.weight) = p.targets.map (·.weight) := by
    have hlast := congrArg (List.map (·.2.2)) hkeys
    rwa [List.map_map, List.map_map] at hlast
  have hcounts : (∀ t ∈ ts, ∀ w, t.weight = some w → ¬ 0 < w) ↔
      ∀ e ∈ p.targets, ∀ w, e.weight = some w → ¬ 0 < w := by
    have hts := List.forall_mem_map (l := ts) (f := (·.weight))
      (P := fun o => ∀ w, o = some w → ¬ 0 < w)
    rw [hweights, List.forall_mem_map] at hts
    exact hts.symm
  refine ⟨_, hb, fun turn draw hd => ⟨?_, ?_⟩⟩
  · have hnone := Balancer.next_eq_none_iff (b := ⟨p.balancer, ⟨ts⟩, turn⟩) htargets hnonneg hd
    exact hnone.trans (and_congr_right fun _ => hcounts)
  · intro t ht
    obtain ⟨e, he, hname, hurl, hweight⟩ := hentry t (Balancer.mem_of_next ht)
    obtain ⟨u, hu, hforward⟩ := husable.urls e he
    obtain rfl : u = t.url := Except.ok.inj (hu.symm.trans hurl)
    refine ⟨⟨e, he, hname, hurl, hweight⟩, hforward.2, Outbound.scheme?_of_forwardable hforward, ?_⟩
    exact Outbound.uri_of_forwardable hforward

def weighted (targets : List Config.TargetEntry) : Config.ProxyRoute :=
  { pattern := "/x", balancer := .weighted, targets }

def lopsided : Config.ProxyRoute :=
  weighted [⟨"a", "http://10.0.0.1/", some (.ofDecimal false 5 (-1))⟩, ⟨"b", "ws://b/", some 0⟩]

theorem next_forwards_lopsided :
    ({ proxies := [lopsided] } : Config).problems = [] ∧
    ∃ b, balancer lopsided = .ok b ∧ ∀ turn draw, draw < 0x20000000000000 →
      ∃ t, ({ b with turn }.next draw).2 = some t ∧ t.url.host.isSome = true := by
  have hvalid : ({ proxies := [lopsided] } : Config).problems = [] := by decide +kernel
  obtain ⟨b, hb, hchosen⟩ := next_forwards hvalid (List.mem_singleton.mpr rfl)
  refine ⟨hvalid, b, hb, fun turn draw hd => ?_⟩
  obtain ⟨hnone, hsome⟩ := hchosen turn draw hd
  cases hnext : ({ b with turn }.next draw).2 with
  | none =>
    have hcounts := (hnone.mp hnext).2 _ List.mem_cons_self (.ofDecimal false 5 (-1)) rfl
    exact absurd (by decide +kernel) hcounts
  | some t => exact ⟨t, rfl, (hsome t hnext).2.1⟩

def weightless : Config.ProxyRoute := weighted [⟨"a", "http://127.0.0.1:1/", some 0⟩]

/-- That is no problem of a configuration, and no target is ever chosen. -/
theorem weightless_forwards_nowhere :
    ({ proxies := [weightless] } : Config).problems = [] ∧
    ∃ b, balancer weightless = .ok b ∧ ∀ turn draw, ({ b with turn }.next draw).2 = none := by
  have hb : balancer weightless = .ok
      { kind := .weighted
        set := ⟨[⟨"a", { scheme := "http", slashes := true, host := some "127.0.0.1", port := some 1,
                         path := "/" }, some 0⟩]⟩ } := by decide +kernel
  exact ⟨by decide +kernel, _, hb, fun turn draw => rfl⟩

end Startup

end Gateway
