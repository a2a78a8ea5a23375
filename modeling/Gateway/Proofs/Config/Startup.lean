import Gateway.Proofs.Balance.Build
import Gateway.Proofs.Config.Validation
import Gateway.Proofs.Route.Expression
import Gateway.Proofs.Router.Registration
import Gateway.Startup

/-! A configuration without problems builds: nothing that the build refuses has been left to it. -/

namespace Gateway.Startup

section Except

variable {α β γ σ ε : Type}

theorem exists_mapM_ok {f : α → Except ε β} {key : α → γ} {key' : β → γ} {l : List α}
    (h : ∀ a ∈ l, ∃ b, f a = .ok b ∧ key' b = key a) :
    ∃ bs, l.mapM f = .ok bs ∧ bs.map key' = l.map key := by
  induction l with
  | nil => exact ⟨[], rfl, rfl⟩
  | cons a l ih =>
    obtain ⟨ha, hl⟩ := List.forall_mem_cons.mp h
    obtain ⟨b, hb, hkey⟩ := ha
    obtain ⟨bs, hbs, hkeys⟩ := ih hl
    refine ⟨b :: bs, ?_, by rw [List.map_cons, hkey, hkeys, List.map_cons]⟩
    rw [List.mapM_cons, hb, hbs]
    rfl

theorem exists_foldlM_ok {f : σ → α → Except ε σ} {Inv : σ → List β → Prop} {added : α → List β}
    {l : List α}
    (h : ∀ a ∈ l, ∀ s bs, Inv s bs → ∃ t, f s a = .ok t ∧ Inv t (bs ++ added a))
    {s : σ} {bs : List β} (hs : Inv s bs) :
    ∃ t, l.foldlM f s = .ok t ∧ Inv t (bs ++ l.flatMap added) := by
  induction l generalizing s bs with
  | nil => exact ⟨s, rfl, by simpa using hs⟩
  | cons a l ih =>
    obtain ⟨ha, hl⟩ := List.forall_mem_cons.mp h
    obtain ⟨t, ht, hinv⟩ := ha s bs hs
    obtain ⟨u, hu, hinv'⟩ := ih hl hinv
    refine ⟨u, ?_, by simpa using hinv'⟩
    rw [List.foldlM_cons, ht]
    exact hu

end Except

theorem exists_target {t : Config.TargetEntry} {u : Url} (hu : Url.parse t.url = .ok u) :
    ∃ t', target t = .ok t' ∧
      (t'.name, Except.ok t'.url, t'.weight) = (t.name, Url.parse t.url, t.weight) :=
  ⟨⟨t.name, u, t.weight⟩, by simp [target, Target.ofText, hu, Except.map], by rw [hu]⟩

/-- The balancer takes all targets: their names differ, and they have the weights that it needs. -/
theorem exists_balancer {p : Config.ProxyRoute} (h : p.Usable) :
    ∃ ts, balancer p = .ok ⟨p.balancer, ⟨ts⟩, 0⟩ ∧
      ts.map (fun t => (t.name, Except.ok t.url, t.weight)) =
        p.targets.map fun t => (t.name, Url.parse t.url, t.weight) := by
  obtain ⟨ts, hts, hkeys⟩ := exists_mapM_ok fun t ht => exists_target (h.urls t ht).choose_spec.1
  have hnames : ts.map (·.name) = p.targets.map (·.name) := by
    have hfst := congrArg (List.map Prod.fst) hkeys
    rwa [List.map_map, List.map_map] at hfst
  have haccepts : ∀ t ∈ ts, Balancer.accepts p.balancer t = true := by
    intro t ht
    have hmem := hkeys ▸ List.mem_map_of_mem ht
    obtain ⟨entry, hentry, heq⟩ := List.mem_map.mp hmem
    have hweight : entry.weight = t.weight := congrArg (·.2.2) heq
    unfold Balancer.accepts
    cases hkind : p.balancer with
    | weighted =>
      obtain ⟨w, hw, hfinite, hpos⟩ := h.weights hkind entry hentry
      simp [← hweight, hw, hfinite, hpos]
    | random => rfl
    | roundRobin => rfl
  have hbuild := Balancer.build_of_accepts haccepts (hnames ▸ h.names)
  refine ⟨ts, ?_, hkeys⟩
  simp [balancer, hts, hbuild, bind, Except.bind, pure, Except.pure]

theorem methods_of_usable {p : Config.ProxyRoute} (h : p.Usable) :
    methods p = .ok (if p.methods.isEmpty then Router.anyMethods else p.methods) := by
  obtain ⟨ms, hms, heq⟩ : ∃ ms, p.methods.mapM (method p) = .ok ms ∧
      ms.map id = p.methods.map id :=
    exists_mapM_ok fun m hm => ⟨m, by simp [method, h.methods m hm], rfl⟩
  simp only [List.map_id_fun, id_eq] at heq
  unfold methods
  split
  · rfl
  · rw [hms, heq]

theorem rules_of_compiles {means : Means} (compiles : ∀ e, Expression e → means.refusal? e = none)
    (p : Config.ProxyRoute) :
    rules means p = .ok (PathRules.ofTexts (p.pathRules.map fun w => (w.source, w.output))) := by
  have hnone : p.pathRules.findSome? (refusal? means) = none := by
    refine List.findSome?_eq_none_iff.mpr fun w _ => ?_
    simp [refusal?, compiles _ (PathRule.expression_wellFormed w.source)]
  simp [rules, hnone]

/-- The root with its middleware, and the routes so far. -/
def Lists (s : Build) (routes : List RouteInfo) : Prop :=
  s.root = { middleware := Router.defaultMiddleware, isRoot := true } ∧ s.router.routes = routes

def fileRoutes (means : Means) (m : Config.StaticMount) : List RouteInfo :=
  ["GET", "HEAD"].map fun method =>
    ⟨method, Path.join "/" (Router.filesPattern m.mount), (means.files m.root).name⟩

def proxyRoutes (p : Config.ProxyRoute) : List RouteInfo :=
  (if p.methods.isEmpty then Router.anyMethods else p.methods).map fun method =>
    ⟨method, Path.join "/" p.pattern, "proxy"⟩

theorem addFiles_lists {means : Means} {m : Config.StaticMount}
    (h : Config.hasParameter m.mount = false) {s : Build} {routes : List RouteInfo}
    (hs : Lists s routes) :
    ∃ t, addFiles means s m = .ok t ∧ Lists t (routes ++ fileRoutes means m) := by
  obtain ⟨hroot, hroutes⟩ := hs
  simp only [addFiles, Router.serveFiles, h, Bool.false_eq_true, if_false, bind, Except.bind, pure,
    Except.pure]
  refine ⟨_, rfl, hroot, ?_⟩
  simp [Router.handleAll_routes, hroutes, hroot, fileRoutes, Route.info, Group.route, Chain.name]

theorem addProxy_lists {means : Means} (compiles : ∀ e, Expression e → means.refusal? e = none)
    {p : Config.ProxyRoute} (h : p.Usable) {s : Build} {routes : List RouteInfo}
    (hs : Lists s routes) :
    ∃ t, addProxy means s p = .ok t ∧ Lists t (routes ++ proxyRoutes p) := by
  obtain ⟨hroot, hroutes⟩ := hs
  obtain ⟨ts, hb, -⟩ := exists_balancer h
  have hrules := rules_of_compiles compiles p
  have hmethods := methods_of_usable h
  simp only [addProxy, hb, hrules, hmethods, bind, Except.bind, pure, Except.pure]
  refine ⟨_, rfl, hroot, ?_⟩
  simp [Router.handleAll_routes, hroutes, hroot, proxyRoutes, Route.info, Group.route, Chain.name,
    Proxy.handler]

/-- A configuration without problems builds, and its routes are those of its files, to `GET` and
`HEAD`, and then those of its proxies, to the methods that each of them lists or to all. No pattern
of them panics when it is compiled. Compilers of expressions take the syntax that is used here. -/
theorem build_of_no_problems (means : Means)
    (compiles : ∀ e, Expression e → means.refusal? e = none) {c : Config}
    (valid : c.problems = []) :
    ∃ b, build means c = .ok b ∧
      b.router.routes = c.staticFiles.flatMap (fileRoutes means) ++ c.proxies.flatMap proxyRoutes ∧
      ∀ route ∈ b.router.routes, ∀ e, (Pattern.ofText route.path).expression? = some e →
        means.refusal? e.toList = none := by
  obtain ⟨hproxies, hfiles⟩ := Config.usable_of_no_problems valid
  let start : Build :=
    { router := ((Router.new (options c)).useMiddleware Router.rootGroup
        Router.defaultMiddleware).1
      root := { middleware := Router.defaultMiddleware, isRoot := true } }
  have hstart : Lists start [] := ⟨rfl, rfl⟩
  obtain ⟨s, hs, hlists⟩ : ∃ s, c.staticFiles.foldlM (addFiles means) start = .ok s ∧
      Lists s ([] ++ c.staticFiles.flatMap (fileRoutes means)) :=
    exists_foldlM_ok (fun m hm _ _ hinv => addFiles_lists (hfiles m hm) hinv) hstart
  obtain ⟨b, hb, hlists'⟩ : ∃ b, c.proxies.foldlM (addProxy means) s = .ok b ∧
      Lists b ([] ++ c.staticFiles.flatMap (fileRoutes means) ++ c.proxies.flatMap proxyRoutes) :=
    exists_foldlM_ok (fun p hp _ _ hinv => addProxy_lists compiles (hproxies p hp) hinv) hlists
  refine ⟨b, ?_, by simpa using hlists'.2, ?_⟩
  · have hbuild : build means c = c.staticFiles.foldlM (addFiles means) start >>=
        c.proxies.foldlM (addProxy means) := rfl
    rw [hbuild, hs]
    exact hb
  · intro route _ e he
    exact compiles _ (Pattern.expression_wellFormed he)

def sample : Config where
  staticFiles := [⟨"/assets/", "/srv"⟩]
  proxies :=
    [{ pattern := "^/api/*rest"
       methods := ["GET", "PURGE"]
       balancer := .weighted
       targets := [⟨"a", "http://10.0.0.1:80", some (.ofInt 2)⟩, ⟨"b", "ws://b.example/", some 0⟩]
       pathRules := [⟨"^/api/(*)", "/$1"⟩] }]

def sampleMeans : Means := { files := fun _ => StaticFiles.ofTree {} [] }

theorem build_of_no_problems_sample :
    sample.problems = [] ∧ ∃ b, build sampleMeans sample = .ok b ∧
      b.router.routes =
        [⟨"GET", "/assets/*filepath", "static_files"⟩,
          ⟨"HEAD", "/assets/*filepath", "static_files"⟩,
          ⟨"GET", "^/api/*rest", "proxy"⟩, ⟨"PURGE", "^/api/*rest", "proxy"⟩] := by
  have hvalid : sample.problems = [] := by decide +kernel
  obtain ⟨b, hb, hroutes, -⟩ := build_of_no_problems sampleMeans (fun _ _ => rfl) hvalid
  refine ⟨hvalid, b, hb, hroutes.trans ?_⟩
  decide +kernel

end Gateway.Startup
