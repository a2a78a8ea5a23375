import Gateway.Proofs.Router.Reachable

/-! Which chain serves a request and what it starts with: the route that the table of the method
finds, or one of the two fallbacks. -/

namespace Gateway

/-- The table of a method finds a path. -/
def Tables.Serves (ts : Tables) (m : Method) (path : String) : Prop :=
  ∃ t hit, ts.get? m = some t ∧ t.matcher.find? path = some hit

namespace Router

def fresh (r : Router) (w : World) (request : Request) (chain : Chain) (params : Params)
    (pattern : String) (status? : Option Status) : Exchange where
  context :=
    { request
      writer.status? := status?
      params
      fullPath := pattern
      handlerName := chain.name
      cancelled := r.cancelled
      place := r.checkout.1.place }
  shelf := r.checkout.2.shelf
  world := w

theorem start_route (r : Router) (w : World) (request : Request) (chain : Chain)
    (pattern : String) (params : Params) :
    (r.opening w request).mapContext (Choice.route chain pattern params).start =
      r.fresh w request chain params pattern none := by
  simp only [opening, Exchange.mapContext]
  rw [r.checkout_context]
  simp [Choice.start, Context.setRoute, Context.setChain, Context.prepare, fresh]

theorem start_fallback (r : Router) (w : World) (request : Request) (code : Status)
    (chain : Chain) :
    (r.opening w request).mapContext (Choice.fallback code chain).start =
      r.fresh w request chain [] "" (some code) := by
  simp only [opening, Exchange.mapContext]
  rw [r.checkout_context]
  rfl

theorem choose_of_hit {r : Router} (hr : r.tables.Coherent) {m : Method} {path : String}
    {t : Table} {hit : Hit} (ht : r.tables.get? m = some t)
    (hf : t.matcher.find? path = some hit) :
    ∃ chain pattern, t.chains[hit.index]? = some chain ∧ t.patterns[hit.index]? = some pattern ∧
      r.choose m path = .route chain pattern hit.params := by
  obtain ⟨chain, pattern, hc, hp, he⟩ := (hr.tables m t (Tables.mem_of_get? ht)).find?_of_hit hf
  exact ⟨chain, pattern, hc, hp, by simp [choose, ht, he]⟩

/-- Requests of a wrong method are told apart, and the table of some other method finds the path. -/
def WrongMethod (r : Router) (m : Method) (path : String) : Prop :=
  r.options.handleMethodNotAllowed = true ∧ ∃ n, n ≠ m ∧ r.tables.Serves n path

theorem wrongMethod_iff {r : Router} (hr : r.tables.Coherent) (m : Method) (path : String) :
    r.WrongMethod m path ↔
      (r.options.handleMethodNotAllowed && r.tables.servesOther m path) = true := by
  rw [Bool.and_eq_true_iff, hr.servesOther_iff, WrongMethod]
  simp only [Tables.Serves, exists_and_left]

theorem choose_of_not_serves {r : Router} {m : Method} {path : String}
    (hn : ¬ r.tables.Serves m path) : r.choose m path =
      if r.options.handleMethodNotAllowed && r.tables.servesOther m path then
        .fallback .methodNotAllowed r.fallbacks.noMethod
      else .fallback .notFound r.fallbacks.notFound := by
  have hfind : (r.tables.get? m).bind (·.find? path) = none := by
    cases ht : r.tables.get? m with
    | none => rfl
    | some t =>
      refine Table.find?_of_no_hit (Option.eq_none_iff_forall_ne_some.mpr fun hit hf => ?_)
      exact hn ⟨t, hit, ht, hf⟩
  rw [choose, hfind]

/-- Two routers, or one at two times, with the same registrations and options. -/
structure SameRoutes (r r' : Router) : Prop where
  options : r.options = r'.options
  tables : r.tables = r'.tables
  fallbacks : r.fallbacks = r'.fallbacks

theorem SameRoutes.refl (r : Router) : r.SameRoutes r := ⟨rfl, rfl, rfl⟩

theorem SameRoutes.choose_eq {r r' : Router} (h : r.SameRoutes r') (m : Method) (path : String) :
    r.choose m path = r'.choose m path := by
  simp only [choose, h.options, h.tables, h.fallbacks]

theorem SameRoutes.lookupPath_eq {r r' : Router} (h : r.SameRoutes r') (request : Request) :
    r.lookupPath request = r'.lookupPath request := by simp only [lookupPath, h.options]

theorem dispatch_sameRoutes (r : Router) (w : World) (request : Request) :
    r.SameRoutes (r.dispatch w request).router := by
  unfold dispatch
  cases serve (r.opening w request) (r.choose request.method (r.lookupPath request)) <;>
    exact ⟨rfl, rfl, rfl⟩

theorem dispatch_handlers (r : Router) (w : World) (request : Request) :
    (r.dispatch w request).router.handlers = r.handlers := by
  unfold dispatch
  cases serve (r.opening w request) (r.choose request.method (r.lookupPath request)) <;> rfl

/-- The route that the table of the method finds serves the request, with what the lookup captured;
without one the fallback for wrong methods does when some other table finds the path and that
counts, and the one for unknown paths when not. Where paths are cleaned, those with the same clean
form are served alike, now and later. -/
theorem dispatch_serves {s : Site} (h : s.Reachable) (w : World) (request : Request) :
    let r := s.router
    let m := request.method
    let path := if r.options.removeExtraSlash then Path.clean request.uri.path
      else request.uri.path
    (∀ t hit, r.tables.get? m = some t → t.matcher.find? path = some hit →
      ∃ chain pattern, t.chains[hit.index]? = some chain ∧ t.patterns[hit.index]? = some pattern ∧
        r.dispatch w request =
          finish r.checkout.2 (chain.next (r.fresh w request chain hit.params pattern none))) ∧
    (¬ r.tables.Serves m path → r.WrongMethod m path →
      r.dispatch w request =
        let chain := r.fallbacks.noMethod
        finish r.checkout.2 ((Choice.fallback .methodNotAllowed chain).complete
          (chain.next (r.fresh w request chain [] "" (some .methodNotAllowed))))) ∧
    (¬ r.tables.Serves m path → ¬ r.WrongMethod m path →
      r.dispatch w request =
        let chain := r.fallbacks.notFound
        finish r.checkout.2 ((Choice.fallback .notFound chain).complete
          (chain.next (r.fresh w request chain [] "" (some .notFound))))) ∧
    (r.options.removeExtraSlash = true → ∃ choice, ∀ r', r.SameRoutes r' → ∀ w' request',
      request'.method = m → Path.clean request'.uri.path = Path.clean request.uri.path →
      r'.dispatch w' request' = finish r'.checkout.2 (serve (r'.opening w' request') choice)) := by
  intro r m path
  have hr : r.tables.Coherent := h.sound.tables
  have hd : ∀ choice, r.choose m path = choice → r.dispatch w request =
      finish r.checkout.2 (serve (r.opening w request) choice) := fun choice hc => by
    rw [← hc]
    rfl
  refine ⟨?_, ?_, ?_, ?_⟩
  · intro t hit ht hf
    obtain ⟨chain, pattern, hc, hp, hchoose⟩ := choose_of_hit hr ht hf
    refine ⟨chain, pattern, hc, hp, ?_⟩
    rw [hd _ hchoose, serve, start_route]
    rfl
  · intro hn hw
    have hchoose := choose_of_not_serves hn
    rw [if_pos ((wrongMethod_iff hr m path).mp hw)] at hchoose
    rw [hd _ hchoose, serve, start_fallback]
    rfl
  · intro hn hw
    have hchoose := choose_of_not_serves hn
    rw [if_neg fun hb => hw ((wrongMethod_iff hr m path).mpr hb)] at hchoose
    rw [hd _ hchoose, serve, start_fallback]
    rfl
  · intro hslash
    refine ⟨r.choose m path, fun r' hr' w' request' hm hp => ?_⟩
    have hpath : r'.lookupPath request' = path := by
      rw [← hr'.lookupPath_eq]
      simp only [lookupPath, path, hslash, if_true, hp]
    rw [dispatch, hpath, hm, hr'.choose_eq]

def oneRoute : Site :=
  let root : Group := { middleware := defaultMiddleware, isRoot := true }
  let s := Site.new { removeExtraSlash := true } defaultMiddleware
  { s with router := s.router.handle root "GET" "/a/:id" [AccessLogger.handler] }

theorem oneRoute_reachable : oneRoute.Reachable :=
  .register (.new { removeExtraSlash := true } defaultMiddleware) ⟨0, Nat.one_pos⟩
    (.handle "GET" "/a/:id" [AccessLogger.handler]) rfl

theorem dispatch_serves_oneRoute :
    let r := oneRoute.router
    let chain := defaultMiddleware ++ [AccessLogger.handler]
    oneRoute.Reachable ∧
    r.dispatch {} { uri.rawPath := "//a/./7" } =
      finish r.checkout.2 (Chain.next chain
        (r.fresh {} { uri.rawPath := "//a/./7" } chain [("id", "7")] "/a/:id" none)) ∧
    r.dispatch {} { method := "PUT", uri.rawPath := "/a/7" } =
      finish r.checkout.2 ((Choice.fallback .methodNotAllowed defaultMiddleware).complete
        (Chain.next defaultMiddleware (r.fresh {} { method := "PUT", uri.rawPath := "/a/7" }
          defaultMiddleware [] "" (some .methodNotAllowed)))) := by
  intro r chain
  have hget : r.tables.get? "GET" = some (Table.add {} "/a/:id" chain) := rfl
  refine ⟨oneRoute_reachable, ?_, ?_⟩
  · obtain ⟨hroute, -⟩ := dispatch_serves oneRoute_reachable {} { uri.rawPath := "//a/./7" }
    obtain ⟨_, _, hc, hp, he⟩ :=
      hroute _ ⟨0, [("id", "7")], "/a/:id"⟩ hget (by decide +kernel)
    cases hc
    cases hp
    exact he
  · obtain ⟨-, hwrong, -⟩ :=
      dispatch_serves oneRoute_reachable {} { method := "PUT", uri.rawPath := "/a/7" }
    refine hwrong ?_ ⟨rfl, "GET", by decide, _, ⟨0, [("id", "7")], "/a/:id"⟩, hget, ?_⟩
    · rintro ⟨t, hit, ht, -⟩
      have hnone : none = some t := ht
      cases hnone
    · decide +kernel

end Router

end Gateway
