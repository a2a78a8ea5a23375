import Gateway.Proofs.Router.History
import Gateway.Proofs.Router.Table

/-! What registrations leave behind: routes with the middleware of their moment, tables that hold
the routes of their method in order, and fallbacks behind the middleware of the root. -/

namespace Gateway

/-! ### Tables -/

def Table.ofRoutes (rs : List Route) : Table where
  patterns := rs.map (·.pattern)
  chains := rs.map (·.chain)
  matcher := Matcher.build (rs.map (·.pattern))

def Route.ofMethod (m : Method) (rs : List Route) : List Route := rs.filter (·.method == m)

theorem Table.ofRoutes_append (rs : List Route) (route : Route) :
    ofRoutes (rs ++ [route]) = (ofRoutes rs).add route.pattern route.chain := by
  simp [ofRoutes, add]

namespace Router

theorem handleAll_routes (r : Router) (g : Group) (ms : List Method) (pattern : String)
    (handlers : List Handler) :
    (r.handleAll g ms pattern handlers).routes =
      r.routes ++ (ms.map (g.route pattern handlers)).map Route.info := by
  unfold handleAll
  induction ms generalizing r with
  | nil => simp
  | cons m ms ih =>
    have hhandle : (r.handle g m pattern handlers).routes =
        r.routes ++ [(g.route pattern handlers m).info] := rfl
    simp [ih, hhandle]

/-- The router lists these routes, and the table of each method is built from its own ones. -/
structure Records (r : Router) (rs : List Route) : Prop where
  routes : r.routes = rs.map Route.info
  tables : ∀ m, (r.tables.get? m).getD {} = Table.ofRoutes (Route.ofMethod m rs)

theorem Records.handle {r : Router} {rs : List Route} (h : r.Records rs) (g : Group) (m : Method)
    (pattern : String) (handlers : List Handler) :
    (r.handle g m pattern handlers).Records (rs ++ [g.route pattern handlers m]) where
  routes := by simp [Router.handle, register, h.routes, Route.info, Group.route]
  tables n := by
    simp only [Router.handle, register, Tables.get?_add, Route.ofMethod, List.filter_append]
    by_cases hn : n = m
    · subst n
      have hfilter : [g.route pattern handlers m].filter (·.method == m) =
          [g.route pattern handlers m] := by simp [Group.route]
      rw [if_pos rfl, h.tables, hfilter, Table.ofRoutes_append]
      rfl
    · have hfilter : [g.route pattern handlers m].filter (·.method == n) = [] := by
        simp [Group.route, Ne.symm hn]
      rw [if_neg hn, h.tables, hfilter, List.append_nil, Route.ofMethod]

theorem Records.handleAll {r : Router} {rs : List Route} (h : r.Records rs) (g : Group)
    (ms : List Method) (pattern : String) (handlers : List Handler) :
    (r.handleAll g ms pattern handlers).Records (rs ++ ms.map (g.route pattern handlers)) := by
  unfold Router.handleAll
  induction ms generalizing r rs with
  | nil => simpa using h
  | cons m ms ih => simpa using ih (h.handle g m pattern handlers)

theorem Records.withHandlers {r : Router} {rs : List Route} (h : r.Records rs)
    (handlers : FallbackHandlers) : (r.withHandlers handlers).Records rs := ⟨h.routes, h.tables⟩

theorem Records.useMiddleware {r : Router} {rs : List Route} (h : r.Records rs) (g : Group)
    (handlers : List Handler) : (r.useMiddleware g handlers).1.Records rs := by
  unfold Router.useMiddleware
  simp only []
  split
  · exact h.withHandlers _
  · exact h

theorem Records.router {r : Router} {rs : List Route} (h : r.Records rs) (g : Group)
    (what : Site.Registration) : (what.router g r).Records (rs ++ what.routes g) := by
  unfold Site.Registration.routes Site.Registration.router
  cases what with
  | use handlers => simpa using h.useMiddleware g handlers
  | group | clone => simpa using h
  | handle m pattern handlers => exact h.handle g m pattern handlers
  | any pattern handlers => exact h.handleAll g anyMethods pattern handlers
  | notFound handlers =>
    rw [List.append_nil]
    exact h.withHandlers _
  | noMethod handlers =>
    rw [List.append_nil]
    exact h.withHandlers _
  | serveFiles mount files =>
    simp only []
    split
    · simpa using h
    · exact h.handleAll g ["GET", "HEAD"] (filesPattern mount) [files]

theorem Records.after {s : Site} {rs : List Route} (h : s.router.Records rs)
    (op : Nat × Site.Registration) : (s.after op).router.Records (rs ++ s.routesOf op) := by
  obtain ⟨i, what⟩ := op
  cases hi : s.groups[i]? with
  | none => simpa [Site.after_of_no_group hi, Site.routesOf, hi] using h
  | some g =>
    have hroutes : s.routesOf (i, what) = what.routes g := by simp [Site.routesOf, hi]
    rw [Site.after_of_group hi, hroutes]
    exact h.router g what

theorem Records.run {s : Site} {rs : List Route} (h : s.router.Records rs)
    (ops : List (Nat × Site.Registration)) : (s.run ops).router.Records (rs ++ s.journal ops) := by
  induction ops generalizing s rs with
  | nil => simpa [Site.run, Site.journal] using h
  | cons op ops ih =>
    have hstep := ih (h.after op)
    rw [List.append_assoc] at hstep
    exact hstep

theorem records_new (options : RouterOptions) (middleware : List Handler) :
    (Site.new options middleware).router.Records [] :=
  Records.useMiddleware ⟨rfl, fun _ => rfl⟩ rootGroup middleware

theorem Records.find?_of_hit {r : Router} {rs : List Route} (h : r.Records rs) {m : Method}
    {path : String} {hit : Hit} (hf : ((r.tables.get? m).getD {}).matcher.find? path = some hit) :
    ∃ route, (Route.ofMethod m rs)[hit.index]? = some route ∧
      ((r.tables.get? m).getD {}).find? path = some (route.chain, route.pattern, hit) := by
  rw [h.tables] at hf ⊢
  have hco : (Table.ofRoutes (Route.ofMethod m rs)).Coherent := ⟨rfl, by simp [Table.ofRoutes]⟩
  obtain ⟨chain, pattern, hc, hp, he⟩ := hco.find?_of_hit hf
  simp only [Table.ofRoutes, List.getElem?_map, Option.map_eq_some_iff] at hc hp
  obtain ⟨route, hroute, rfl⟩ := hc
  obtain ⟨route', hroute', rfl⟩ := hp
  obtain rfl : route = route' := Option.some.inj (hroute.symm.trans hroute')
  exact ⟨route, hroute, he⟩

end Router

/-! ### Fallbacks -/

namespace Router

theorem handleAll_fallbacks (r : Router) (g : Group) (ms : List Method) (pattern : String)
    (handlers : List Handler) :
    (r.handleAll g ms pattern handlers).handlers = r.handlers ∧
      (r.handleAll g ms pattern handlers).fallbacks = r.fallbacks := by
  unfold handleAll
  induction ms generalizing r with
  | nil => exact ⟨rfl, rfl⟩
  | cons m ms ih => exact ih (r.handle g m pattern handlers)

end Router

namespace Site

open Registration

theorem handlers_router {r : Router} {g : Group}
    (h : g.isRoot = true → r.handlers.rootMiddleware = g.middleware) (what : Registration) :
    (what.router g r).handlers =
      ⟨r.handlers.rootMiddleware ++ (if g.isRoot = true then what.middleware else []),
        what.notFound?.getD r.handlers.notFound, what.noMethod?.getD r.handlers.noMethod⟩ := by
  have hall := fun ms pattern handlers => (r.handleAll_fallbacks g ms pattern handlers).1
  unfold Registration.router Registration.middleware notFound? noMethod?
  cases what with
  | use handlers =>
    by_cases hroot : g.isRoot = true
    · simp [Router.useMiddleware, Router.withHandlers, hroot, h hroot]
    · simp [Router.useMiddleware, hroot]
  | serveFiles mount files =>
    by_cases hp : Config.hasParameter mount
    · simp [hp]
    · simp [hp, hall]
  | any pattern handlers => simp [Router.any, hall]
  | handle | group | clone | notFound | noMethod =>
    simp [Router.handle, Router.register, Router.notFound, Router.noMethod, Router.withHandlers]

theorem composed_router {r : Router} (h : r.fallbacks = r.handlers.compose) (g : Group)
    (what : Registration) : (what.router g r).fallbacks = (what.router g r).handlers.compose := by
  have hall : ∀ ms pattern handlers, (r.handleAll g ms pattern handlers).fallbacks =
      (r.handleAll g ms pattern handlers).handlers.compose := by
    intro ms pattern handlers
    obtain ⟨hh, hf⟩ := r.handleAll_fallbacks g ms pattern handlers
    rw [hh, hf, h]
  unfold Registration.router
  cases what with
  | use handlers =>
    simp only [Router.useMiddleware]
    split
    · rfl
    · exact h
  | serveFiles mount files =>
    simp only []
    split
    · exact h
    · exact hall ["GET", "HEAD"] _ _
  | any pattern handlers => exact hall Router.anyMethods pattern handlers
  | handle | group | clone => exact h
  | notFound | noMethod => rfl

/-- The first handle is the only root; the fallbacks are made of its middleware and of the handlers
that were given last. -/
structure Rooted (s : Site) (notFound noMethod : List Handler) : Prop where
  root : ∃ g, s.groups[0]? = some g ∧ g.isRoot = true ∧
    s.router.handlers = ⟨g.middleware, notFound, noMethod⟩
  only : ∀ j g, s.groups[j]? = some g → g.isRoot = true → j = 0
  composed : s.router.fallbacks = s.router.handlers.compose

theorem rooted_new (options : RouterOptions) (middleware : List Handler) :
    (Site.new options middleware).Rooted [] [] where
  root := ⟨{ middleware, isRoot := true }, rfl, rfl, rfl⟩
  only := by
    intro j g hg _
    have hj := (List.getElem?_eq_some_iff.mp hg).1
    simp only [Site.new, List.length_cons, List.length_nil] at hj
    omega
  composed := rfl

theorem only_groups {gs : List Group} (h : ∀ j g, gs[j]? = some g → g.isRoot = true → j = 0)
    {i : Nat} {g : Group} (hg : gs[i]? = some g) {what : Registration} (hc : what ≠ .clone)
    {j : Nat} {g' : Group} (hg' : (what.groups i g gs)[j]? = some g') (hroot : g'.isRoot = true) :
    j = 0 := by
  unfold Registration.groups at hg'
  cases what with
  | clone => exact absurd rfl hc
  | use handlers =>
    by_cases hij : i = j
    · subst j
      have hi : i < gs.length := (List.getElem?_eq_some_iff.mp hg).1
      simp only [List.getElem?_set_self hi, Option.some.injEq] at hg'
      subst g'
      exact h i g hg hroot
    · rw [List.getElem?_set_ne hij] at hg'
      exact h j g' hg' hroot
  | group base handlers =>
    rcases Nat.lt_trichotomy j gs.length with hlt | rfl | hgt
    · rw [List.getElem?_append_left hlt] at hg'
      exact h j g' hg' hroot
    · simp only [List.getElem?_concat_length, Option.some.injEq] at hg'
      subst g'
      cases hroot
    · have hlen : (gs ++ [g.sub base handlers]).length ≤ j := by
        simp only [List.length_append, List.length_singleton]
        omega
      rw [List.getElem?_eq_none hlen] at hg'
      cases hg'
  | handle | any | notFound | noMethod | serveFiles => exact h j g' hg' hroot

theorem Rooted.after {s : Site} {nf nm : List Handler} (h : s.Rooted nf nm)
    {op : Nat × Registration} (named : op.1 < s.groups.length) (hc : op.2 ≠ .clone) :
    (s.after op).Rooted (op.2.notFound?.getD nf) (op.2.noMethod?.getD nm) := by
  obtain ⟨i, what⟩ := op
  obtain ⟨g, hg⟩ : ∃ g, s.groups[i]? = some g := ⟨_, List.getElem?_eq_getElem named⟩
  obtain ⟨⟨root, hroot, hisRoot, hhandlers⟩, honly, hcomposed⟩ := h
  have hkeep := groups_after hroot (i, what)
  have hzero : g.isRoot = true ↔ i = 0 := by
    refine ⟨honly i g hg, ?_⟩
    rintro rfl
    obtain rfl : root = g := Option.some.inj (hroot.symm.trans hg)
    exact hisRoot
  have hown : g.isRoot = true → s.router.handlers.rootMiddleware = g.middleware := by
    intro hr
    obtain rfl := hzero.mp hr
    obtain rfl : root = g := Option.some.inj (hroot.symm.trans hg)
    rw [hhandlers]
  refine ⟨⟨_, hkeep, hisRoot, ?_⟩, ?_, ?_⟩
  · rw [after_of_group hg]
    simp only [handlers_router hown, hhandlers, used, hzero, List.flatMap_cons, List.flatMap_nil,
      List.append_nil]
  · rw [after_of_group hg]
    exact fun j g' hg' hr => only_groups honly hg hc hg' hr
  · rw [after_of_group hg]
    exact composed_router hcomposed g what

theorem last_cons (given? : Registration → Option (List Handler)) (op : Nat × Registration)
    (ops : List (Nat × Registration)) (earlier : List Handler) :
    ((op :: ops).filterMap fun op => given? op.2).getLast?.getD earlier =
      (ops.filterMap fun op => given? op.2).getLast?.getD ((given? op.2).getD earlier) := by
  cases hop : given? op.2 with
  | none => simp [hop]
  | some handlers => simp [hop, List.getLast?_cons]

theorem Rooted.run {s : Site} {nf nm : List Handler} (h : s.Rooted nf nm)
    {ops : List (Nat × Registration)} (named : s.Named ops) (hc : ∀ op ∈ ops, op.2 ≠ .clone) :
    (s.run ops).Rooted ((ops.filterMap fun op => op.2.notFound?).getLast?.getD nf)
      ((ops.filterMap fun op => op.2.noMethod?).getLast?.getD nm) := by
  induction ops generalizing s nf nm with
  | nil => exact h
  | cons op ops ih =>
    rw [last_cons notFound?, last_cons noMethod?]
    obtain ⟨hc, hcs⟩ := List.forall_mem_cons.mp hc
    exact ih (h.after named.1 hc) named.2 hcs

/-- After any registrations, through the root and the groups made so far. Each registration adds its
routes behind the middleware of its handle at that moment, where a group starts with that of its
parent, and later ones only add to them. The table of a method holds the routes of the method in
order, and each hit of its matcher is served by the route at that place. As long as the root is not
copied, the fallbacks start with its middleware of now. -/
theorem registrations_recorded (options : RouterOptions) (middleware : List Handler)
    (ops : List (Nat × Registration)) (named : (Site.new options middleware).Named ops) :
    let start := Site.new options middleware
    let s := start.run ops
    let rs := start.journal ops
    (∀ before i what later, ops = before ++ (i, what) :: later →
      ∃ g, (start.run before).groups[i]? = some g ∧
        rs = start.journal before ++
          (what.routes g ++ (start.run (before ++ [(i, what)])).journal later) ∧
        s.groups[i]? = some { g with middleware := g.middleware ++ used i ((i, what) :: later) } ∧
        ∀ base handlers, what = .group base handlers →
          let j := (start.run before).groups.length
          s.groups[j]? = some
            { base := Path.join g.base base
              middleware := g.middleware ++ handlers ++ used j later }) ∧
    s.router.routes = rs.map Route.info ∧
    (∀ m, let t := (s.router.tables.get? m).getD {}
      t.patterns = (s.router.routes.filter (·.method == m)).map (·.path) ∧
      t.chains = (Route.ofMethod m rs).map (·.chain) ∧ t.chains.length = t.patterns.length ∧
      t.matcher = Matcher.build t.patterns ∧
      ∀ path hit, t.matcher.find? path = some hit → hit.index < t.patterns.length ∧
        ∃ route, (Route.ofMethod m rs)[hit.index]? = some route ∧
          t.find? path = some (route.chain, route.pattern, hit)) ∧
    s.groups[0]? = some { middleware := middleware ++ used 0 ops, isRoot := true } ∧
    ((∀ op ∈ ops, op.2 ≠ .clone) →
      s.router.fallbacks.notFound = middleware ++ used 0 ops ++ last notFound? ops ∧
      s.router.fallbacks.noMethod = middleware ++ used 0 ops ++ last noMethod? ops) := by
  intro start s rs
  have hrec : s.router.Records rs := (Router.records_new options middleware).run ops
  have hroot : s.groups[0]? = some { middleware := middleware ++ used 0 ops, isRoot := true } :=
    groups_run (s := start) (j := 0) (g := { middleware, isRoot := true }) rfl ops
  refine ⟨?_, hrec.routes, ?_, hroot, ?_⟩
  · rintro before i what later rfl
    have hrun : s = ((start.run before).after (i, what)).run later := run_append ..
    obtain ⟨-, hi, -⟩ := (named_append ..).mp named
    obtain ⟨g, hg⟩ : ∃ g, (start.run before).groups[i]? = some g :=
      ⟨_, List.getElem?_eq_getElem hi⟩
    refine ⟨g, hg, ?_, ?_, ?_⟩
    · have hroutes : (start.run before).routesOf (i, what) = what.routes g := by simp [routesOf, hg]
      rw [show rs = _ from journal_append .., journal, hroutes, run_append]
      rfl
    · exact hrun ▸ groups_run hg ((i, what) :: later)
    · rintro base handlers rfl
      rw [hrun]
      exact groups_run (groups_after_group hg base handlers) later
  · intro m t
    have ht : t = Table.ofRoutes (Route.ofMethod m rs) := hrec.tables m
    have hpatterns : t.patterns = (s.router.routes.filter (·.method == m)).map (·.path) := by
      rw [ht, hrec.routes, List.filter_map, List.map_map]
      rfl
    refine ⟨hpatterns, ?_, ?_, ?_, ?_⟩
    · rw [ht]
      rfl
    · simp [ht, Table.ofRoutes]
    · rw [ht]
      rfl
    · intro path hit hf
      obtain ⟨route, hroute, he⟩ := hrec.find?_of_hit hf
      refine ⟨?_, route, hroute, he⟩
      have hlt := (List.getElem?_eq_some_iff.mp hroute).1
      simpa [ht, Table.ofRoutes] using hlt
  · intro hc
    obtain ⟨⟨g, hg, -, hhandlers⟩, -, hcomposed⟩ := (rooted_new options middleware).run named hc
    obtain rfl := Option.some.inj (hroot.symm.trans hg)
    rw [hcomposed, hhandlers]
    exact ⟨rfl, rfl⟩

def grouped : List (Nat × Registration) :=
  [(0, .use [Recovery.handler]), (0, .group "/api" [RequestId.handler .random]),
    (0, .use [AccessLogger.handler]), (1, .handle "GET" "/:id" [AccessLogger.handler]),
    (1, .use [AccessLogger.handler]), (0, .notFound [Recovery.handler])]

theorem registrations_recorded_grouped :
    let start := Site.new {} []
    let s := start.run grouped
    start.Named grouped ∧
    (∃ hit, ((s.router.tables.get? "GET").getD {}).find? "/api/7" =
      some ([Recovery.handler, RequestId.handler .random, AccessLogger.handler], "/api/:id", hit)) ∧
    s.router.fallbacks.notFound = [Recovery.handler, AccessLogger.handler, Recovery.handler] := by
  intro start s
  have hnamed : start.Named grouped := by simp [grouped, Named, after, start, Site.new, register]
  obtain ⟨-, -, htables, -, hfallbacks⟩ := registrations_recorded {} [] grouped hnamed
  refine ⟨hnamed, ?_, ?_⟩
  · obtain ⟨-, -, -, -, hfind⟩ := htables "GET"
    obtain ⟨-, route, hroute, he⟩ :=
      hfind "/api/7" ⟨0, [("id", "7")], "/api/:id"⟩ (by decide +kernel)
    obtain rfl := Option.some.inj hroute
    exact ⟨_, he⟩
  · exact (hfallbacks (by simp [grouped])).1

end Site

end Gateway
