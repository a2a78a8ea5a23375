import Gateway.Proofs.Router.Access
import Gateway.Proofs.Router.History

/-! Middleware that a router is made with stays at the front of every chain: of the routes, of the
groups and of the fallbacks, whatever is registered later and whatever is served in between. -/

namespace Gateway

/-- The chain starts with the front, and all that comes behind it satisfies `P`. -/
def Chain.Behind (front : List Handler) (P : Handler → Prop) (chain : Chain) : Prop :=
  ∃ rest, chain = front ++ rest ∧ ∀ h ∈ rest, P h

variable {front : List Handler} {P : Handler → Prop}

theorem Chain.Behind.append {chain : Chain} (h : chain.Behind front P) {handlers : List Handler}
    (given : ∀ h ∈ handlers, P h) : Chain.Behind front P (chain ++ handlers) := by
  obtain ⟨rest, rfl, hrest⟩ := h
  exact ⟨rest ++ handlers, List.append_assoc _ _ _, List.forall_mem_append.mpr ⟨hrest, given⟩⟩

theorem Table.mem_of_find? {t : Table} {path pattern : String} {chain : Chain} {hit : Hit}
    (h : t.find? path = some (chain, pattern, hit)) : chain ∈ t.chains := by
  obtain ⟨_, -, h⟩ := Option.bind_eq_some_iff.mp h
  obtain ⟨_, hchain, h⟩ := Option.bind_eq_some_iff.mp h
  obtain ⟨_, -, h⟩ := Option.bind_eq_some_iff.mp h
  cases h
  exact List.mem_of_getElem? hchain

namespace Router

/-- Every chain that may serve a request has the front, and so will those to come. -/
structure Fronted (front : List Handler) (P : Handler → Prop) (r : Router) : Prop where
  root : Chain.Behind front P r.handlers.rootMiddleware
  notFound : ∀ h ∈ r.handlers.notFound, P h
  noMethod : ∀ h ∈ r.handlers.noMethod, P h
  composed : r.fallbacks = r.handlers.compose
  tables : ∀ m t, (m, t) ∈ r.tables → ∀ chain ∈ t.chains, Chain.Behind front P chain

theorem Fronted.handle {r : Router} (h : r.Fronted front P) {g : Group}
    (hg : Chain.Behind front P g.middleware) (m : Method) (pattern : String)
    {handlers : List Handler} (given : ∀ h ∈ handlers, P h) :
    (r.handle g m pattern handlers).Fronted front P where
  root := h.root
  notFound := h.notFound
  noMethod := h.noMethod
  composed := h.composed
  tables := by
    intro n t ht chain hc
    rcases Tables.mem_put ht with rfl | hold
    · rcases List.mem_append.mp hc with hc | hc
      · cases hget : r.tables.get? m with
        | none => simp [hget] at hc
        | some t =>
          rw [hget] at hc
          exact h.tables m t (Tables.mem_of_get? hget) chain hc
      · rw [List.mem_singleton.mp hc]
        exact hg.append given
    · exact h.tables n t hold chain hc

theorem Fronted.handleAll {r : Router} (h : r.Fronted front P) {g : Group}
    (hg : Chain.Behind front P g.middleware) (ms : List Method) (pattern : String)
    {handlers : List Handler} (given : ∀ h ∈ handlers, P h) :
    (r.handleAll g ms pattern handlers).Fronted front P := by
  unfold Router.handleAll
  induction ms generalizing r with
  | nil => exact h
  | cons m ms ih => exact ih (h.handle hg m pattern given)

theorem Fronted.withHandlers {r : Router} (h : r.Fronted front P) {handlers : FallbackHandlers}
    (root : Chain.Behind front P handlers.rootMiddleware) (notFound : ∀ h ∈ handlers.notFound, P h)
    (noMethod : ∀ h ∈ handlers.noMethod, P h) : (r.withHandlers handlers).Fronted front P :=
  ⟨root, notFound, noMethod, rfl, h.tables⟩

theorem Fronted.sameRoutes {r r' : Router} (h : r.Fronted front P) (same : r.SameRoutes r')
    (handlers : r.handlers = r'.handlers) : r'.Fronted front P :=
  ⟨handlers ▸ h.root, handlers ▸ h.notFound, handlers ▸ h.noMethod,
    same.fallbacks ▸ handlers ▸ h.composed, same.tables ▸ h.tables⟩

theorem Fronted.chosen {r : Router} (h : r.Fronted front P) (request : Request) :
    (r.chosen request).chain.Behind front P := by
  unfold Router.chosen choose
  split
  · next chain pattern hit hfind =>
    obtain ⟨t, ht, hf⟩ := Option.bind_eq_some_iff.mp hfind
    exact h.tables _ t (Tables.mem_of_get? ht) chain (Table.mem_of_find? hf)
  · split
    · simp only [Choice.chain, h.composed]
      exact h.root.append h.noMethod
    · simp only [Choice.chain, h.composed]
      exact h.root.append h.notFound

end Router

namespace Site

def Registration.handlers : Registration → List Handler
  | use handlers => handlers
  | group _ handlers => handlers
  | clone => []
  | handle _ _ handlers => handlers
  | any _ handlers => handlers
  | notFound handlers => handlers
  | noMethod handlers => handlers
  | serveFiles _ files => [files]

/-- The front is there for the routes of now and, by the groups, for those to come. -/
structure Fronted (front : List Handler) (P : Handler → Prop) (s : Site) : Prop where
  router : s.router.Fronted front P
  groups : ∀ g ∈ s.groups, Chain.Behind front P g.middleware

theorem fronted_new (options : RouterOptions) (front : List Handler) (P : Handler → Prop) :
    (Site.new options front).Fronted front P := by
  have hfront : Chain.Behind front P front := ⟨[], (List.append_nil _).symm, by simp⟩
  refine ⟨⟨hfront, ?_, ?_, rfl, ?_⟩, ?_⟩
  · simp [Site.new, Router.new, Router.useMiddleware, Router.rootGroup, Router.withHandlers]
  · simp [Site.new, Router.new, Router.useMiddleware, Router.rootGroup, Router.withHandlers]
  · simp [Site.new, Router.new, Router.useMiddleware, Router.rootGroup, Router.withHandlers]
  · exact List.forall_mem_singleton.mpr hfront

theorem register_eq {s s' : Site} {on : Fin s.groups.length} {what : Registration}
    (done : s.register on what = .ok s') :
    s' = ⟨what.router (s.groups.get on) s.router, what.groups on (s.groups.get on) s.groups⟩ := by
  have hgroup : s.groups[on.val]? = some (s.groups.get on) := List.getElem?_eq_getElem on.isLt
  rw [← after_of_group hgroup, after, dif_pos on.isLt]
  simp only [Fin.eta, done]

theorem Fronted.router_of {r : Router} (h : r.Fronted front P) {g : Group}
    (hg : Chain.Behind front P g.middleware) {what : Registration}
    (given : ∀ h ∈ what.handlers, P h) : (what.router g r).Fronted front P := by
  unfold Registration.router
  cases what with
  | use handlers =>
    simp only [Router.useMiddleware]
    split
    · exact h.withHandlers (hg.append given) h.notFound h.noMethod
    · exact h
  | group base handlers => exact h
  | clone => exact h
  | handle m pattern handlers => exact h.handle hg m pattern given
  | any pattern handlers => exact h.handleAll hg _ pattern given
  | notFound handlers => exact h.withHandlers h.root given h.noMethod
  | noMethod handlers => exact h.withHandlers h.root h.notFound given
  | serveFiles mount files =>
    simp only
    split
    · exact h
    · exact h.handleAll hg _ _ given

theorem Fronted.register {s s' : Site} (h : s.Fronted front P) (on : Fin s.groups.length)
    (what : Registration) (given : ∀ h ∈ what.handlers, P h) (done : s.register on what = .ok s') :
    s'.Fronted front P := by
  have hg := h.groups s.groups[on] (List.getElem_mem _)
  obtain rfl := register_eq done
  refine ⟨Fronted.router_of h.router hg given, fun g' hg' => ?_⟩
  unfold Registration.groups at hg'
  cases what with
  | use handlers =>
    rcases List.mem_or_eq_of_mem_set hg' with hold | rfl
    · exact h.groups g' hold
    · exact hg.append given
  | group base handlers =>
    rcases List.mem_append.mp hg' with hold | hnew
    · exact h.groups g' hold
    · rw [List.mem_singleton.mp hnew]
      exact hg.append given
  | clone =>
    rcases List.mem_append.mp hg' with hold | hnew
    · exact h.groups g' hold
    · rw [List.mem_singleton.mp hnew]
      exact hg
  | handle | any | notFound | noMethod | serveFiles => exact h.groups g' hg'

/-- A step in the life of a site: a registration, of handlers that satisfy `P`, or anything that
leaves the registrations alone. -/
inductive Onward (P : Handler → Prop) : Site → Site → Prop
  | register {s s' : Site} (on : Fin s.groups.length) (what : Registration)
      (given : ∀ h ∈ what.handlers, P h) (done : s.register on what = .ok s') : Onward P s s'
  | serve {s : Site} {r : Router} (same : s.router.SameRoutes r)
      (handlers : s.router.handlers = r.handlers) : Onward P s { s with router := r }

theorem Onward.request (P : Handler → Prop) (s : Site) (w : World) (request : Request) :
    s.Onward P { s with router := (s.router.dispatch w request).router } :=
  .serve (Router.dispatch_sameRoutes s.router w request)
    (Router.dispatch_handlers s.router w request).symm

theorem Onward.fronted {s s' : Site} (h : s.Onward P s') (hs : s.Fronted front P) :
    s'.Fronted front P := by
  cases h with
  | register on what given done => exact hs.register on what given done
  | serve same handlers => exact ⟨hs.router.sameRoutes same handlers, hs.groups⟩

theorem fronted_of_onward {options : RouterOptions} {s : Site}
    (made : Relation.ReflTransGen (Onward P) (Site.new options front) s) : s.Fronted front P := by
  induction made with
  | refl => exact fronted_new options front P
  | tail _ hs ih => exact hs.fronted ih

end Site

end Gateway
