import Gateway.Proofs.Exchange.Lockstep
import Gateway.Proofs.Handler.Uniform
import Gateway.Proofs.Router.Decision

/-! Contexts that are used again leave no trace: a request gets the same answer from a context that
served others, in whatever state these left it, as from a new one. -/

namespace Gateway.Router

theorem opening_alike {r r' : Router} (h : r.Sound) (h' : r'.Sound)
    (hc : r.cancelled = r'.cancelled) (hs : r.shelf.SameHandles r'.shelf) (w : World)
    (request : Request) : (r.opening w request).Alike (r'.opening w request) := by
  refine ⟨r'.checkout.1.place, r'.checkout.2.shelf, ?_, h.cleanedAt.alike h'.cleanedAt hs⟩
  simp only [opening, Exchange.relocate]
  rw [r.checkout_context, r'.checkout_context, hc]
  rfl

theorem Choice.start_alike {x y : Exchange} (h : x.Alike y) (choice : Choice) :
    (x.mapContext choice.start).Alike (y.mapContext choice.start) := by
  obtain ⟨q, t, rfl, hs⟩ := h
  cases choice <;> exact ⟨q, t, rfl, hs⟩

theorem completeFallback_alike {x y : Exchange} (h : x.Alike y) (code : Status) :
    (completeFallback code x).Alike (completeFallback code y) := by
  have hrender := h.apply (.render code (.json (StatusBody.ofStatus code).toJson))
  have hw : y.context.writer = x.context.writer := by
    obtain ⟨q, t, rfl, -⟩ := h
    rfl
  unfold completeFallback
  rw [hw]
  split
  · exact h
  · split
    · exact hrender
    · exact h

theorem Choice.complete_alike {e e' : Ending} (h : e.Alike e') (choice : Choice) :
    (choice.complete e).Alike (choice.complete e') := by
  cases choice with
  | route chain pattern params => exact h
  | fallback code chain =>
    cases h with
    | finished h => exact .finished (completeFallback_alike h code)
    | interrupted h => exact .interrupted h

theorem finish_eq_of_alike {e e' : Ending} (h : e.Alike e') (r r' : Router) :
    (finish r e).outcome = (finish r' e').outcome ∧ (finish r e).world = (finish r' e').world ∧
      (finish r e).events = (finish r' e').events ∧
      (finish r e).visits = (finish r' e').visits := by
  cases h with
  | finished h =>
    obtain ⟨q, t, rfl, -⟩ := h
    exact ⟨rfl, rfl, rfl, rfl⟩
  | interrupted h =>
    obtain ⟨q, t, rfl, -⟩ := h
    exact ⟨rfl, rfl, rfl, rfl⟩

open Machine in
/-- After any history, a request whose handlers cannot tell where values are is served as by a
router with the same routes and an empty pool, when those who hold handles see the same on both: its
answer, the world, the log and the visits are the same, and so is all that its handlers see on the
way. -/
theorem dispatch_emptyPool {s t : Site} (hs : s.Reachable) (ht : t.Reachable)
    (same : s.router.SameRoutes t.router) (cancelled : s.router.cancelled = t.router.cancelled)
    (held : s.router.shelf.SameHandles t.router.shelf) (pool : Pool Context)
    (empty : pool.idle = []) (w : World) (request : Request)
    (uniform : ∀ h ∈ (s.router.choose request.method (s.router.lookupPath request)).chain,
      h.program.Uniform) :
    let used := s.router
    let unused := { t.router with pool }
    let choice := used.choose request.method (used.lookupPath request)
    let start (r : Router) := (r.opening w request).mapContext choice.start
    (used.dispatch w request).outcome = (unused.dispatch w request).outcome ∧
    (used.dispatch w request).world = (unused.dispatch w request).world ∧
    (used.dispatch w request).events = (unused.dispatch w request).events ∧
    (used.dispatch w request).visits = (unused.dispatch w request).visits ∧
    ∃ ms ns m n,
      Run choice.chain ⟨.loop, [], start used⟩ ms m ∧
      Halts choice.chain m (choice.chain.next (start used)) ∧
      Run choice.chain ⟨.loop, [], start unused⟩ ns n ∧
      Halts choice.chain n (choice.chain.next (start unused)) ∧ ns.map seen = ms.map seen := by
  intro used unused choice start
  have hunused : unused.Sound := ⟨ht.sound.tables, ht.sound.shelf, by simp [unused, empty]⟩
  have hroutes : used.SameRoutes unused := ⟨same.options, same.tables, same.fallbacks⟩
  have hopen := opening_alike hs.sound hunused cancelled held w request
  obtain ⟨hnext, hruns⟩ := Chain.next_alike uniform (choice.start_alike hopen)
  obtain ⟨ho, hw, he, hv⟩ :=
    finish_eq_of_alike (choice.complete_alike hnext) used.checkout.2 unused.checkout.2
  have hd : unused.dispatch w request =
      finish unused.checkout.2 (serve (unused.opening w request) choice) := by
    rw [dispatch, ← hroutes.lookupPath_eq, ← hroutes.choose_eq]
  rw [hd]
  exact ⟨ho, hw, he, hv, hruns⟩

def litter : Handler :=
  Script.handler "litter"
    [.act (.setValue "secret" (.flag true)), .hold, .act (.recordError (.text "late")),
      .act (.write [1, 2]), .act .skip, .panic .other]

def look : Handler :=
  Script.handler "look"
    [.note "values" fun x => .ofNat x.values.size,
      .note "errors" fun x => .ofNat x.context.errors.length]

def panicking : Site :=
  let router := (Site.new { handleMethodNotAllowed := false } []).router
  let router := router.handle rootGroup "GET" "/litter" [litter]
  let (router, root) := router.useMiddleware rootGroup defaultMiddleware
  { router := router.notFound [look], groups := [root] }

def littered : Site :=
  { panicking with router := (panicking.router.dispatch {} { uri.rawPath := "/litter" }).router }

theorem littered_reachable : littered.Reachable := by
  have hnew : Site.Reachable (.new { handleMethodNotAllowed := false } []) := .new _ _
  have hroute := hnew.register ⟨0, Nat.one_pos⟩ (.handle "GET" "/litter" [litter]) rfl
  have huse := hroute.register ⟨0, Nat.one_pos⟩ (.use defaultMiddleware) rfl
  exact (huse.register ⟨0, Nat.one_pos⟩ (.notFound [look]) rfl).request {} _

theorem defaultMiddleware_uniform : ∀ h ∈ defaultMiddleware, h.program.Uniform := by
  simp [defaultMiddleware, AccessLogger.uniform, AccessLogger.handler, Recovery.uniform,
    RequestId.uniform, RequestId.handler]

theorem look_uniform : look.program.Uniform := by
  refine Script.uniform ?_ "look"
  refine List.forall_mem_cons.mpr ⟨fun x y h => ?_, ?_⟩
  · simp only [h.values_eq]
  · refine List.forall_mem_singleton.mpr fun x y h => ?_
    obtain ⟨q, t, rfl, -⟩ := h
    rfl

theorem dispatch_emptyPool_littered :
    let used := littered.router
    let unused := { used with pool := { maxIdle := 8 } }
    let request : Request := { method := "PUT" }
    littered.Reachable ∧
    used.pool.idle.map (fun c => (c.aborted, c.errors, c.writer.size)) = [(true, [.text "late"], 2)] ∧
    used.shelf.handles = [some 0] ∧
    (∀ h ∈ (used.choose request.method (used.lookupPath request)).chain, h.program.Uniform) ∧
    (used.dispatch {} request).outcome = (unused.dispatch {} request).outcome ∧
    (used.dispatch {} request).world = (unused.dispatch {} request).world := by
  intro used unused request
  have huniform : ∀ h ∈ (used.choose request.method (used.lookupPath request)).chain,
      h.program.Uniform := by
    have hsame : panicking.router.SameRoutes used := dispatch_sameRoutes _ _ _
    rw [← hsame.choose_eq]
    exact List.forall_mem_append.mpr
      ⟨defaultMiddleware_uniform, List.forall_mem_singleton.mpr look_uniform⟩
  obtain ⟨ho, hw, -⟩ := dispatch_emptyPool littered_reachable littered_reachable (.refl _) rfl
    (.refl _) { maxIdle := 8 } rfl {} request huniform
  exact ⟨littered_reachable, by decide +kernel, by decide +kernel, huniform, ho, hw⟩

end Gateway.Router
