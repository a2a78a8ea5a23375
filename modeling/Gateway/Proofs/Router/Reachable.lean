import Gateway.Proofs.Exchange.Place
import Gateway.Proofs.Router.Table
import Gateway.Router.Dispatch

/-! The sites that registrations and requests lead to, and what holds of all of them. -/

namespace Gateway

/-- Registrations and requests in any order. Requests may also overlap: each takes a context, its
handlers and those who hold a handle act on the shelf, and the context comes back in any state. -/
inductive Site.Reachable : Site → Prop
  | new (options : RouterOptions) (middleware : List Handler) : Reachable (.new options middleware)
  | register {s s' : Site} (h : Reachable s) (on : Fin s.groups.length) (what : Site.Registration)
      (done : s.register on what = .ok s') : Reachable s'
  | request {s : Site} (h : Reachable s) (w : World) (request : Request) :
      Reachable { s with router := (s.router.dispatch w request).router }
  | take {s : Site} (h : Reachable s) : Reachable { s with router := s.router.checkout.2 }
  | shelve {s : Site} (h : Reachable s) (op : Operation) (place : Nat) :
      Reachable { s with router.shelf := op.shelve place s.router.shelf }
  | release {s : Site} (h : Reachable s) (c : Context)
      (known : c.place < s.router.shelf.contexts.length) :
      Reachable { s with router.pool := s.router.pool.release c }
  | cancel {s : Site} (h : Reachable s) : Reachable { s with router.cancelled := true }

namespace Router

/-- The tables are coherent, and the idle contexts have their places on a valid shelf. -/
structure Sound (r : Router) : Prop where
  tables : r.tables.Coherent
  shelf : r.shelf.Valid
  idle : ∀ c ∈ r.pool.idle, c.place < r.shelf.contexts.length

theorem sound_new (options : RouterOptions) : (Router.new options).Sound :=
  ⟨Tables.coherent_nil, Shelf.valid_empty, by simp [Router.new]⟩

/-! ### Registrations -/

theorem Sound.handle {r : Router} (h : r.Sound) (g : Group) (m : Method) (pattern : String)
    (handlers : List Handler) : (r.handle g m pattern handlers).Sound :=
  ⟨h.tables.add m _ _, h.shelf, h.idle⟩

theorem Sound.handleAll {r : Router} (h : r.Sound) (g : Group) (ms : List Method)
    (pattern : String) (handlers : List Handler) : (r.handleAll g ms pattern handlers).Sound := by
  unfold Router.handleAll
  induction ms generalizing r with
  | nil => exact h
  | cons m ms ih => exact ih (h.handle g m pattern handlers)

theorem Sound.withHandlers {r : Router} (h : r.Sound) (handlers : FallbackHandlers) :
    (r.withHandlers handlers).Sound := ⟨h.tables, h.shelf, h.idle⟩

theorem Sound.useMiddleware {r : Router} (h : r.Sound) (g : Group) (handlers : List Handler) :
    (r.useMiddleware g handlers).1.Sound := by
  unfold Router.useMiddleware
  simp only []
  split
  · exact h.withHandlers _
  · exact h

theorem Sound.register {s s' : Site} (h : s.router.Sound) (on : Fin s.groups.length)
    (what : Site.Registration) (done : s.register on what = .ok s') : s'.router.Sound := by
  cases what with
  | use handlers => cases done; exact h.useMiddleware _ handlers
  | group base handlers => cases done; exact h
  | clone => cases done; exact h
  | handle m pattern handlers => cases done; exact h.handle _ m pattern handlers
  | any pattern handlers => cases done; exact h.handleAll _ _ pattern handlers
  | notFound handlers => cases done; exact h.withHandlers _
  | noMethod handlers => cases done; exact h.withHandlers _
  | serveFiles mount files =>
    simp only [Site.register, Router.serveFiles] at done
    split at done
    · cases done
    · cases done
      exact h.handleAll _ _ _ _

/-! ### Contexts from the pool -/

theorem checkout_of_idle {r : Router} {c : Context} {cs : List Context}
    (hi : r.pool.idle = c :: cs) :
    r.checkout = (c.reset, { r with pool.idle := cs, shelf := r.shelf.reset c.place }) := by
  simp [checkout, shelfWithPlace, Pool.acquire, Pool.take, hi, Context.reset]

theorem checkout_of_empty {r : Router} (hi : r.pool.idle = []) :
    r.checkout = ({ place := r.shelf.contexts.length },
      { r with
        pool.made := r.pool.made + 1
        shelf := r.shelf.newContext.reset r.shelf.contexts.length }) := by
  simp [checkout, shelfWithPlace, Pool.acquire, Pool.take, hi, Context.reset]

theorem checkout_context (r : Router) : r.checkout.1 = { place := r.checkout.1.place } := by
  cases hi : r.pool.idle with
  | nil => rw [checkout_of_empty hi]
  | cons c cs =>
    rw [checkout_of_idle hi]
    rfl

theorem Sound.place_lt {r : Router} (h : r.Sound) :
    r.checkout.1.place < r.checkout.2.shelf.contexts.length := by
  cases hi : r.pool.idle with
  | nil => simp [checkout_of_empty hi]
  | cons c cs => simpa [checkout_of_idle hi] using h.idle c (by simp [hi])

theorem Sound.cleanedAt {r : Router} (h : r.Sound) :
    Shelf.CleanedAt r.checkout.1.place r.shelf r.checkout.2.shelf := by
  cases hi : r.pool.idle with
  | nil =>
    rw [checkout_of_empty hi]
    have hnew := Shelf.newContext_cleanedAt h.shelf
    exact hnew.trans (Shelf.reset_cleanedAt hnew.valid (by simp))
  | cons c cs =>
    rw [checkout_of_idle hi]
    exact Shelf.reset_cleanedAt h.shelf (h.idle c (by simp [hi]))

theorem Sound.checkout {r : Router} (h : r.Sound) : r.checkout.2.Sound where
  tables := h.tables
  shelf := h.cleanedAt.valid
  idle := by
    intro c hc
    cases hi : r.pool.idle with
    | nil => simp [checkout_of_empty hi, hi] at hc
    | cons d ds =>
      rw [checkout_of_idle hi] at hc ⊢
      simpa using h.idle c (by simp_all)

theorem Sound.release {r : Router} (h : r.Sound) {c : Context}
    (hc : c.place < r.shelf.contexts.length) : Sound { r with pool := r.pool.release c } where
  tables := h.tables
  shelf := h.shelf
  idle := by
    intro d hd
    unfold Pool.release at hd
    split at hd
    · rcases List.mem_cons.mp hd with rfl | hm
      · exact hc
      · exact h.idle d hm
    · exact h.idle d hd

/-! ### Requests -/

theorem completeFallback_steady (code : Status) (x : Exchange) :
    x.Steady (completeFallback code x) := by
  unfold completeFallback
  split
  · exact .refl x
  · split
    · exact ⟨rfl, rfl, id⟩
    · exact .refl x

theorem Choice.complete_steady (choice : Choice) (e : Ending) :
    e.exchange.Steady (choice.complete e).exchange := by
  cases choice with
  | route chain pattern params => exact .refl _
  | fallback code chain =>
    cases e with
    | finished x => exact completeFallback_steady code x
    | interrupted x why => exact .refl _

theorem serve_steady (x : Exchange) (choice : Choice) : x.Steady (serve x choice).exchange := by
  have hstart : x.Steady (x.mapContext choice.start) := by
    cases choice <;> exact ⟨rfl, rfl, id⟩
  exact (hstart.trans (choice.chain.next_steady _)).trans (choice.complete_steady _)

theorem Sound.finish {r : Router} (h : r.Sound) {e : Ending} (hv : e.exchange.shelf.Valid)
    (hc : e.exchange.shelf.contexts = r.shelf.contexts)
    (hp : e.exchange.context.place < r.shelf.contexts.length) : (finish r e).router.Sound := by
  have hr : Sound { r with shelf := e.exchange.shelf } :=
    ⟨h.tables, hv, fun c hm => hc ▸ h.idle c hm⟩
  have hlt : e.exchange.context.place < e.exchange.shelf.contexts.length := hc ▸ hp
  cases e with
  | finished x => exact hr.release hlt
  | interrupted x why => exact hr.release hlt

theorem Sound.dispatch {r : Router} (h : r.Sound) (w : World) (request : Request) :
    (r.dispatch w request).router.Sound := by
  have hs := serve_steady (r.opening w request) (r.choose request.method (r.lookupPath request))
  exact h.checkout.finish (hs.valid h.cleanedAt.valid) hs.contexts (hs.place ▸ h.place_lt)

end Router

theorem Site.Reachable.sound {s : Site} (h : s.Reachable) : s.router.Sound := by
  induction h with
  | new options middleware => exact (Router.sound_new options).useMiddleware Router.rootGroup middleware
  | register _ on what done ih => exact ih.register on what done
  | request _ w request ih => exact ih.dispatch w request
  | take _ ih => exact ih.checkout
  | shelve _ op place ih =>
    exact ⟨ih.tables, op.shelve_valid ih.shelf place, by
      simpa [Operation.shelve_contexts] using ih.idle⟩
  | release _ c known ih => exact ih.release known
  | cancel _ ih => exact ⟨ih.tables, ih.shelf, ih.idle⟩

end Gateway
