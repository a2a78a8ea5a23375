import Gateway.Proofs.Handler.Auth
import Gateway.Proofs.Handler.Recovery
import Gateway.Proofs.Router.Decision

/-! Who gets past the authentication and the scopes of a chain, on any router that served requests
before. -/

namespace Gateway

open Machine

namespace Permission

variable {claim : String} {required : List String} {chain : Chain} {p : Nat}

def refused (x : Exchange) : Exchange :=
  (Operation.abort .forbidden).apply
    ((Operation.setHeader "www-authenticate"
      (.ofText "Bearer error=\"insufficient_scope\"")).apply x)

end Permission

namespace Router

def chosen (r : Router) (request : Request) : Choice :=
  r.choose request.method (r.lookupPath request)

def launch (r : Router) (w : World) (request : Request) : Machine :=
  ⟨.loop, [], (r.opening w request).mapContext (r.chosen request).start⟩

theorem Choice.start_frame (choice : Choice) (c : Context) :
    (choice.start c).cursor = 0 ∧ (choice.start c).place = c.place := by
  cases choice <;> exact ⟨rfl, rfl⟩

theorem launch_clean {s : Site} (h : s.Reachable) (w : World) (request : Request) :
    (s.router.launch w request).exchange.shelf.Valid ∧
      ∀ name, (s.router.launch w request).exchange.values.claims? name = none := by
  have hclean := h.sound.cleanedAt
  refine ⟨hclean.valid, fun name => ?_⟩
  have hplace := ((s.router.chosen request).start_frame (s.router.opening w request).context).2
  have hvalues : (s.router.launch w request).exchange.values = {} := by
    unfold Exchange.values Exchange.holder
    rw [show (s.router.launch w request).exchange.context.place = s.router.checkout.1.place from
      hplace]
    exact hclean.own
  rw [hvalues]
  rfl

variable {verify : TokenVerifier} {o : AuthOptions} {chain : Chain} {a : Nat} {x : Exchange}

def readerRequest : Request :=
  { uri.rawPath := "/a", headers := ⟨[("authorization", .ofText "Bearer t")]⟩ }

/-- A handler that is called on once more after its check was cut short. -/
theorem interrupted_check_passed :
    let again : Handler := ⟨"again", .attempt (fun _ => .next .done) .done⟩
    let answer : Handler := ⟨"answer", .act (.write (Utf8.encode "secret")) .done⟩
    ∀ why ∈ [.dropped, .panic .other],
      let chain : Chain := [again, Auth.handler (fun _ => .error why) {}, answer]
      let e := chain.next { context.request := readerRequest }
      2 ∈ entered e.exchange.visits ∧
        e.exchange.context.writer.body = .buffered (Utf8.encode "secret") := by
  decide +kernel

end Router

end Gateway
