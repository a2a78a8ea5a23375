import Gateway.Proofs.Proxy.Outcome
import Gateway.Proofs.Router.Access
import Gateway.Proofs.Values.Store

/-! What a proxy leaves behind: the answer of a target with no error, or one error and its text as
the whole answer. In both cases the chain ends, and the target that was chosen is kept. -/

namespace Gateway

namespace Proxy

inductive Leaves (x y : Exchange) : Except ProxyError Response → Prop
  | answer {r : Response} (errors : y.context.errors = x.context.errors)
      (status : y.context.writer.status = r.status)
      (body : y.context.writer.body = .stream r.body) : Leaves x y (.ok r)
  | error {e : ProxyError} (errors : y.context.errors = x.context.errors ++ [.text (failureBody e).text])
      (status : y.context.writer.status = e.status)
      (code : e.status.code ∈ [499, 500, 502, 503])
      (body : y.context.writer.body = .buffered (Utf8.encode (e.answer ++ "\n"))) :
      Leaves x y (.error e)

def concluded (x : Exchange) : Except ProxyError Response → Exchange
  | .ok r => Operation.skip.apply ((Operation.writeResponse r).apply x)
  | .error e =>
    let reported := match e with
      | .canceled _ => x
      | _ => (Operation.emit (.proxyFailed e.message)).apply x
    Operation.skip.apply ((Operation.recordError (.text (failureBody e).text)).apply
      ((Operation.abortWith e.status (failureBody e).toJson).apply reported))

open Machine

theorem conclude_reaches (chain : Chain) (i : Nat) (ws : List Waiting) (x : Exchange)
    (result : Except ProxyError Response) :
    Reaches chain ⟨.handler i (conclude result), ws, x⟩
      ⟨.handler i .done, ws, concluded x result⟩ := by
  cases result with
  | ok r => exact .head .act (.single .act)
  | error e =>
    cases e with
    | canceled target => exact .head .act <| .head .act <| .single .act
    | _ => exact .head .act <| .head .act <| .head .act <| .single .act

theorem concluded_aborted (x : Exchange) (result : Except ProxyError Response) :
    (concluded x result).context.aborted = true := by cases result <;> rfl

theorem concluded_visits (x : Exchange) (result : Except ProxyError Response) :
    (concluded x result).visits = x.visits := by
  cases result with
  | ok r => rfl
  | error e => cases e <;> rfl

theorem concluded_values (x : Exchange) (result : Except ProxyError Response) :
    (concluded x result).values = x.values := by
  have hplace : (concluded x result).context.place = x.context.place := by
    cases result with
    | ok r => rfl
    | error e => cases e <;> simp [concluded]
  have hshelf : (concluded x result).shelf = x.shelf := by
    cases result with
    | ok r => rfl
    | error e => cases e <;> rfl
  unfold Exchange.values Exchange.holder
  rw [hplace, hshelf]

theorem concluded_leaves {x : Exchange} (running : x.context.aborted = false)
    (result : Except ProxyError Response) : Leaves x (concluded x result) result := by
  cases result with
  | ok r => exact .answer rfl rfl rfl
  | error e =>
    have hcontext : (concluded x (.error e)).context =
        ((x.context.abortWith e.status (failureBody e).toJson).1.recordError
          (.text (failureBody e).text)).skip := by
      cases e <;> rfl
    rw [Context.abortWith_of_running running e.allowsBody_status, compact_failureBody] at hcontext
    refine .error ?_ ?_ e.code_mem ?_ <;> rw [hcontext] <;> rfl

theorem Leaves.of_errors_eq {x x' y : Exchange} {result : Except ProxyError Response}
    (h : Leaves x y result) (same : x.context.errors = x'.context.errors) :
    Leaves x' y result := by
  cases h with
  | answer errors status body => exact .answer (errors.trans same) status body
  | error errors status code body => exact .error (same ▸ errors) status code body

theorem get?_marked (p : Proxy) {x : Exchange} (valid : x.shelf.Valid)
    (known : x.context.place < x.shelf.contexts.length) (t : Target) :
    (p.marked x (some t)).values.get? p.key = some (.target t) := by
  have hstore : x.shelf.storeOf? x.holder ≠ none := by
    simpa [Shelf.storeOf?, Exchange.holder] using known
  change ((x.shelf.set x.holder p.key (.target t)).view x.holder).get? p.key = _
  rw [Shelf.set, Shelf.view_modify valid, if_pos ⟨hstore, rfl⟩, Values.get?_set, if_pos rfl]

/-- A proxy that was entered comes to its end with a result. -/
structure Completes (p : Proxy) (chain : Chain) (i : Nat) (n : Machine) (target? : Option Target)
    (result : Except ProxyError Response) (y : Exchange) : Prop where
  outcome : Outcome p n.exchange target? result
  reached : Reaches chain n ⟨.handler i .done, n.waiting, y⟩
  aborted : y.context.aborted = true
  shut : ∀ m, Reaches chain n m → entered m.exchange.visits = entered n.exchange.visits
  leaves : Leaves n.exchange y result
  target : ∀ t, target? = some t → y.values.get? p.key = some (.target t)
  values : target? = none → y.values = n.exchange.values

theorem exists_completes {p : Proxy} {chain : Chain} {i : Nat} {n : Machine}
    (enters : Enters chain i p.handler n)
    (valid : n.exchange.shelf.Valid)
    (known : n.exchange.context.place < n.exchange.shelf.contexts.length) :
    ∃ target? result y, Completes p chain i n target? result y := by
  obtain ⟨activity, ws, x⟩ := n
  obtain rfl : activity = .handler i p.program := enters.activity
  obtain ⟨target?, result, y, houtcome, ⟨request, world, rfl⟩, hr⟩ :=
    program_reaches chain i ws p x
  have hreached := hr.trans (conclude_reaches chain i ws _ result)
  have hmarked : (p.marked x target?).context = x.context ∧
      (p.marked x target?).visits = x.visits := by cases target? <;> exact ⟨rfl, rfl⟩
  refine ⟨target?, result, _, houtcome, hreached, concluded_aborted _ _, ?_, ?_, ?_, ?_⟩
  · intro m hm
    refine Reaches.entered_eq_of_shut hreached (concluded_aborted _ _) ?_ hm
    exact congrArg entered ((concluded_visits _ result).trans hmarked.2)
  · have herrors : (p.marked x target?).context.errors = x.context.errors :=
      congrArg Context.errors hmarked.1
    have hrunning : (p.marked x target?).context.aborted = false :=
      (congrArg Context.aborted hmarked.1).trans enters.running
    exact Leaves.of_errors_eq (concluded_leaves (by exact hrunning) result) herrors
  · rintro t rfl
    rw [concluded_values]
    exact get?_marked p valid known t
  · rintro rfl
    rw [concluded_values]
    rfl

/-- Whatever two runs of proxies were about: errors that differ in their causes alone are answered
with the same status and the same bytes. -/
theorem Completes.answer_eq {p p' : Proxy} {chain chain' : Chain} {i i' : Nat} {n n' : Machine}
    {target? target?' : Option Target} {e e' : ProxyError} {y y' : Exchange}
    (h : Completes p chain i n target? (.error e) y)
    (h' : Completes p' chain' i' n' target?' (.error e') y') (same : e.SameButCause e') :
    y.context.writer.status = y'.context.writer.status ∧
      y.context.writer.body = y'.context.writer.body := by
  cases h.leaves with
  | error _ hstatus _ hbody =>
    cases h'.leaves with
    | error _ hstatus' _ hbody' =>
      exact ⟨by rw [hstatus, hstatus', same.status_eq], by rw [hbody, hbody', same.answer_eq]⟩

end Proxy

namespace Router

/-- On a router that served any requests before, whatever the handlers in front of a proxy did. When
the proxy is done the chain is at its end, and either the answer of a target is relayed with no
error, or there is one error more and its text replaced the response. Runs whose errors differ in
their causes alone answer the same. The target is kept whenever there is one. -/
theorem proxy_completes {s : Site} (h : s.Reachable) (w : World) (request : Request) {i : Nat}
    {p : Proxy} {n : Machine}
    (reached : Machine.Reaches (s.router.chosen request).chain (s.router.launch w request) n)
    (enters : Machine.Enters (s.router.chosen request).chain i p.handler n) :
    let chain := (s.router.chosen request).chain
    (∃ target? result y, p.Completes chain i n target? result y) ∧
    ∀ target? e y, p.Completes chain i n target? (.error e) y →
      ∀ (p' : Proxy) chain' i' n' target?' e' y',
        p'.Completes chain' i' n' target?' (.error e') y' → e.SameButCause e' →
        y.context.writer.status = y'.context.writer.status ∧
          y.context.writer.body = y'.context.writer.body := by
  intro chain
  have hsteady := Machine.Reaches.steady reached
  have hplace := ((s.router.chosen request).start_frame (s.router.opening w request).context).2
  have hknown : n.exchange.context.place < n.exchange.shelf.contexts.length := by
    rw [hsteady.place, hsteady.contexts]
    exact hplace ▸ h.sound.place_lt
  have hvalid := hsteady.valid (launch_clean h w request).1
  exact ⟨Proxy.exists_completes enters hvalid hknown,
    fun _ _ _ hc _ _ _ _ _ _ _ hc' same => hc.answer_eq hc' same⟩

def draft : Handler := ⟨"draft", .act (.write (Utf8.encode "draft")) .done⟩

def upstream : Target :=
  ⟨"a", { scheme := "http", slashes := true, host := some "10.0.0.1", path := "/" }, none⟩

def served : Response := { body := Utf8.encode "served" }

def hooked (modify : Response → Except String Response) : Proxy where
  balancer := 0
  modify
  network := ⟨fun _ _ => .answered served, fun _ _ => .answered served⟩

def hookedSite (p : Proxy) : Site := Site.new {} [draft, p.handler]

def hookedLaunch (p : Proxy) : Machine :=
  (hookedSite p).router.launch { balancers := [{ kind := .roundRobin, set := ⟨[upstream]⟩ }] } {}

def hookedEntered (p : Proxy) : Machine :=
  let drafted := (Operation.write (Utf8.encode "draft")).apply ((hookedLaunch p).exchange.enter 0)
  ⟨.handler 1 p.program, [], (drafted.visit (.leave 0)).enter 1⟩

theorem hooked_entered (p : Proxy) :
    Machine.Reaches [draft, p.handler] (hookedLaunch p) (hookedEntered p) ∧
      Machine.Enters [draft, p.handler] 1 p.handler (hookedEntered p) := by
  let x := (hookedLaunch p).exchange
  let drafted := (Operation.write (Utf8.encode "draft")).apply (x.enter 0)
  refine ⟨?_, rfl, rfl, rfl, rfl⟩
  exact .head (.enter (h := draft) (x := x) rfl rfl) <| .head (.acts rfl) <| .head .done <|
    .single (.enter (h := p.handler) (x := drafted.visit (.leave 0)) rfl rfl)

theorem hooked_outcome {modify : Response → Except String Response} {target? : Option Target}
    {result : Except ProxyError Response}
    (h : (hooked modify).Outcome (hookedEntered (hooked modify)).exchange target? result) :
    target? = some upstream ∧ result = (modify served).mapError (.modifyResponse upstream.text) := by
  have hprepared : (hooked modify).prepared {} = .ok (Proxy.introduced {}) := rfl
  have hsendable : (Outbound.request upstream.url (Proxy.introduced {})).toOption.isSome = true := by
    decide +kernel
  cases hout : Outbound.request upstream.url (Proxy.introduced {}) with
  | error e => simp [hout, Except.toOption] at hsendable
  | ok out => exact h.eq_of_answered rfl hprepared (by decide +kernel) hout rfl rfl

/-- A proxy behind a handler that has written something, with a hook that takes the answer and with
two that refuse it for different reasons. -/
theorem proxy_completes_hooked :
    let refusing (reason : String) := hooked fun _ => .error reason
    let chain (p : Proxy) : Chain := [draft, p.handler]
    (∀ p ∈ [hooked .ok, refusing "short", refusing "long"],
      (hookedSite p).Reachable ∧ Machine.Reaches (chain p) (hookedLaunch p) (hookedEntered p) ∧
      Machine.Enters (chain p) 1 p.handler (hookedEntered p) ∧
      (hookedEntered p).exchange.context.writer.body = .buffered (Utf8.encode "draft")) ∧
    (∃ y, (hooked .ok).Completes (chain (hooked .ok)) 1 (hookedEntered (hooked .ok))
      (some upstream) (.ok served) y ∧ y.context.writer.body = .stream served.body) ∧
    ∃ y y',
      (refusing "short").Completes (chain (refusing "short")) 1 (hookedEntered (refusing "short"))
        (some upstream) (.error (.modifyResponse upstream.text "short")) y ∧
      (refusing "long").Completes (chain (refusing "long")) 1 (hookedEntered (refusing "long"))
        (some upstream) (.error (.modifyResponse upstream.text "long")) y' ∧
      y.context.writer.status = .badGateway ∧
      y.context.writer.body = y'.context.writer.body := by
  intro refusing chain
  have hreachable (p : Proxy) : (hookedSite p).Reachable := .new {} [draft, p.handler]
  have hcompletes (modify : Response → Except String Response) :=
    proxy_completes (hreachable (hooked modify)) _ _ (hooked_entered (hooked modify)).1
      (hooked_entered (hooked modify)).2
  have hends (modify : Response → Except String Response) :
      ∃ y, (hooked modify).Completes (chain (hooked modify)) 1 (hookedEntered (hooked modify))
        (some upstream) ((modify served).mapError (.modifyResponse upstream.text)) y := by
    obtain ⟨⟨target?, result, y, hc⟩, -⟩ := hcompletes modify
    obtain ⟨rfl, rfl⟩ := hooked_outcome hc.outcome
    exact ⟨y, hc⟩
  obtain ⟨y, hrelayed⟩ := hends .ok
  obtain ⟨z, hshort⟩ := hends fun _ => .error "short"
  obtain ⟨z', hlong⟩ := hends fun _ => .error "long"
  have hsame := (hcompletes fun _ => .error "short").2 _ _ _ hshort _ _ _ _ _ _ _ hlong
    (.modifyResponse _ _ _)
  refine ⟨fun p _ => ⟨hreachable p, (hooked_entered p).1, (hooked_entered p).2, rfl⟩, ?_, ?_⟩
  · cases hrelayed.leaves with
    | answer _ _ hbody => exact ⟨y, hrelayed, hbody⟩
  · cases hshort.leaves with
    | error _ hstatus => exact ⟨z, z', hshort, hlong, hstatus, hsame.2⟩

end Router

end Gateway
