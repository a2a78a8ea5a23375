import Gateway.Proofs.Handler.RequestId
import Gateway.Proofs.Proxy.Passing
import Gateway.Proofs.Router.Access

/-! Where the id of a request gets when its chain starts with the handler for ids and the handlers
behind it leave the field alone: to each of them, to the targets of proxies, and back to the client,
where the ids of relayed responses follow it. -/

namespace Gateway

open Machine

namespace Router

theorem launch_fresh (r : Router) (w : World) (request : Request) :
    ∃ params pattern status?, (r.launch w request).exchange =
      r.fresh w request (r.chosen request).chain params pattern status? := by
  unfold launch
  cases r.chosen request with
  | route chain pattern params =>
    exact ⟨params, pattern, none, r.start_route w request chain pattern params⟩
  | fallback code chain => exact ⟨[], "", some code, r.start_fallback w request code chain⟩

theorem getAll_completeFallback (code : Status) (x : Exchange) {name : HeaderName}
    (content : name ≠ "content-type") (location : name ≠ "location") :
    (completeFallback code x).context.writer.headers.getAll name =
      x.context.writer.headers.getAll name := by
  unfold completeFallback
  split
  · rfl
  · split
    · exact Render.getAll_fill _ code x.context.writer location content
    · rfl

theorem dispatch_fields (r : Router) (w : World) (request : Request) (name : HeaderName)
    (content : name ≠ "content-type") (location : name ≠ "location") :
    match (r.chosen request).chain.next (r.launch w request).exchange with
    | .interrupted _ why => (r.dispatch w request).outcome = .error why
    | .finished x => ∃ response, (r.dispatch w request).outcome = .ok response ∧
        response.headers.getAll name = x.context.writer.headers.getAll name := by
  have hd : r.dispatch w request = finish r.checkout.2 ((r.chosen request).complete
      ((r.chosen request).chain.next (r.launch w request).exchange)) := rfl
  rw [hd]
  cases (r.chosen request).chain.next (r.launch w request).exchange with
  | interrupted x why => cases r.chosen request <;> rfl
  | finished x =>
    cases r.chosen request with
    | route chain pattern params => exact ⟨_, rfl, rfl⟩
    | fallback code chain => exact ⟨_, rfl, getAll_completeFallback code x content location⟩

/-- A handler behind the first one is entered while the request is served. -/
structure Meets (r : Router) (w : World) (request : Request) (i : Nat) (h : Handler) (m : Machine) :
    Prop where
  reached : Reaches (r.chosen request).chain (r.launch w request) m
  enters : Enters (r.chosen request).chain i h m
  later : 0 < i

/-- While the request is served, the handlers behind the first one leave the field alone, but for those
that relay responses. -/
def LeavesAlone (r : Router) (w : World) (request : Request) : Prop :=
  ∀ m, Reaches (r.chosen request).chain (r.launch w request) m → ∀ i op rest,
    m.activity = .handler i (.act op rest) → 0 < i →
      (∃ h, (r.chosen request).chain[i]? = some h ∧ h.Relaying) ∨ op.Spares "x-request-id"

/-- A proxy that was entered sends a request to its target, and comes to its end. -/
def Sends (chain : Chain) (i : Nat) (m : Machine) (out : Request) : Prop :=
  ∃ y, Reaches chain m ⟨.handler i .done, m.waiting, y⟩ ∧
    y.world.sent = m.exchange.world.sent ++ [out]

/-- The id is all that the later handlers see under its name, and so do the targets of proxies, but
for plain requests whose `Connection` names it. The response has it first, and then what comes with
the responses that are relayed on the way. -/
structure Identified (r : Router) (w : World) (request : Request) (id : HeaderValue) : Prop where
  handed : ∀ i h m, r.Meets w request i h m →
    m.exchange.context.request.headers.getAll "x-request-id" = [id]
  asked : ∀ i (p : Proxy) m, r.Meets w request i p.handler m → ∀ t q out,
    p.Asks m.exchange t q out → (∀ reason, p.network.request t out ≠ .unreachable reason) →
      Sends (r.chosen request).chain i m out ∧
      (m.exchange.context.request.headers.Lists "x-request-id" →
        out.headers.getAll "x-request-id" = []) ∧
      (¬ m.exchange.context.request.headers.Lists "x-request-id" →
        out.headers.getAll "x-request-id" = [id])
  upgraded : ∀ i (p : Proxy) m, r.Meets w request i p.handler m → ∀ t q out,
    p.Upgrades m.exchange t q out → (∀ reason, p.network.connect t out ≠ .unreachable reason) →
      Sends (r.chosen request).chain i m out ∧ out.headers.getAll "x-request-id" = [id]
  answered : ∃ ms n e, Run (r.chosen request).chain (r.launch w request) ms n ∧
    Halts (r.chosen request).chain n e ∧
    match e with
    | .interrupted _ why => (r.dispatch w request).outcome = .error why
    | .finished _ => ∃ response, (r.dispatch w request).outcome = .ok response ∧
        response.headers.getAll "x-request-id" =
          id :: (ms.flatMap relayed).flatMap (·.headers.getAll "x-request-id")

variable {r : Router} {w : World} {request : Request} {id : HeaderValue}

theorem identified_of_handed
    (handed : ∀ i h m, r.Meets w request i h m →
      m.exchange.context.request.headers.getAll "x-request-id" = [id])
    {ms : List Machine} {n : Machine} {e : Ending}
    (run : Run (r.chosen request).chain (r.launch w request) ms n)
    (halts : Halts (r.chosen request).chain n e)
    (told : n.exchange.context.writer.headers.getAll "x-request-id" =
      id :: (ms.flatMap relayed).flatMap (·.headers.getAll "x-request-id")) :
    r.Identified w request id where
  handed := handed
  asked i p m meets t q out asks reached := by
    obtain ⟨activity, ws, x⟩ := m
    obtain rfl : activity = .handler i p.program := meets.enters.activity
    have hid := handed i p.handler _ meets
    refine ⟨⟨_, asks.reaches, Proxy.settled_sent reached _ x⟩, ?_⟩
    rw [← hid]
    exact asks.getAll_out (by decide) (by decide)
  upgraded i p m meets t q out upgrades reached := by
    obtain ⟨activity, ws, x⟩ := m
    obtain rfl : activity = .handler i p.program := meets.enters.activity
    have hid := handed i p.handler _ meets
    refine ⟨⟨_, upgrades.reaches_upgraded, Proxy.settled_sent reached _ x⟩, ?_⟩
    rw [← hid]
    exact upgrades.getAll_out (by decide)
  answered := by
    refine ⟨ms, n, e, run, halts, ?_⟩
    obtain ⟨m, hm, hhm⟩ := reaches_next (r.chosen request).chain (r.launch w request).exchange
    obtain rfl : (r.chosen request).chain.next (r.launch w request).exchange = e :=
      hhm.unique hm run.reaches halts
    have hfields := r.dispatch_fields w request "x-request-id" (by decide) (by decide)
    rw [← halts.exchange_eq] at told
    revert told hfields
    cases (r.chosen request).chain.next (r.launch w request).exchange with
    | interrupted x why => exact fun _ houtcome => houtcome
    | finished x =>
      rintro told ⟨response, houtcome, hfields⟩
      exact ⟨response, houtcome, hfields.trans told⟩

theorem LeavesAlone.spares (alone : r.LeavesAlone w request) {m : Machine}
    (hr : Reaches (r.chosen request).chain (r.launch w request) m) {i : Nat} {op : Operation}
    {rest : Program} (hact : m.activity = .handler i (.act op rest)) (hi : 0 < i) :
    op.Spares "x-request-id" := by
  rcases alone m hr i op rest hact hi with ⟨h, hfound, hrelaying⟩ | hspares
  · have hevery : ∀ g, (r.chosen request).chain[i]? = some g →
        g.program.Every (Operation.Spares "x-request-id") := by
      intro g hg
      obtain rfl := Option.some.inj (hfound.symm.trans hg)
      exact hrelaying.spares (by decide)
    exact ((Reaches.every hevery hr).2 _ hact).1
  · exact hspares

theorem leavesAlone_of_spares {first : Handler} {rest : List Handler}
    (chain : (r.chosen request).chain = first :: rest)
    (later : ∀ h ∈ rest, h.Relaying ∨ h.Spares "x-request-id") (w : World) :
    r.LeavesAlone w request := by
  intro m hr i op rest' hact hi
  have hevery : ∀ g, (r.chosen request).chain[i]? = some g →
      g.program.Every (Operation.Spares "x-request-id") := by
    intro g hg
    obtain ⟨j, rfl⟩ := Nat.exists_eq_add_of_le' hi
    rw [chain, List.getElem?_cons_succ] at hg
    rcases later g (List.mem_of_getElem? hg) with hrelaying | hspares
    · exact hrelaying.spares (by decide)
    · exact hspares
  exact .inr ((Reaches.every hevery hr).2 _ hact).1

/-- The chain of a request starts with the handler for ids, whose own ones can be sent, and the later
handlers relay responses or leave the field alone. The first value that the client sent is the id when
it can be read and is not empty, and else a new one is. It is the only value that the later handlers
and the targets get, and the first one of the response. -/
theorem dispatch_identified {g : RequestId.Generator} (valid : g.Valid) {rest : List Handler}
    (first : (r.chosen request).chain = RequestId.handler g :: rest)
    (alone : r.LeavesAlone w request) :
    ∃ id, RequestId.Identifies g w.ids (request.headers.getAll "x-request-id") id ∧
      r.Identified w request id := by
  obtain ⟨params, pattern, status?, hfresh⟩ := r.launch_fresh w request
  have hrunning : (r.launch w request).exchange.context.aborted = false := by rw [hfresh]; rfl
  have hcursor : (r.launch w request).exchange.context.cursor = 0 := by rw [hfresh]; rfl
  obtain ⟨id, ms, y, hid, hrun, hquiet, hy⟩ :=
    RequestId.run_installed valid rest hrunning hcursor
  rw [← first] at hrun
  rw [hfresh] at hid
  have hone : y.context.cursor = 1 := by rw [hy]; rfl
  have hcalled := RequestId.called_loop (hone ▸ Nat.one_pos)
  have hspared : Spared "x-request-id" (r.chosen request).chain
      ⟨.loop, [⟨0, none, .done⟩], y⟩ := by
    intro n hn i op rest hact
    have hpos := (hcalled.reaches hn).pos_of_act hact
    exact alone.spares (hrun.reaches.trans hn) hact hpos
  have hrequest : y.context.request.headers.getAll "x-request-id" = [id] := by
    rw [hy]
    exact (Headers.getAll_insert _ _ _ _).trans (if_pos rfl)
  have hresponse : y.context.writer.headers.getAll "x-request-id" = [id] := by
    rw [hy]
    exact (Headers.getAll_insert _ _ _ _).trans (if_pos rfl)
  obtain ⟨n, hn, hhalts⟩ := reaches_next (r.chosen request).chain (r.launch w request).exchange
  obtain ⟨ns, hrest⟩ := Reaches.exists_run (hhalts.of_reaches hn hrun.reaches)
  refine ⟨id, hid, identified_of_handed (fun i h m meets => ?_) (hrun.trans hrest) hhalts ?_⟩
  · rcases Reaches.total hrun.reaches meets.reached with hlater | hearlier
    · exact (hlater.getAll_request hspared).trans hrequest
    · -- the cursor is past the handler when it is entered, and still before it when the id is there
      have hle := Reaches.cursor_le hearlier
      rw [meets.enters.cursor, hone] at hle
      have hpos := meets.later
      omega
  · rw [hrest.getAll_relayed (by decide) (by decide) hspared, hresponse, List.flatMap_append,
      hquiet, List.nil_append]
    rfl

theorem dispatch_identified_relayed :
    let r := (Site.new {} [RequestId.handler .random, (Proxy.answering Proxy.refusal).handler]).router
    let request : Request :=
      { headers := ⟨[("x-request-id", .ofText "first"), ("x-request-id", .ofText "second")]⟩ }
    RequestId.Generator.random.Valid ∧
    (r.chosen request).chain = [RequestId.handler .random, (Proxy.answering Proxy.refusal).handler] ∧
    r.LeavesAlone Proxy.echoing request ∧
    r.Identified Proxy.echoing request (.ofText "first") := by
  intro r request
  have hchain : (r.chosen request).chain =
      [RequestId.handler .random, (Proxy.answering Proxy.refusal).handler] := rfl
  have halone : r.LeavesAlone Proxy.echoing request :=
    leavesAlone_of_spares hchain (List.forall_mem_singleton.mpr (.inl (.proxy _))) _
  obtain ⟨id, hid, hidentified⟩ := dispatch_identified RequestId.valid_random hchain halone
  refine ⟨RequestId.valid_random, hchain, halone, ?_⟩
  have hfirst : (request.headers.getAll "x-request-id").head? = some (.ofText "first") := rfl
  cases hid with
  | kept first =>
    obtain rfl := Option.some.inj (hfirst.symm.trans first)
    exact hidentified
  | made unusable =>
    have hempty := unusable (.ofText "first") "first" hfirst (by decide)
    exact absurd hempty (by decide)

/-- A response that brings an id of its own is relayed with it, so the client gets two. -/
theorem relayed_id_repeated :
    let answer : Response := { headers := ⟨[("x-request-id", .ofText "theirs")]⟩ }
    let service : Handler := ⟨"service", Service.program (fun _ => answer) fun _ rest => rest⟩
    (RequestId.Generator.fixed "ours").Valid ∧
    ∀ h ∈ [service, (Proxy.answering answer).handler], h.Relaying ∧
      let r := (Site.new {} [RequestId.handler (.fixed "ours"), h]).router
      (r.dispatch Proxy.echoing {}).outcome.toOption.map (·.headers.getAll "x-request-id") =
        some [.ofText "ours", .ofText "theirs"] := by
  intro answer service
  have hours : (HeaderValue.ofText? "ours").isSome = true := by decide
  refine ⟨fun _ => hours, ?_⟩
  simp only [List.forall_mem_cons]
  refine ⟨⟨.service _ _, by decide +kernel⟩, ⟨.proxy _, by decide +kernel⟩, by simp⟩

end Router

end Gateway
