import Gateway.Proofs.Http.Visible
import Gateway.Proofs.Proxy.Hop

/-! What a target is told about the client: the fields that the proxy adds to the request, and which
of them are left when those of the client's connection are taken out. -/

namespace Gateway

namespace Request

def telling (r : Request) (name : HeaderName) (text : String) : List (HeaderName × HeaderValue) :=
  if r.headers.contains name || text.isEmpty then [] else [(name, .ofText text)]

def told (r : Request) (name : HeaderName) (text : String) : List HeaderValue :=
  if r.headers.contains name then r.headers.getAll name
  else if text = "" then [] else [.ofText text]

theorem getAll_foldl_telling {r x : Request} {name : HeaderName} (text : String)
    (untouched : x.headers.getAll name = r.headers.getAll name) (m : HeaderName) :
    ((r.telling name text).foldl tell x).headers.getAll m =
      if m = name then r.told name text else x.headers.getAll m := by
  unfold telling told
  by_cases hcontains : r.headers.contains name = true
  · by_cases hm : m = name
    · simp [hcontains, hm, untouched]
    · simp [hcontains, hm]
  have habsent : x.headers.getAll name = [] :=
    untouched.trans (Headers.contains_eq_false_iff.mp (by simpa using hcontains))
  by_cases htext : text = ""
  · by_cases hm : m = name
    · simp [hcontains, htext, hm, habsent]
    · simp [htext, hm]
  · simp [hcontains, htext, tell, Headers.getAll_insert, eq_comm (a := m)]

end Request

/-! ### What the proxy adds -/

theorem Outbound.clientHeaders_eq (r : Request) :
    clientHeaders r = r.telling "x-real-ip" r.clientIp ++ (r.telling "x-forwarded-proto" r.scheme ++
      if r.isWebSocket then r.telling "x-forwarded-for" r.clientIp else []) := by
  have hip := HeaderValue.ofText?_of_visible r.visible_clientIp
  have hscheme := HeaderValue.ofText?_of_visible r.visible_scheme.1
  simp only [clientHeaders, List.filterMap_eq_flatMap_toList, List.cons_append, List.nil_append,
    List.flatMap_cons, hip, hscheme, Option.map_some, Request.telling]
  congr 1
  · split <;> rfl
  congr 1
  · split <;> rfl
  split
  · simp only [List.flatMap_cons, hip, Option.map_some, List.flatMap_nil, List.append_nil]
    split <;> rfl
  · rfl

namespace Proxy

open Machine

theorem getAll_introduced (r : Request) {name : HeaderName} (other : name ≠ "x-forwarded-for") :
    (introduced r).headers.getAll name =
      if name = "x-forwarded-proto" then r.told name r.scheme
      else if name = "x-real-ip" then r.told name r.clientIp
      else r.headers.getAll name := by
  let addressed := (r.telling "x-real-ip" r.clientIp).foldl Request.tell r
  let schemed := (r.telling "x-forwarded-proto" r.scheme).foldl Request.tell addressed
  have haddressed : ∀ m, addressed.headers.getAll m =
      if m = "x-real-ip" then r.told "x-real-ip" r.clientIp else r.headers.getAll m :=
    Request.getAll_foldl_telling r.clientIp rfl
  have hschemed : ∀ m, schemed.headers.getAll m =
      if m = "x-forwarded-proto" then r.told "x-forwarded-proto" r.scheme
      else addressed.headers.getAll m :=
    Request.getAll_foldl_telling r.scheme (by rw [haddressed, if_neg (by decide)])
  have hlast : (introduced r).headers.getAll name = schemed.headers.getAll name := by
    rw [introduced, Outbound.clientHeaders_eq, List.foldl_append, List.foldl_append]
    split
    · rw [Request.getAll_foldl_telling r.clientIp, if_neg other]
      rw [hschemed, if_neg (by decide), haddressed, if_neg (by decide)]
    · rfl
  rw [hlast, hschemed, haddressed]
  split
  · next h => rw [h]
  · split
    · next h => rw [h]
    · rfl

theorem connectionNames_introduced (r : Request) :
    (introduced r).headers.connectionNames = r.headers.connectionNames := by
  have hconnection :
      (introduced r).headers.getAll "connection" = r.headers.getAll "connection" := by
    rw [getAll_introduced r (by decide), if_neg (by decide), if_neg (by decide)]
  rw [Headers.connectionNames, hconnection]
  rfl

/-! ### What is left of it -/

theorem headers_request {base : Url} {r out : Request} (sendable : Outbound.request base r = .ok out) :
    out.headers = match r.peer with
      | some peer => r.headers.withoutHop.appendForwardedFor peer.ip.text
      | none => r.headers.withoutHop := by
  unfold Outbound.request at sendable
  cases huri : Outbound.uri base r.uri with
  | error e => simp [huri, bind, Except.bind] at sendable
  | ok uri =>
    obtain rfl : _ = out := by simpa [huri, bind, Except.bind, pure, Except.pure] using sendable
    rfl

theorem getAll_request {base : Url} {r out : Request} (sendable : Outbound.request base r = .ok out)
    {name : HeaderName} (other : name ≠ "x-forwarded-for") :
    out.headers.getAll name = if r.headers.OfHop name then [] else r.headers.getAll name := by
  rw [headers_request sendable, ← r.headers.getAll_withoutHop]
  cases r.peer with
  | none => rfl
  | some peer => exact (Headers.getAll_insert ..).trans (if_neg other.symm)

theorem getAll_sent {base : Url} {q out : Request}
    (sendable : Outbound.request base (introduced q) = .ok out) {name : HeaderName} {text : String}
    (told : (name, text) ∈ [("x-real-ip", q.clientIp), ("x-forwarded-proto", q.scheme)]) :
    out.headers.getAll name =
      if name ∈ q.headers.connectionNames then [] else q.told name text := by
  have hname : name = "x-real-ip" ∧ text = q.clientIp ∨
      name = "x-forwarded-proto" ∧ text = q.scheme := by simpa using told
  have hkept : name ∉ Headers.hopByHop ∧ name ≠ "x-forwarded-for" ∧
      (introduced q).headers.getAll name = q.told name text := by
    obtain ⟨rfl, rfl⟩ | ⟨rfl, rfl⟩ := hname <;>
      exact ⟨by decide, by decide, (getAll_introduced q (by decide)).trans (by simp)⟩
  obtain ⟨hhop, hother, htold⟩ := hkept
  rw [getAll_request sendable hother, htold]
  simp only [Headers.OfHop, hhop, false_or, connectionNames_introduced]

/-- The request that reaches a target has the address of the client and the scheme, in the fields
for them, unless the client set them, and then as it set them; but it has neither when the client
names it a field of its connection. -/
theorem told_fields {p : Proxy} {chain : Chain} {i : Nat} {n : Machine}
    (enters : Enters chain i p.handler n) {t : Target} {r out : Request}
    (asks : p.Asks n.exchange t r out)
    (reached : ∀ reason, p.network.request t out ≠ .unreachable reason) :
    let q := n.exchange.context.request
    (∃ y, Reaches chain n ⟨.handler i .done, n.waiting, y⟩ ∧
      y.world.sent = n.exchange.world.sent ++ [out]) ∧
    q.scheme ≠ "" ∧
    ∀ name text, (name, text) ∈ [("x-real-ip", q.clientIp), ("x-forwarded-proto", q.scheme)] →
      out.headers.getAll name =
        if name ∈ q.headers.connectionNames then []
        else if q.headers.contains name then q.headers.getAll name
        else if text = "" then [] else [.ofText text] := by
  obtain ⟨activity, ws, x⟩ := n
  obtain rfl : activity = .handler i p.program := enters.activity
  intro q
  refine ⟨⟨_, asks.reaches, settled_sent reached _ x⟩, q.visible_scheme.2, fun name text told => ?_⟩
  obtain ⟨uri?, -, rfl⟩ := exists_of_prepared asks.prepared
  exact getAll_sent (q := { q with uri := uri?.getD q.uri }) asks.sendable told

def stranger : SocketAddr := { ip := .v4 [10, 0, 0, 9], port := 4000 }

theorem told_fields_stranger :
    let p := answering refusal
    let q : Request := { peer := some stranger }
    let n : Machine :=
      ⟨.handler 0 p.program, [], Exchange.enter { context := { request := q }, world := echoing } 0⟩
    Enters [p.handler] 0 p.handler n ∧ ∃ out, p.Asks n.exchange echo (introduced q) out ∧
      (∀ reason, p.network.request echo out ≠ .unreachable reason) ∧
      out.headers.getAll "x-real-ip" = [.ofText "10.0.0.9"] ∧
      out.headers.getAll "x-forwarded-proto" = [.ofText "http"] := by
  intro p q n
  have henters : Enters [p.handler] 0 p.handler n := ⟨rfl, rfl, rfl, rfl⟩
  obtain ⟨out, hout⟩ : ∃ out, Outbound.request echo.url (introduced q) = .ok out :=
    exists_of_isOk (by decide +kernel)
  have hasks : p.Asks n.exchange echo (introduced q) out := ⟨rfl, rfl, by decide +kernel, hout, rfl⟩
  have hreached : ∀ reason, p.network.request echo out ≠ .unreachable reason := nofun
  obtain ⟨-, -, htold⟩ := told_fields henters hasks hreached
  refine ⟨henters, out, hasks, hreached, ?_, ?_⟩
  · rw [htold "x-real-ip" q.clientIp (.head _)]
    decide +kernel
  · rw [htold "x-forwarded-proto" q.scheme (.tail _ (.head _))]
    decide +kernel

/-- A client that names the field for its address one of its connection is not told of. -/
theorem named_field_untold :
    let s := Site.new {} [(answering refusal).handler]
    let q : Request :=
      { headers := ⟨[("connection", .ofText "x-real-ip")]⟩, peer := some stranger }
    q.isWebSocket = false ∧ q.headers.contains "x-real-ip" = false ∧
      q.headers.contains "x-forwarded-proto" = false ∧ q.clientIp = "10.0.0.9" ∧
      (s.router.dispatch echoing q).world.sent.map (fun out => out.headers.getAll "x-real-ip") =
        [[]] := by
  decide +kernel

end Proxy

end Gateway
