import Gateway.Proofs.Proxy.Connection
import Gateway.Proofs.Proxy.Introduction

/-! The hops that a plain request has passed, as its target is told of them: those that the first field
of the client lists, and the client itself. What further fields list does not get through. -/

namespace Gateway

def Text.items (list : String) : List String :=
  (pieces ',' list.toList).map fun p => trimBlank (String.ofList p)

def HeaderValue.items (v : HeaderValue) : List String := (v.text?.map Text.items).getD []

def Headers.items (h : Headers) (name : HeaderName) : List String :=
  (h.getAll name).flatMap HeaderValue.items

/-! ### Items -/

namespace Text

theorem items_ne_nil (list : String) : items list ≠ [] :=
  fun h => pieces_ne_nil ',' list.toList (List.map_eq_nil_iff.mp h)

theorem comma_notMem_address (a : IpAddr) : ',' ∉ a.text.toList := fun h =>
  a.forall_mem_text (P := (· ≠ ',')) (by decide) (by decide) (by decide) ',' h rfl

theorem trimBlank_address (a : IpAddr) : trimBlank a.text = a.text := by
  have hblank : ∀ c ∈ a.text.toList, isBlank c = false :=
    a.forall_mem_text (by decide) (by decide) (by decide)
  rw [trimBlank, trim_eq_self hblank, String.ofList_toList]

theorem items_address (a : IpAddr) : items a.text = [a.text] := by
  rw [items, pieces_of_notMem (comma_notMem_address a), List.map_singleton, String.ofList_toList,
    trimBlank_address]

theorem items_append_address (list : String) (a : IpAddr) :
    items (list ++ ", " ++ a.text) = items list ++ [a.text] := by
  have htext : (list ++ ", " ++ a.text).toList = list.toList ++ ',' :: (' ' :: a.text.toList) := by
    simp
  have hcomma : ',' ∉ ' ' :: a.text.toList := by
    simpa using comma_notMem_address a
  have htrim : trimBlank (String.ofList (' ' :: a.text.toList)) = a.text := by
    rw [trimBlank, String.toList_ofList]
    exact trimBlank_address a
  rw [items, htext, pieces_append, List.map_append, pieces_of_notMem hcomma, List.map_singleton,
    htrim]
  rfl

end Text

open Text (Visible)

theorem HeaderValue.items_ofText {text : String} (visible : Visible text.toList) :
    (ofText text).items = Text.items text := by
  rw [items, text?_ofText visible]
  rfl

theorem Headers.visible_text (h : Headers) (name : HeaderName) : Visible (h.text name).toList := by
  unfold text
  cases hv : h.text? name with
  | none => decide
  | some s =>
    obtain ⟨v, -, hs⟩ := Option.bind_eq_some_iff.mp hv
    exact HeaderValue.visible_of_text? hs

theorem Headers.items_appendForwardedFor (h : Headers) (a : IpAddr) :
    (h.appendForwardedFor a.text).items "x-forwarded-for" =
      (if h.text "x-forwarded-for" = "" then [] else Text.items (h.text "x-forwarded-for")) ++
        [a.text] := by
  have hprior := h.visible_text "x-forwarded-for"
  rw [items, appendForwardedFor, getAll_insert, if_pos rfl, List.flatMap_singleton]
  by_cases hempty : h.text "x-forwarded-for" = ""
  · have hadded : (if (h.text "x-forwarded-for").isEmpty then a.text
        else h.text "x-forwarded-for" ++ ", " ++ a.text) = a.text := by simp [hempty]
    rw [hadded, if_pos hempty, HeaderValue.items_ofText a.visible_text, Text.items_address]
    rfl
  · have hadded : (if (h.text "x-forwarded-for").isEmpty then a.text
        else h.text "x-forwarded-for" ++ ", " ++ a.text) =
          h.text "x-forwarded-for" ++ ", " ++ a.text := by simp [hempty]
    have hvisible : Visible (h.text "x-forwarded-for" ++ ", " ++ a.text).toList := by
      simp only [String.toList_append]
      exact (hprior.append (by decide)).append a.visible_text
    rw [hadded, if_neg hempty, HeaderValue.items_ofText hvisible, Text.items_append_address]

namespace Proxy

open Machine

/-! ### The request that is sent -/

theorem isWebSocket_introduced (r : Request) : (introduced r).isWebSocket = r.isWebSocket := by
  have hupgrade : (introduced r).headers.getAll "upgrade" = r.headers.getAll "upgrade" := by
    rw [getAll_introduced r (by decide), if_neg (by decide), if_neg (by decide)]
  simp only [Request.isWebSocket, Headers.trimmed?, Headers.text?, Headers.get?, hupgrade]

theorem peer_introduced (r : Request) : (introduced r).peer = r.peer := by
  have hfold : ∀ (fields : List (HeaderName × HeaderValue)) (x : Request),
      (fields.foldl Request.tell x).peer = x.peer := by
    intro fields
    induction fields with
    | nil => exact fun _ => rfl
    | cons field fields ih => exact fun x => ih (x.tell field)
  exact hfold _ r

theorem getAll_introduced_of_plain {r : Request} (plain : r.isWebSocket = false) :
    (introduced r).headers.getAll "x-forwarded-for" = r.headers.getAll "x-forwarded-for" := by
  have haddressed : ∀ name, name ≠ "x-real-ip" →
      ((r.telling "x-real-ip" r.clientIp).foldl Request.tell r).headers.getAll name =
        r.headers.getAll name := fun name hname =>
    (Request.getAll_foldl_telling r.clientIp rfl name).trans (if_neg hname)
  rw [introduced, Outbound.clientHeaders_eq, if_neg (by simp [plain]), List.append_nil,
    List.foldl_append, Request.getAll_foldl_telling r.scheme (haddressed _ (by decide)),
    if_neg (by decide), haddressed _ (by decide)]

theorem items_sent {base : Url} {q out : Request}
    (sendable : Outbound.request base (introduced q) = .ok out) (plain : q.isWebSocket = false)
    {peer : SocketAddr} (known : q.peer = some peer)
    (readable : ∀ v ∈ q.headers.getAll "x-forwarded-for", ∃ text, v.text? = some text ∧ text ≠ "")
    (unlisted : ¬ q.headers.Lists "x-forwarded-for") :
    out.headers.items "x-forwarded-for" =
      ((q.headers.getAll "x-forwarded-for").take 1).flatMap HeaderValue.items ++ [peer.ip.text] := by
  have hkept : (introduced q).headers.withoutHop.getAll "x-forwarded-for" =
      q.headers.getAll "x-forwarded-for" := by
    rw [Headers.getAll_withoutHop, if_neg, getAll_introduced_of_plain plain]
    rw [Headers.OfHop, connectionNames_introduced, Headers.mem_connectionNames_iff]
    exact not_or.mpr ⟨by decide, unlisted⟩
  rw [headers_request sendable, peer_introduced, known]
  dsimp only
  rw [Headers.items_appendForwardedFor, Headers.text, Headers.text?, Headers.get?, hkept]
  cases hfields : q.headers.getAll "x-forwarded-for" with
  | nil => rfl
  | cons v vs =>
    obtain ⟨text, hv, htext⟩ := readable v (hfields ▸ List.mem_cons_self)
    simp [hv, htext, HeaderValue.items]

theorem flatMap_items_take_one {fields : List HeaderValue}
    (readable : ∀ v ∈ fields, ∃ text, v.text? = some text ∧ text ≠ "") :
    (fields.take 1).flatMap HeaderValue.items = fields.flatMap HeaderValue.items ↔
      fields.length ≤ 1 := by
  rcases fields with _ | ⟨v, _ | ⟨w, rest⟩⟩
  · simp
  · simp
  · obtain ⟨text, hw, -⟩ := readable w (by simp)
    simp [HeaderValue.items, hw, Text.items_ne_nil]

/-- A plain request reaches its target with a list of hops that is what its first field lists, and
then the address of the client. So no hop is lost when there is one field at most, and those of all
further fields are. -/
theorem first_trail_sent {p : Proxy} {chain : Chain} {i : Nat} {n : Machine}
    (enters : Enters chain i p.handler n) {t : Target} {r out : Request}
    (asks : p.Asks n.exchange t r out)
    (reached : ∀ reason, p.network.request t out ≠ .unreachable reason) {peer : SocketAddr}
    (known : n.exchange.context.request.peer = some peer)
    (readable : ∀ v ∈ n.exchange.context.request.headers.getAll "x-forwarded-for",
      ∃ text, v.text? = some text ∧ text ≠ "")
    (unlisted : ¬ n.exchange.context.request.headers.Lists "x-forwarded-for") :
    let fields := n.exchange.context.request.headers.getAll "x-forwarded-for"
    (∃ y, Reaches chain n ⟨.handler i .done, n.waiting, y⟩ ∧
      y.world.sent = n.exchange.world.sent ++ [out]) ∧
    out.headers.items "x-forwarded-for" =
      (fields.take 1).flatMap HeaderValue.items ++ [peer.ip.text] ∧
    (out.headers.items "x-forwarded-for" =
      fields.flatMap HeaderValue.items ++ [peer.ip.text] ↔ fields.length ≤ 1) := by
  obtain ⟨activity, ws, x⟩ := n
  obtain rfl : activity = .handler i p.program := enters.activity
  intro fields
  obtain ⟨uri?, -, rfl⟩ := exists_of_prepared asks.prepared
  have hplain : x.context.request.isWebSocket = false :=
    (isWebSocket_introduced { x.context.request with uri := uri?.getD x.context.request.uri }).symm.trans
      asks.plain
  have hitems : out.headers.items "x-forwarded-for" =
      (fields.take 1).flatMap HeaderValue.items ++ [peer.ip.text] :=
    items_sent (q := { x.context.request with uri := uri?.getD x.context.request.uri })
      asks.sendable hplain known readable unlisted
  refine ⟨⟨_, asks.reaches, settled_sent reached _ x⟩, hitems, ?_⟩
  rw [hitems, List.append_left_inj]
  exact flatMap_items_take_one readable

def passed (lists : List String) : Request :=
  { headers := ⟨lists.map fun list => ("x-forwarded-for", .ofText list)⟩, peer := some stranger }

theorem first_trail_sent_single :
    let p := answering {}
    let q := passed ["10.0.0.1, 10.0.0.2"]
    let n : Machine :=
      ⟨.handler 0 p.program, [], Exchange.enter { context := { request := q }, world := echoing } 0⟩
    Enters [p.handler] 0 p.handler n ∧ ∃ out, p.Asks n.exchange echo (introduced q) out ∧
      (∀ reason, p.network.request echo out ≠ .unreachable reason) ∧
      out.headers.items "x-forwarded-for" = ["10.0.0.1", "10.0.0.2", "10.0.0.9"] := by
  intro p q n
  have henters : Enters [p.handler] 0 p.handler n := ⟨rfl, rfl, rfl, rfl⟩
  obtain ⟨out, hout⟩ : ∃ out, Outbound.request echo.url (introduced q) = .ok out :=
    exists_of_isOk (by decide +kernel)
  have hasks : p.Asks n.exchange echo (introduced q) out := ⟨rfl, rfl, by decide +kernel, hout, rfl⟩
  have hreached : ∀ reason, p.network.request echo out ≠ .unreachable reason := nofun
  have hreadable : ∀ v ∈ q.headers.getAll "x-forwarded-for",
      ∃ text, v.text? = some text ∧ text ≠ "" := by
    intro v hv
    obtain rfl : v = .ofText "10.0.0.1, 10.0.0.2" := by simpa [q, passed, Headers.getAll] using hv
    exact ⟨_, HeaderValue.text?_ofText (by decide), by decide⟩
  have hunlisted : ¬ q.headers.Lists "x-forwarded-for" := by
    rw [← Headers.mem_connectionNames_iff]
    decide +kernel
  obtain ⟨-, hitems, -⟩ := first_trail_sent henters hasks hreached rfl hreadable hunlisted
  refine ⟨henters, out, hasks, hreached, hitems.trans ?_⟩
  decide +kernel

/-- The hop in a second field is lost. -/
theorem second_trail_lost :
    let s := Site.new {} [(answering {}).handler]
    let q := passed ["10.0.0.1", "10.0.0.2"]
    q.isWebSocket = false ∧ "x-forwarded-for" ∉ q.headers.connectionNames ∧
      q.headers.items "x-forwarded-for" = ["10.0.0.1", "10.0.0.2"] ∧
      (s.router.dispatch echoing q).world.sent.map (fun out => out.headers.items "x-forwarded-for") =
        [["10.0.0.1", "10.0.0.9"]] := by
  decide +kernel

end Proxy

end Gateway
