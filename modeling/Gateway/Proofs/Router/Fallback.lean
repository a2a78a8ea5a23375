import Gateway.Proofs.Exchange.Rendering
import Gateway.Proofs.Router.Registration
import Gateway.Proofs.Router.Sizes

/-! The answer to a request without a route. The handlers of the fallback may do anything to it; the
router adds the standard body only when they have left no body and the status as it was. -/

namespace Gateway

/-- Bytes, or a stream, which may be an empty one. -/
def Body.Present : Body → Prop
  | empty => False
  | buffered bytes => bytes ≠ []
  | stream _ => True

namespace Writer

/-- What is buffered has bytes. -/
def Solid (w : Writer) : Prop := w.body ≠ .buffered []

theorem solid_apply {w : Writer} (h : w.Solid) (op : Op) : (w.apply op).Solid := by
  cases op with
  | write chunk =>
    by_cases hchunk : chunk = []
    · rw [apply, write, hchunk]
      exact h
    · rw [Solid, apply, body_write w hchunk]
      simp [hchunk]
  | setStatus | setHeader | appendHeader => exact h
  | writeStream | writeResponse | clearBody | reset | take => exact Body.noConfusion

theorem Edits.solid {w w' : Writer} (h : w.Edits w') (hw : w.Solid) : w'.Solid := by
  induction h with
  | refl => exact hw
  | tail _ hs ih =>
    obtain ⟨op, -, rfl⟩ := hs
    exact solid_apply ih op

theorem Solid.written_iff {w : Writer} (h : w.Solid) : w.written = true ↔ w.body.Present := by
  rw [written, bne_iff_ne]
  rw [Solid] at h
  cases hbody : w.body with
  | empty => simp [Body.Present]
  | buffered bytes => simpa [Body.Present, hbody] using h
  | stream bytes => simp [Body.Present]

end Writer

theorem Operation.solid_apply (op : Operation) {x : Exchange} (h : x.context.writer.Solid) :
    (op.apply x).context.writer.Solid := by
  by_cases hbuffers : op.Buffers
  · exact (hbuffers.edits_apply x).solid h
  · cases op with
    | writeStream bytes => exact Writer.solid_apply h (.writeStream bytes)
    | writeResponse r => exact Writer.solid_apply h (.writeResponse r)
    | _ => exact absurd trivial hbuffers

open Machine

theorem Machine.Reaches.solid {chain : Chain} {m n : Machine} (hr : Reaches chain m n)
    (h : m.exchange.context.writer.Solid) : n.exchange.context.writer.Solid := by
  induction hr with
  | refl => exact h
  | tail _ hs ih =>
    rcases hs.moves_or_acts with ⟨_, _, heq⟩ | ⟨_, op, _, _, heq⟩
    · rwa [heq]
    · rw [heq]
      exact op.solid_apply ih

theorem Chain.next_solid (chain : Chain) {x : Exchange} (h : x.context.writer.Solid) :
    (chain.next x).exchange.context.writer.Solid := by
  obtain ⟨m, hr, hh⟩ := reaches_next chain x
  rw [hh.exchange_eq]
  exact hr.solid h

namespace Router

/-- What requests without a route get: a status, the handlers for it, and the body that stands in for
theirs. -/
structure Fallback where
  code : Status
  handlers : List Handler
  text : String

def unknownPath (r : Router) : Fallback where
  code := .notFound
  handlers := r.handlers.notFound
  text := "\x7b\"code\":404,\"status\":\"error\",\"message\":\"Not Found\"\x7d\n"

def wrongMethod (r : Router) : Fallback where
  code := .methodNotAllowed
  handlers := r.handlers.noMethod
  text := "\x7b\"code\":405,\"status\":\"error\",\"message\":\"Method Not Allowed\"\x7d\n"

/-- The response is what the handlers have left, or it has the standard body, or no body. -/
inductive Fallback.Answers (f : Fallback) (left : Writer) (response : Response) : Prop
  | kept (present : left.body.Present) (same : response = left.response)
  | standard (absent : ¬ left.body.Present) (untouched : left.status = f.code)
      (status : response.status = f.code) (body : response.body = Utf8.encode f.text)
      (contentType : response.headers.getAll "content-type" = [.ofText Render.jsonType])
      (headers : response.headers.remove "content-type" = left.headers.remove "content-type")
  | bare (absent : ¬ left.body.Present) (changed : left.status ≠ f.code)
      (status : response.status = left.status) (body : response.body = [])
      (headers : response.headers = left.headers)

/-- The request is answered from what its handlers leave behind, the root middleware first. A panic
that gets past all of them is the outcome. -/
def Fallback.Serves (f : Fallback) (r : Router) (w : World) (request : Request) : Prop :=
  let chain := r.handlers.rootMiddleware ++ f.handlers
  match Chain.next chain (r.fresh w request chain [] "" (some f.code)) with
  | .finished left => ∃ response, (r.dispatch w request).outcome = .ok response ∧
      f.Answers left.context.writer response
  | .interrupted _ why => (r.dispatch w request).outcome = .error why

theorem Fallback.answers_of_settles {f : Fallback} (allowed : f.code.allowsBody = true)
    (nonempty : Utf8.encode f.text ≠ []) {left y : Exchange}
    (empty : left.context.writer.body = .empty) (untouched : left.context.writer.status = f.code)
    (settles : left.Settles f.code (some Render.jsonType) (Utf8.encode f.text) none y) :
    f.Answers left.context.writer y.context.writer.response := by
  obtain ⟨-, hcontent, hheaders, hended⟩ := settles
  have habsent : ¬ left.context.writer.body.Present := by simp [empty, Body.Present]
  cases hended with
  | bodiless forbidden => simp [allowed] at forbidden
  | rendered _ hstatus hbody =>
    have hcode : y.context.writer.status = f.code := congrArg (·.getD Status.ok) hstatus
    rw [empty, Body.added, if_neg nonempty] at hbody
    have hbytes : y.context.writer.response.body = Utf8.encode f.text := by
      simp [Writer.response, hcode, allowed, hbody, Body.bytes, Body.chunks]
    exact .standard habsent untouched hcode hbytes hcontent hheaders

theorem Fallback.answers_complete {f : Fallback} (allowed : f.code.allowsBody = true)
    (text : f.text = (StatusBody.ofStatus f.code).toJson.compact ++ "\n") {left : Exchange}
    (solid : left.context.writer.Solid) :
    f.Answers left.context.writer (completeFallback f.code left).context.writer.response := by
  unfold completeFallback
  split
  · next hwritten => exact .kept (solid.written_iff.mp hwritten) rfl
  · next hwritten =>
    have hempty : left.context.writer.body = .empty := by simpa [Writer.written] using hwritten
    split
    · next huntouched =>
      have hsettles := left.settles_render f.code rfl
        (Render.writes_json (StatusBody.ofStatus f.code).toJson)
      rw [List.flatten_singleton, ← text] at hsettles
      refine answers_of_settles allowed ?_ hempty huntouched hsettles
      rw [text]
      exact Utf8.encode_line_ne_nil _
    · next hchanged =>
      have habsent : ¬ left.context.writer.body.Present := by simp [hempty, Body.Present]
      have hbody : left.context.writer.response.body = [] := by
        simp [Writer.response, hempty, Body.bytes]
      exact .bare habsent hchanged rfl hbody rfl

theorem Fallback.serves_of_chosen {f : Fallback} (allowed : f.code.allowsBody = true)
    (text : f.text = (StatusBody.ofStatus f.code).toJson.compact ++ "\n") {r : Router}
    {request : Request}
    (chosen : r.chosen request = .fallback f.code (r.handlers.rootMiddleware ++ f.handlers))
    (w : World) : f.Serves r w request := by
  let chain : Chain := r.handlers.rootMiddleware ++ f.handlers
  let start := r.fresh w request chain [] "" (some f.code)
  have hd : r.dispatch w request =
      finish r.checkout.2 ((Choice.fallback f.code chain).complete (chain.next start)) := by
    have hstart := r.start_fallback w request f.code chain
    rw [dispatch, serve, show r.choose request.method (r.lookupPath request) = _ from chosen,
      hstart]
    rfl
  have hsolid : (chain.next start).exchange.context.writer.Solid :=
    chain.next_solid Body.noConfusion
  change match chain.next start with
    | .finished left => ∃ response, (r.dispatch w request).outcome = .ok response ∧
        f.Answers left.context.writer response
    | .interrupted _ why => (r.dispatch w request).outcome = .error why
  rw [hd]
  cases hend : chain.next start with
  | interrupted y why => rfl
  | finished left =>
    rw [hend] at hsolid
    exact ⟨_, rfl, answers_complete allowed text hsolid⟩

end Router

namespace Site

theorem Reachable.composed {s : Site} (h : s.Reachable) :
    s.router.fallbacks = s.router.handlers.compose := by
  induction h with
  | new options middleware => rfl
  | register _ on what done ih =>
    rw [register_eq done]
    exact composed_router ih _ what
  | @request s _ w request ih =>
    have hsame := Router.dispatch_sameRoutes s.router w request
    rw [Router.dispatch_handlers, ← hsame.fallbacks, ih]
  | take _ ih => exact ih
  | shelve _ op place ih => exact ih
  | release _ c known ih => exact ih
  | cancel _ ih => exact ih

end Site

namespace Router

theorem unknownPath_text (r : Router) : r.unknownPath.text =
    (StatusBody.ofStatus .notFound).toJson.compact ++ "\n" := by
  rfl

theorem wrongMethod_text (r : Router) : r.wrongMethod.text =
    (StatusBody.ofStatus .methodNotAllowed).toJson.compact ++ "\n" := by
  rfl

end Router

namespace Site

open Router

/-- A request that no route serves, on a router with any handlers for it. A body that these leave is
sent as it is, also an empty stream. When they leave none, the router writes the standard body if the
status is still the one they started with, whether they ran to the end or were cut off, and sends
nothing under any other status. -/
theorem dispatch_unserved {s : Site} (h : s.Reachable) (w : World) (request : Request)
    (unserved : ¬ s.router.tables.Serves request.method (s.router.lookupPath request)) :
    let r := s.router
    let wrong := r.WrongMethod request.method (r.lookupPath request)
    (wrong → r.wrongMethod.Serves r w request) ∧ (¬ wrong → r.unknownPath.Serves r w request) := by
  intro r wrong
  have hchosen : r.chosen request = _ := choose_of_not_serves unserved
  rw [h.composed] at hchosen
  have hwrong := wrongMethod_iff h.sound.tables request.method (r.lookupPath request)
  refine ⟨fun hw => ?_, fun hn => ?_⟩
  · rw [if_pos (hwrong.mp hw)] at hchosen
    exact Fallback.serves_of_chosen rfl r.wrongMethod_text hchosen w
  · rw [if_neg fun hb => hn (hwrong.mpr hb)] at hchosen
    exact Fallback.serves_of_chosen rfl r.unknownPath_text hchosen w

def resigned : Handler := ⟨"resigned", .act (.write []) (.act (.abort .notFound) .done)⟩

def resignedSite : Site :=
  let s := Site.new {} [Recovery.handler]
  { s with router := s.router.notFound [resigned] }

theorem resignedSite_reachable : resignedSite.Reachable :=
  .register (.new {} [Recovery.handler]) ⟨0, Nat.one_pos⟩ (.notFound [resigned]) rfl

theorem dispatch_unserved_resigned :
    let request : Request := { uri.rawPath := "/a" }
    resignedSite.Reachable ∧
    ¬ resignedSite.router.tables.Serves request.method (resignedSite.router.lookupPath request) ∧
    ∃ response, (resignedSite.router.dispatch {} request).outcome = .ok response ∧
      response.status = .notFound ∧
      response.body = Utf8.encode
        "\x7b\"code\":404,\"status\":\"error\",\"message\":\"Not Found\"\x7d\n" := by
  intro request
  have hunserved (m : Method) (path : String) : ¬ resignedSite.router.tables.Serves m path := by
    rintro ⟨t, hit, ht, -⟩
    cases ht
  have hwrong : ¬ resignedSite.router.WrongMethod request.method
      (resignedSite.router.lookupPath request) := fun ⟨_, n, _, hserves⟩ => hunserved n _ hserves
  refine ⟨resignedSite_reachable, hunserved _ _, ?_⟩
  have hserves : resignedSite.router.unknownPath.Serves resignedSite.router {} request :=
    (dispatch_unserved resignedSite_reachable {} request (hunserved _ _)).2 hwrong
  obtain ⟨response, hresponse, hanswers⟩ := hserves
  refine ⟨response, hresponse, ?_⟩
  cases hanswers with
  | kept present => exact present.elim
  | standard _ _ status body => exact ⟨status, body⟩
  | bare _ changed => exact absurd rfl changed

end Site

end Gateway
