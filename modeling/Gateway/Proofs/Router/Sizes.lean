import Gateway.Proofs.Exchange.Buffering
import Gateway.Proofs.Router.Logging

/-! The size of a response in the log entry of its request. The logger takes it from the writer when
the chain returns, before the response is finished: the standard body of a fallback is yet to come, and
a body may yet be left out for its status. In all other cases the size is that of the response. -/

namespace Gateway

open Machine

namespace Router

/-- What an answer without a body is completed with: a fallback has a body for its own status. -/
def Choice.standardBody : Choice → Status → Bytes
  | fallback code _, s =>
    if s = code then Utf8.encode ((StatusBody.ofStatus code).toJson.compact ++ "\n") else []
  | route .., _ => []

/-- What a log entry tells about the response: its status, and as its size that of the body which the
handlers have left. The size is the wrong one when a standard body follows, or when the status allows
no body and the handlers have left one. -/
structure Choice.Told (choice : Choice) (record : AccessRecord) (response : Response) : Prop where
  status : record.status = response.status
  unwritten : record.bytesOut = 0 → response.body = choice.standardBody response.status
  written : record.bytesOut ≠ 0 →
    response.body.length = if response.status.allowsBody then record.bytesOut else 0
  exact_iff : record.bytesOut = response.body.length ↔
    if record.bytesOut = 0 then ¬ ∃ chain, choice = .fallback response.status chain
    else response.status.allowsBody = true

theorem chosen_allowsBody {r : Router} {request : Request} {code : Status} {chain : Chain}
    (h : r.chosen request = .fallback code chain) : code.allowsBody = true := by
  unfold chosen choose at h
  split at h
  · cases h
  · split at h <;> cases h <;> rfl

theorem Choice.standardBody_eq_nil_iff {choice : Choice} {s : Status} :
    choice.standardBody s = [] ↔ ¬ ∃ chain, choice = .fallback s chain := by
  cases choice with
  | route chain pattern params => simp [standardBody]
  | fallback code chain =>
    by_cases hs : s = code
    · simp [standardBody, hs, Utf8.encode_line_ne_nil]
    · simp [standardBody, hs, Ne.symm hs]

theorem Choice.response_completed {choice : Choice}
    (allows : ∀ code chain, choice = .fallback code chain → code.allowsBody = true) {x y : Exchange}
    (h : choice.complete (.finished x) = .finished y) :
    y.context.writer.response.body =
      if x.context.writer.written then x.context.writer.response.body
      else choice.standardBody x.context.writer.status := by
  have hnone (hw : ¬ x.context.writer.written = true) : x.context.writer.body = .empty := by
    simpa [Writer.written] using hw
  have hempty (hw : ¬ x.context.writer.written = true) : x.context.writer.response.body = [] := by
    simp [Writer.response, hnone hw, Body.bytes]
  cases choice with
  | route chain pattern params =>
    cases h
    split
    · rfl
    · next hw => exact hempty hw
  | fallback code chain =>
    obtain rfl : completeFallback code x = y := by injection h
    unfold completeFallback
    by_cases hw : x.context.writer.written = true
    · rw [if_pos hw, if_pos hw]
    · rw [if_neg hw, if_neg hw]
      by_cases hs : x.context.writer.status = code
      · have hcode := allows code chain rfl
        have hholds := Context.render_json_holds (hnone hw) hcode (StatusBody.ofStatus code).toJson
        rw [if_pos hs, standardBody, if_pos hs]
        exact hholds.response_body hcode
      · rw [if_neg hs, standardBody, if_neg hs]
        exact hempty hw

theorem launch_edits (r : Router) (w : World) (request : Request) :
    ({} : Writer).Edits (r.launch w request).exchange.context.writer := by
  unfold launch
  cases r.chosen request with
  | route chain pattern params =>
    rw [start_route]
    exact .refl
  | fallback code chain =>
    rw [start_fallback]
    exact Writer.edits_apply _ (.setStatus code) rfl

theorem Choice.told {choice : Choice}
    (allows : ∀ code chain, choice = .fallback code chain → code.allowsBody = true) {x y : Exchange}
    (h : choice.complete (.finished x) = .finished y) (edits : ({} : Writer).Edits x.context.writer)
    {record : AccessRecord} (status : record.status = x.context.writer.status)
    (bytesOut : record.bytesOut = x.context.writer.size) :
    choice.Told record y.context.writer.response := by
  obtain ⟨y', hy, -, hstatus⟩ := choice.complete_finished x
  obtain rfl : y' = y := by injection hy.symm.trans h
  have hresponse : y'.context.writer.response.status = x.context.writer.status := hstatus
  have hbody := choice.response_completed allows h
  obtain ⟨hsize, hwritten⟩ := edits.counted
  rw [← bytesOut] at hsize hwritten
  have hunwritten (hzero : record.bytesOut = 0) :
      y'.context.writer.response.body = choice.standardBody y'.context.writer.response.status := by
    rw [hbody, if_neg fun hw => hwritten.mp hw hzero, hresponse]
  have hleft (hne : record.bytesOut ≠ 0) : y'.context.writer.response.body.length =
      if y'.context.writer.response.status.allowsBody then record.bytesOut else 0 := by
    rw [hbody, if_pos (hwritten.mpr hne), hresponse, hsize]
    simp only [Writer.response]
    split <;> rfl
  refine ⟨status.trans hresponse.symm, hunwritten, hleft, ?_⟩
  by_cases hzero : record.bytesOut = 0
  · rw [if_pos hzero, ← standardBody_eq_nil_iff, ← hunwritten hzero, hzero, eq_comm,
      List.length_eq_zero_iff]
  · rw [if_neg hzero, hleft hzero]
    split
    · next hallows => simp [hallows]
    · next hallows => simp [hzero, hallows]

/-- With the logger at the front of its chain a request has an entry for its response, or it ends in a
panic without one. -/
theorem dispatch_told (r : Router) (w : World) (request : Request) {rest : List Handler}
    (logged : (r.chosen request).chain = AccessLogger.handler :: rest)
    (buffered : Buffered (r.chosen request).chain (r.launch w request)) :
    let d := r.dispatch w request
    ∃ earlier, ((∀ h ∈ rest, h.Unlogged) → earlier = []) ∧
      match d.outcome with
      | .error _ => d.events.filterMap Event.completed? = earlier
      | .ok response =>
        ∃ record, d.events.filterMap Event.completed? = earlier ++ [record] ∧
          (r.chosen request).Told record response := by
  intro d
  generalize hchoice : r.chosen request = choice at logged buffered
  let x := (r.launch w request).exchange
  have hrunning : x.context.aborted = false := r.launch_running w request
  have hstart : x.context.cursor = 0 := ((r.chosen request).start_frame _).1
  have hlogger : choice.chain[x.context.cursor]? = some AccessLogger.handler := by
    rw [logged, hstart]
    rfl
  have hd : d = finish r.checkout.2 (choice.complete (choice.chain.next x)) := by
    subst hchoice
    rfl
  have hedits : ({} : Writer).Edits (choice.chain.next x).exchange.context.writer := by
    obtain ⟨m, hr, hh⟩ := reaches_next choice.chain x
    rw [hh.exchange_eq]
    exact (r.launch_edits w request).trans (Reaches.edits buffered hr)
  have hbehind : (∀ h ∈ rest, h.Unlogged) →
      (choice.chain.next (x.enter x.context.cursor)).exchange.completed = [] := by
    rw [logged]
    exact fun hrest => AccessLogger.completed_behind hrest hstart
  refine ⟨(choice.chain.next (x.enter x.context.cursor)).exchange.completed, hbehind, ?_⟩
  cases he : choice.chain.next (x.enter x.context.cursor) with
  | interrupted y why =>
    rw [AccessLogger.next_of_interrupted hrunning hlogger he, choice.complete_interrupted] at hd
    rw [hd]
    rfl
  | finished y =>
    have hnext := AccessLogger.next_of_finished hrunning hlogger he
    cases herror : AccessLogger.errorText y.context with
    | error p =>
      rw [herror] at hnext
      rw [hnext, choice.complete_interrupted] at hd
      rw [hd]
      rfl
    | ok error =>
      rw [herror] at hnext
      rw [hnext] at hd hedits
      obtain ⟨z, hz, hcompleted, -⟩ := choice.complete_finished
        ((AccessLogger.logged x.context.request error y).visit (.leave x.context.cursor))
      rw [hd, hz]
      refine ⟨AccessLogger.complete (AccessLogger.facts x.context.request) y.context error, ?_, ?_⟩
      · exact hcompleted.trans List.filterMap_append
      · refine choice.told (fun code chain hfallback => ?_) hz hedits rfl rfl
        exact chosen_allowsBody (hchoice.trans hfallback)

end Router

namespace Site

/-- A site that was made with the logger in front of any middleware, whatever was registered on it
since and whatever it served in between. When the handlers of a request only produce buffered bodies,
its response has an entry, which comes last, with the size of the body that they have left; a request
that ends in a panic has none. There are no other entries when no handler behind the logger writes
them. -/
theorem dispatch_sized {P : Handler → Prop} {options : RouterOptions} {middleware : List Handler}
    {s : Site}
    (made : Relation.ReflTransGen (Onward P) (Site.new options (AccessLogger.handler :: middleware)) s)
    (w : World) (request : Request)
    (buffered : Buffered (s.router.chosen request).chain (s.router.launch w request)) :
    let choice := s.router.chosen request
    let d := s.router.dispatch w request
    ∃ earlier, ((∀ h ∈ choice.chain.tail, h.Unlogged) → earlier = []) ∧
      match d.outcome with
      | .error _ => d.events.filterMap Event.completed? = earlier
      | .ok response =>
        ∃ record, d.events.filterMap Event.completed? = earlier ++ [record] ∧
          choice.Told record response := by
  intro choice d
  obtain ⟨rest, hchain, -⟩ := (fronted_of_onward made).router.chosen request
  have logged : choice.chain = AccessLogger.handler :: (middleware ++ rest) := hchain
  rw [logged]
  exact s.router.dispatch_told w request logged buffered

def greeting : Handler := ⟨"greeting", .act (.render .ok (.text "hello")) .done⟩

def withdrawing : Handler :=
  ⟨"withdrawing", .act (.write (Utf8.encode "hello")) (.act (.setStatus .noContent) .done)⟩

def plain : Site :=
  let root : Group := { middleware := [AccessLogger.handler], isRoot := true }
  let s := Site.new {} [AccessLogger.handler]
  { s with
    router := (s.router.handle root "GET" "/a" [greeting]).handle root "GET" "/c" [withdrawing] }

/-- A handler that writes no entries and makes no streams. -/
def Modest (h : Handler) : Prop := h.Unlogged ∧ h.program.Every Operation.Buffers

theorem plain_made :
    Relation.ReflTransGen (Onward Modest) (Site.new {} [AccessLogger.handler]) plain := by
  refine .tail (.single (.register ⟨0, Nat.one_pos⟩ (.handle "GET" "/a" [greeting]) ?_ rfl))
    (.register ⟨0, Nat.one_pos⟩ (.handle "GET" "/c" [withdrawing]) ?_ rfl)
  · exact List.forall_mem_singleton.mpr ⟨⟨trivial, trivial⟩, trivial, trivial⟩
  · exact List.forall_mem_singleton.mpr
      ⟨⟨trivial, trivial, trivial⟩, trivial, trivial, trivial⟩

theorem plain_behind (request : Request) : ∃ rest,
    (plain.router.chosen request).chain = AccessLogger.handler :: rest ∧ ∀ h ∈ rest, Modest h :=
  (fronted_of_onward plain_made).router.chosen request

theorem plain_buffered (request : Request) :
    Buffered (plain.router.chosen request).chain (plain.router.launch {} request) := by
  obtain ⟨rest, hchain, hrest⟩ := plain_behind request
  refine buffered_of_every (fun h hh => ?_) _
  rw [hchain] at hh
  rcases List.mem_cons.mp hh with rfl | hh
  · exact AccessLogger.every_program fun _ => trivial
  · exact (hrest h hh).2

theorem dispatch_sized_plain :
    let request : Request := { uri.rawPath := "/a" }
    let d := plain.router.dispatch {} request
    Relation.ReflTransGen (Onward Modest) (Site.new {} [AccessLogger.handler]) plain ∧
    Buffered (plain.router.chosen request).chain (plain.router.launch {} request) ∧
    ∃ response record, d.outcome = .ok response ∧ response.body = Utf8.encode "hello" ∧
      d.events.filterMap Event.completed? = [record] ∧ record.bytesOut = 5 := by
  intro request d
  refine ⟨plain_made, plain_buffered request, ?_⟩
  obtain ⟨earlier, halone, h⟩ := dispatch_sized plain_made {} request (plain_buffered request)
  obtain ⟨rest, hchain, hrest⟩ := plain_behind request
  obtain rfl : earlier = [] := halone (by rw [hchain]; exact fun h hh => (hrest h hh).1)
  have hanswer : (plain.router.dispatch {} request).outcome.toOption.map
      (fun r => (r.body, (plain.router.chosen request).standardBody r.status)) =
        some (Utf8.encode "hello", []) := by decide +kernel
  cases ho : (plain.router.dispatch {} request).outcome with
  | error p =>
    rw [ho] at hanswer
    cases hanswer
  | ok response =>
    rw [ho] at hanswer h
    obtain ⟨hbody, hstandard⟩ := Prod.mk.inj (Option.some.inj hanswer)
    obtain ⟨record, hlog, told⟩ := h
    have hlength : response.body.length = 5 := by
      rw [hbody]
      decide
    have hne : record.bytesOut ≠ 0 := by
      intro hzero
      rw [told.unwritten hzero, hstandard] at hlength
      cases hlength
    have hwritten := told.written hne
    refine ⟨response, record, rfl, hbody, hlog, ?_⟩
    rw [hlength] at hwritten
    split at hwritten
    · exact hwritten.symm
    · cases hwritten

/-- The standard body of a request without a route is missing in the size, and five bytes that are
left out for the status are in it. -/
theorem finished_body_miscounted :
    let sizes (path : String) :=
      let d := plain.router.dispatch {} { uri.rawPath := path }
      (d.outcome.toOption.map (·.body.length),
        (d.events.filterMap Event.completed?).map (·.bytesOut))
    (∀ request, Buffered (plain.router.chosen request).chain (plain.router.launch {} request)) ∧
      sizes "/b" = (some 52, [0]) ∧ sizes "/c" = (some 0, [5]) :=
  ⟨plain_buffered, by decide +kernel, by decide +kernel⟩

end Site

end Gateway
