import Gateway.Handler.Recovery
import Gateway.Handler.Script
import Gateway.Proofs.Exchange.Answer
import Gateway.Proofs.Exchange.Gate

/-! What becomes of a panic that gets through to the recovery handler at the front of a chain. The
panic is answered unless the chain was aborted before it; then the response stays as it was. In both
cases no further handler is entered. -/

namespace Gateway

/-- A program that never calls for the rest of its chain. -/
def Program.Terminal : Program → Prop
  | done => True
  | interrupt _ => True
  | act _ rest => rest.Terminal
  | consult k => ∀ x, (k x).Terminal
  | next _ => False
  | attempt .. => False

namespace Recovery

open Machine

def answer (p : Payload) : String :=
  String.ofList ("\x7b\"code\":500,\"status\":\"error\",\"message\":".toList ++
    Json.printString p.message ++ ['\x7d'])

theorem opening_body (p : Payload) :
    (body p).opening = "\x7b\"code\":500,\"status\":\"error\",\"message\":".toList := by
  change (body .other).opening = _
  decide

theorem compact_body (p : Payload) : (body p).toJson.compact = answer p := by
  have h := StatusBody.print_toJson (body p)
  rw [opening_body] at h
  exact congrArg String.ofList h

theorem terminal_rescue (why : Interruption) : (rescue why).Terminal := by
  cases why with
  | panic p => cases p <;> exact fun _ => trivial
  | dropped => trivial

theorem every_program {P : Operation → Prop}
    (emit : ∀ message path, P (.emit (.handlerPanicked message path)))
    (abort : ∀ body, P (.abortWith .internalServerError body)) : handler.program.Every P := by
  refine ⟨fun why => ?_, trivial⟩
  cases why with
  | panic p => cases p <;> exact fun _ => ⟨emit _ _, abort _, trivial⟩
  | dropped => trivial

/-- The first handler calls for the rest of the chain once, prepared for a panic, and never again. -/
structure Guarding (m : Machine) : Prop where
  handler : ∀ p, m.activity = .handler 0 p → p = Recovery.handler.program ∨ p.Terminal
  waiting : ∀ w ∈ m.waiting, w.handler = 0 → w = ⟨0, some rescue, .done⟩

theorem guarding_step {rest : Chain} {m n : Machine} (h : Step (handler :: rest) m n)
    (hm : Guarding m) : Guarding n := by
  obtain ⟨hh, hw⟩ := hm
  cases h with
  | @enter ws x h running found =>
    refine ⟨?_, hw⟩
    intro p hp
    simp only [Activity.handler.injEq] at hp
    obtain ⟨hc, rfl⟩ := hp
    rw [hc] at found
    cases found
    exact .inl rfl
  | resume stopped =>
    refine ⟨?_, fun w hm => hw w (List.mem_cons_of_mem _ hm)⟩
    intro p hp
    simp only [Activity.handler.injEq] at hp
    obtain ⟨hi, rfl⟩ := hp
    rw [hw _ List.mem_cons_self hi]
    exact .inr trivial
  | done => exact ⟨by simp, hw⟩
  | interrupt => exact ⟨by simp, hw⟩
  | act =>
    refine ⟨?_, hw⟩
    rintro p ⟨⟩
    refine (hh _ rfl).elim (by simp [Recovery.handler]) fun ht => .inr ?_
    exact Operation.after_keeps (Q := Program.Terminal) ht fun _ _ => trivial
  | consult =>
    refine ⟨?_, hw⟩
    rintro p ⟨⟩
    exact (hh _ rfl).elim (by simp [Recovery.handler]) fun ht => .inr (ht _)
  | next =>
    refine ⟨by simp, List.forall_mem_cons.mpr ⟨?_, hw⟩⟩
    rintro rfl
    exact (hh _ rfl).elim (by simp [Recovery.handler]) False.elim
  | attempt =>
    refine ⟨by simp, List.forall_mem_cons.mpr ⟨?_, hw⟩⟩
    rintro rfl
    rcases hh _ rfl with hp | hp
    · cases hp
      rfl
    · exact hp.elim
  | rescue =>
    refine ⟨?_, fun w hm => hw w (List.mem_cons_of_mem _ hm)⟩
    rintro p ⟨⟩
    cases hw _ List.mem_cons_self rfl
    exact .inr (terminal_rescue _)
  | unwind => exact ⟨by simp, fun w hm => hw w (List.mem_cons_of_mem _ hm)⟩

theorem guarding_reaches {rest : Chain} {m n : Machine} (h : Reaches (handler :: rest) m n)
    (hm : Guarding m) : Guarding n := by
  induction h with
  | refl => exact hm
  | tail _ hs ih => exact guarding_step hs ih

def rescued (p : Payload) (x : Exchange) : Exchange :=
  (Operation.abortWith .internalServerError (body p).toJson).apply
    ((Operation.emit (.handlerPanicked p.message x.context.request.uri.path)).apply x)

theorem rescue_reaches (chain : Chain) (p : Payload) (x : Exchange) :
    Reaches chain ⟨.interrupted (.panic p), [⟨0, some rescue, .done⟩], x⟩
      ⟨.handler 0 (release p), [], rescued p x⟩ :=
  .head .rescue <| .head .consult <| .head (.acts rfl) <| .single (.acts rfl)

theorem rescued_holds {x : Exchange} (running : x.context.aborted = false) (p : Payload) :
    (rescued p x).context.writer.Holds .internalServerError (body p).toJson :=
  Context.abortWith_holds running (by decide) _

theorem rescued_of_aborted {x : Exchange} (h : x.context.aborted = true) (p : Payload) :
    (rescued p x).context = x.context :=
  congrArg Prod.fst (Context.abortWith_of_aborted h _ _)

theorem rescued_aborted (p : Payload) (x : Exchange) : (rescued p x).context.aborted = true := by
  cases h : x.context.aborted with
  | true => rw [rescued_of_aborted h, h]
  | false =>
    obtain ⟨_, _, ha⟩ := x.context.abortWith_frame .internalServerError (body p).toJson
    exact congrArg Context.aborted ha

/-- A panic of the rest of the chain that gets through to the recovery handler at its front is
answered in full when nothing aborted the chain before, and changes nothing of the context
otherwise. The handler is done then, unless dropping the payload is a panic. No handler is entered
any more. -/
theorem answer_of_panic (rest : Chain) {x : Exchange} {m : Machine}
    (reached : Reaches (handler :: rest) ⟨.loop, [], x⟩ m) {p : Payload}
    (panics : m.activity = .interrupted (.panic p)) (through : m.inside = [0]) :
    ∃ y, Reaches (handler :: rest) m ⟨.handler 0 (release p), [], y⟩ ∧
      (p.dropped? = none → release p = .done) ∧
      (m.exchange.context.aborted = false →
        y.context.writer.status = .internalServerError ∧
        y.context.writer.body = .buffered (Utf8.encode (answer p ++ "\n"))) ∧
      (m.exchange.context.aborted = true → y.context = m.exchange.context) ∧
      ∀ n, Reaches (handler :: rest) m n → entered n.exchange.visits = entered m.exchange.visits := by
  have hm : Guarding m := guarding_reaches reached ⟨by simp, by simp⟩
  obtain ⟨a, ws, z⟩ := m
  subst panics
  obtain ⟨w, rfl, hw⟩ := List.map_eq_singleton_iff.mp through
  obtain rfl := hm.waiting w List.mem_cons_self hw
  have hy := rescue_reaches (handler :: rest) p z
  refine ⟨rescued p z, hy, release_of_none, fun running => ?_,
    fun ha => rescued_of_aborted ha p, fun n hn => ?_⟩
  · have hh := rescued_holds running p
    exact ⟨hh.status, by rw [hh.body, compact_body]⟩
  · have hvisits : (rescued p z).visits = z.visits := by simp [rescued]
    exact Reaches.entered_eq_of_shut hy (rescued_aborted p z) (congrArg entered hvisits) hn

def boom (actions : List Action) : Handler :=
  Script.handler "boom"
    (.act (.render .ok (.text "partial")) :: actions ++ [.panic (.text "boom")])

def thrown (op : Operation) : Exchange :=
  (op.apply ((Operation.render .ok (.text "partial")).apply
    ((Exchange.enter {} 0).enter 1))).visit (.unwind 1)

theorem boom_reaches (op : Operation) (h : op.panic? = none) :
    Reaches [handler, boom [.act op]] ⟨.loop, [], {}⟩
      ⟨.interrupted (.panic (.text "boom")), [⟨0, some rescue, .done⟩], thrown op⟩ :=
  .head (.enter rfl rfl) <| .head .attempt <| .head (.enter rfl rfl) <| .head (.acts rfl) <|
    .head (.acts h) <| .single .interrupt

/-- After a status alone the panic is answered. -/
theorem answer_of_panic_boom :
    let chain := [handler, boom [.act (.setStatus .created)]]
    ∃ x y, Reaches chain ⟨.loop, [], {}⟩
        ⟨.interrupted (.panic (.text "boom")), [⟨0, some rescue, .done⟩], x⟩ ∧
      Reaches chain ⟨.interrupted (.panic (.text "boom")), [⟨0, some rescue, .done⟩], x⟩
        ⟨.handler 0 .done, [], y⟩ ∧
      y.context.writer.status = .internalServerError ∧
      y.context.writer.body = .buffered (Utf8.encode (answer (.text "boom") ++ "\n")) := by
  have hr := boom_reaches (.setStatus .created) rfl
  obtain ⟨y, hy, -, hrunning, -⟩ := answer_of_panic _ hr rfl rfl
  obtain ⟨hs, hb⟩ := hrunning rfl
  exact ⟨_, y, hr, hy, hs, hb⟩

/-- After `skip` the panic is not answered: the client gets what was written before it. -/
theorem skipped_panic_unanswered :
    let chain := [handler, boom [.act .skip]]
    ∃ x y, Reaches chain ⟨.loop, [], {}⟩
        ⟨.interrupted (.panic (.text "boom")), [⟨0, some rescue, .done⟩], x⟩ ∧
      Reaches chain ⟨.interrupted (.panic (.text "boom")), [⟨0, some rescue, .done⟩], x⟩
        ⟨.handler 0 .done, [], y⟩ ∧
      y.context.writer.status = .ok ∧
      y.context.writer.body = .buffered (Utf8.encode "partial") ∧
      y.context.writer.status ≠ .internalServerError ∧
      y.context.writer.body ≠ .buffered (Utf8.encode (answer (.text "boom") ++ "\n")) := by
  have hr := boom_reaches .skip rfl
  refine ⟨_, _, hr, rescue_reaches _ _ _, ?_, ?_, ?_, ?_⟩ <;> decide

end Recovery

end Gateway
