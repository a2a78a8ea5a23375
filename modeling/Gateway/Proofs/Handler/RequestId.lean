import Gateway.Handler.RequestId
import Gateway.Proofs.Exchange.Relayed
import Gateway.Proofs.Exchange.Untouched
import Gateway.Proofs.Http.Visible

/-! The id that a request gets, and the state in which the later handlers start: the request and the
response have the id and no other value under its name. -/

namespace Gateway

theorem Headers.text_of_first {h : Headers} {name : HeaderName} {v : HeaderValue} {text : String}
    (first : (h.getAll name).head? = some v) (readable : v.text? = some text) :
    h.text name = text := by
  simp [Headers.text, Headers.text?, get?, first, readable]

theorem Headers.exists_of_text_ne {h : Headers} {name : HeaderName} (nonempty : h.text name ≠ "") :
    ∃ v, (h.getAll name).head? = some v ∧ v.text? = some (h.text name) := by
  cases htext : h.text? name with
  | none => exact absurd (by rw [Headers.text, htext]; rfl) nonempty
  | some text =>
    obtain ⟨v, hfirst, hreadable⟩ := Option.bind_eq_some_iff.mp htext
    exact ⟨v, hfirst, by rw [hreadable, text_of_first hfirst hreadable]⟩

namespace RequestId

open Machine

/-- Each id that is made can be sent. -/
def Generator.Valid (g : Generator) : Prop :=
  ∀ ids, (HeaderValue.ofText? (g.next ids)).isSome = true

theorem valid_random : Generator.random.Valid := by
  intro ids
  have hdigit : ∀ n < 16, Text.Visible [Hex.digit n] := by decide
  have hvisible : Text.Visible (idOfNumber ids).toList := by
    simp only [idOfNumber, String.toList_ofList, Hex.padded]
    intro c hc
    obtain ⟨i, -, rfl⟩ := List.mem_map.mp hc
    exact hdigit _ (Nat.mod_lt _ (by decide)) _ List.mem_cons_self
  rw [Generator.next, HeaderValue.ofText?_of_visible hvisible]
  rfl

/-- The first value that a request brings is kept when it can be read and is not empty. Otherwise the
id is a new one, after as many as were made before. -/
inductive Identifies (g : Generator) (ids : Nat) (inbound : List HeaderValue) (id : HeaderValue) :
    Prop
  | kept {text : String} (first : inbound.head? = some id) (readable : id.text? = some text)
      (nonempty : text ≠ "")
  | made (unusable : ∀ v text, inbound.head? = some v → v.text? = some text → text = "")
      (new : HeaderValue.ofText? (g.next ids) = some id)

def installed (id : HeaderValue) (c : Context) : Context :=
  (c.setRequestHeader "x-request-id" id).mapWriter (·.setHeader "x-request-id" id)

variable {chain : Chain} {i : Nat} {ws : List Waiting}

/-- The handler relays nothing before it calls for the rest of the chain. -/
def Installs (chain : Chain) (i : Nat) (ws : List Waiting) (p : Program) (x : Exchange)
    (id : HeaderValue) : Prop :=
  ∃ ms y, Run chain ⟨.handler i p, ws, x⟩ ms ⟨.loop, ⟨i, none, .done⟩ :: ws, y⟩ ∧
    ms.flatMap relayed = [] ∧ y.context = installed id x.context

theorem Installs.consult {k : Exchange → Program} {x : Exchange} {id : HeaderValue}
    (h : Installs chain i ws (k x) x id) : Installs chain i ws (.consult k) x id := by
  obtain ⟨ms, y, hrun, hquiet, hy⟩ := h
  exact ⟨_, y, .head .consult hrun, hquiet, hy⟩

theorem installs_install (id : HeaderValue) (x : Exchange) :
    Installs chain i ws (install id) x id :=
  ⟨_, _, .head .act <| .head .act <| .head .next .refl, rfl, rfl⟩

theorem installs_counted (id : HeaderValue) (x : Exchange) :
    Installs chain i ws (.act (.outside countId) (install id)) x id :=
  ⟨_, _, .head .act <| .head .act <| .head .act <| .head .next .refl, rfl, rfl⟩

theorem installs_program (chain : Chain) (i : Nat) (ws : List Waiting) {g : Generator}
    (valid : g.Valid) (x : Exchange) :
    ∃ id, Identifies g x.world.ids (x.context.request.headers.getAll "x-request-id") id ∧
      Installs chain i ws (program g) x id := by
  by_cases hinbound : x.context.request.headers.text "x-request-id" = ""
  · obtain ⟨id, hid⟩ := Option.isSome_iff_exists.mp (valid x.world.ids)
    refine ⟨id, .made (fun v text first readable => ?_) hid, .consult ?_⟩
    · exact (Headers.text_of_first first readable).symm.trans hinbound
    · simp only [hinbound, hid]
      exact installs_counted id x
  · obtain ⟨id, hfirst, hreadable⟩ := Headers.exists_of_text_ne hinbound
    refine ⟨id, .kept hfirst hreadable hinbound, .consult ?_⟩
    have hpresent : (x.context.request.headers.text "x-request-id").isEmpty = false := by
      simpa using hinbound
    simp only [hpresent, Bool.not_false, if_true, HeaderValue.ofText_of_text? hreadable]
    exact installs_install id x

theorem run_installed {g : Generator} (valid : g.Valid) (rest : List Handler) {x : Exchange}
    (running : x.context.aborted = false) (cursor : x.context.cursor = 0) :
    ∃ id ms y, Identifies g x.world.ids (x.context.request.headers.getAll "x-request-id") id ∧
      Run (handler g :: rest) ⟨.loop, [], x⟩ ms ⟨.loop, [⟨0, none, .done⟩], y⟩ ∧
      ms.flatMap relayed = [] ∧ y.context = installed id { x.context with cursor := 1 } := by
  obtain ⟨id, hid, ms, y, hrun, hquiet, hy⟩ :=
    installs_program (handler g :: rest) 0 [] valid (x.enter 0)
  have hfound : (handler g :: rest)[x.context.cursor]? = some (handler g) := by
    rw [cursor]
    rfl
  have henter : Step (handler g :: rest) ⟨.loop, [], x⟩ ⟨.handler 0 (program g), [], x.enter 0⟩ := by
    have hstep : Step (handler g :: rest) ⟨.loop, [], x⟩ _ := .enter running hfound
    rwa [cursor] at hstep
  exact ⟨id, _, y, hid, .head henter hrun, hquiet, hy⟩

/-- The handler has nothing left to do but to return, and will not be entered again. -/
structure Called (m : Machine) : Prop where
  past : 0 < m.exchange.context.cursor
  waiting : ∀ p, m.Keeps 0 p → p = .done
  running : ∀ p, m.activity = .handler 0 p → p = .done

theorem called_loop {y : Exchange} (past : 0 < y.context.cursor) :
    Called ⟨.loop, [⟨0, none, .done⟩], y⟩ where
  past := past
  waiting p hp := by
    obtain ⟨w, hw, -, hkeeps⟩ := hp
    obtain rfl := List.mem_singleton.mp hw
    rcases hkeeps with rfl | ⟨_, _, hrescue, _⟩
    · rfl
    · cases hrescue
  running p hp := by cases hp

theorem Called.step {m n : Machine} (h : Called m) (hs : Step chain m n) : Called n := by
  have hleaves : ∀ p, m.Leaves 0 p → p = .done := by
    rintro p (hkeeps | ⟨q, hq, hafter⟩)
    · exact h.waiting p hkeeps
    · obtain rfl := h.running q hq
      cases hafter
  refine ⟨h.past.trans_le hs.cursor_le, fun p hp => hleaves p (hs.keeps hp), fun p hp => ?_⟩
  rcases hs.handler hp with ⟨g, -, hcursor, -⟩ | hp
  · exact absurd hcursor h.past.ne
  · exact hleaves p hp

theorem Called.reaches {m n : Machine} (h : Called m) (hr : Reaches chain m n) : Called n := by
  induction hr with
  | refl => exact h
  | tail _ hs ih => exact ih.step hs

theorem Called.pos_of_act {m : Machine} (h : Called m) {i : Nat} {op : Operation} {rest : Program}
    (hact : m.activity = .handler i (.act op rest)) : 0 < i := by
  refine Nat.pos_of_ne_zero ?_
  rintro rfl
  cases h.running _ hact

end RequestId

end Gateway
