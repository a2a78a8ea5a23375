import Gateway.Proofs.Exchange.Alike
import Gateway.Proofs.Exchange.Machine

/-! Two runs of a chain, on requests that differ only in the place of their values, go through the
same steps, and handlers see the same at each of them. -/

namespace Gateway

/-- All that handlers may know about a request under way: its context but for the place, its values,
and the world with the log. -/
def Exchange.seen (x : Exchange) : Context × Values × World × List Event × List Visit :=
  (x.context.moved 0, x.values, x.world, x.events, x.visits)

theorem Exchange.Alike.seen_eq {x y : Exchange} (h : x.Alike y) : x.seen = y.seen := by
  have hv := h.values_eq
  obtain ⟨q, t, rfl, -⟩ := h
  simp only [seen, ← hv]
  rfl

inductive Ending.Alike : Ending → Ending → Prop
  | finished {x y : Exchange} (h : x.Alike y) : Alike (.finished x) (.finished y)
  | interrupted {x y : Exchange} {why : Interruption} (h : x.Alike y) :
    Alike (.interrupted x why) (.interrupted y why)

def Waiting.Uniform (w : Waiting) : Prop :=
  w.rest.Uniform ∧ ∀ f, w.rescue? = some f → ∀ why, (f why).Uniform

namespace Machine

/-- Whatever is left to do cannot tell where the values are. -/
structure Uniform (m : Machine) : Prop where
  handler : ∀ i p, m.activity = .handler i p → p.Uniform
  waiting : ∀ w ∈ m.waiting, w.Uniform

structure Alike (m n : Machine) : Prop where
  activity : m.activity = n.activity
  waiting : m.waiting = n.waiting
  exchange : m.exchange.Alike n.exchange

theorem Alike.exists_eq {a : Activity} {ws : List Waiting} {x : Exchange} {n : Machine}
    (h : Alike ⟨a, ws, x⟩ n) : ∃ y, n = ⟨a, ws, y⟩ ∧ x.Alike y := by
  obtain ⟨a', ws', y⟩ := n
  obtain ⟨rfl, rfl, hx⟩ := h
  exact ⟨y, rfl, hx⟩

theorem Step.uniform {chain : Chain} (hc : ∀ h ∈ chain, h.program.Uniform) {m n : Machine}
    (h : Step chain m n) (hm : m.Uniform) : n.Uniform := by
  obtain ⟨hh, hw⟩ := hm
  cases h with
  | enter running found =>
    refine ⟨?_, hw⟩
    rintro i p ⟨⟩
    exact hc _ (List.mem_of_getElem? found)
  | resume stopped =>
    obtain ⟨⟨hrest, -⟩, hws⟩ := List.forall_mem_cons.mp hw
    refine ⟨?_, hws⟩
    rintro i p ⟨⟩
    exact hrest
  | done => exact ⟨by simp, hw⟩
  | interrupt => exact ⟨by simp, hw⟩
  | act =>
    have hrest := hh _ _ rfl
    refine ⟨?_, hw⟩
    rintro i p ⟨⟩
    exact Operation.after_keeps hrest fun _ _ => trivial
  | consult =>
    have hk := hh _ _ rfl
    refine ⟨?_, hw⟩
    rintro i p ⟨⟩
    exact hk.1 _
  | next =>
    have hrest := hh _ _ rfl
    exact ⟨by simp, List.forall_mem_cons.mpr ⟨⟨hrest, by simp⟩, hw⟩⟩
  | attempt =>
    obtain ⟨hf, hrest⟩ := hh _ _ rfl
    refine ⟨by simp, List.forall_mem_cons.mpr ⟨⟨hrest, ?_⟩, hw⟩⟩
    rintro f ⟨⟩
    exact hf
  | rescue =>
    obtain ⟨⟨-, hf⟩, hws⟩ := List.forall_mem_cons.mp hw
    refine ⟨?_, hws⟩
    rintro i p ⟨⟩
    exact hf _ rfl _
  | unwind =>
    obtain ⟨-, hws⟩ := List.forall_mem_cons.mp hw
    exact ⟨by simp, hws⟩

theorem Stopped.alike {chain : Chain} {x y : Exchange} (h : Stopped chain x) (ha : x.Alike y) :
    Stopped chain y := by
  obtain ⟨q, t, rfl, -⟩ := ha
  exact h

theorem Step.alike {chain : Chain} {m m' n : Machine} (h : Step chain m m') (hu : m.Uniform)
    (ha : m.Alike n) : ∃ n', Step chain n n' ∧ m'.Alike n' := by
  obtain ⟨a, ws, x⟩ := m
  obtain ⟨y, rfl, hx⟩ := ha.exists_eq
  cases h with
  | enter running found =>
    have henter := hx.enter x.context.cursor
    obtain ⟨q, t, rfl, -⟩ := hx
    exact ⟨_, .enter running found, rfl, rfl, henter⟩
  | resume stopped => exact ⟨_, .resume (stopped.alike hx), rfl, rfl, hx⟩
  | done => exact ⟨_, .done, rfl, rfl, hx.visit _⟩
  | interrupt => exact ⟨_, .interrupt, rfl, rfl, hx.visit _⟩
  | act => exact ⟨_, .act, rfl, rfl, hx.apply _⟩
  | @consult i k =>
    have hk : k x = k y := (hu.handler i _ rfl).2 x y hx
    exact ⟨_, .consult, by rw [hk], rfl, hx⟩
  | next => exact ⟨_, .next, rfl, rfl, hx⟩
  | attempt => exact ⟨_, .attempt, rfl, rfl, hx⟩
  | rescue => exact ⟨_, .rescue, rfl, rfl, hx⟩
  | unwind => exact ⟨_, .unwind, rfl, rfl, hx.visit _⟩

/-- A run from one machine to another with the machines that it passes through. -/
inductive Run (chain : Chain) : Machine → List Machine → Machine → Prop
  | refl {m : Machine} : Run chain m [] m
  | head {l m n : Machine} {ms : List Machine} (step : Step chain l m) (run : Run chain m ms n) :
      Run chain l (l :: ms) n

theorem Reaches.exists_run {chain : Chain} {m n : Machine} (h : Reaches chain m n) :
    ∃ ms, Run chain m ms n := by
  induction h using Relation.ReflTransGen.head_induction_on with
  | refl => exact ⟨[], .refl⟩
  | head hs _ ih =>
    obtain ⟨ms, hr⟩ := ih
    exact ⟨_, .head hs hr⟩

theorem Run.reaches {chain : Chain} {m n : Machine} {ms : List Machine} (h : Run chain m ms n) :
    Reaches chain m n := by
  induction h with
  | refl => exact .refl
  | head hs _ ih => exact .head hs ih

def seen (m : Machine) : Activity × Context × Values × World × List Event × List Visit :=
  (m.activity, m.exchange.seen)

theorem Run.alike {chain : Chain} (hc : ∀ h ∈ chain, h.program.Uniform) {m m' n : Machine}
    {ms : List Machine} (h : Run chain m ms m') (hu : m.Uniform) (ha : m.Alike n) :
    ∃ ns n', Run chain n ns n' ∧ m'.Alike n' ∧ ns.map seen = ms.map seen := by
  induction h generalizing n with
  | refl => exact ⟨[], n, .refl, ha, rfl⟩
  | @head l m _ ms hs _ ih =>
    obtain ⟨n₁, hn₁, ha₁⟩ := hs.alike hu ha
    obtain ⟨ns, n', hr, ha', hseen⟩ := ih (hs.uniform hc hu) ha₁
    have hl : n.seen = l.seen := by
      rw [seen, seen, ha.activity, ha.exchange.seen_eq]
    exact ⟨n :: ns, n', .head hn₁ hr, ha', by rw [List.map_cons, List.map_cons, hl, hseen]⟩

theorem Halts.alike {chain : Chain} {m n : Machine} {e : Ending} (h : Halts chain m e)
    (ha : m.Alike n) : ∃ e', Halts chain n e' ∧ e.Alike e' := by
  obtain ⟨a, ws, x⟩ := m
  obtain ⟨y, rfl, hx⟩ := ha.exists_eq
  cases h with
  | finished stopped => exact ⟨_, .finished (stopped.alike hx), .finished hx⟩
  | interrupted => exact ⟨_, .interrupted, .interrupted hx⟩

end Machine

open Machine in
/-- A chain of handlers that cannot tell where values are does the same on requests that are alike,
step by step and in the end. -/
theorem Chain.next_alike {chain : Chain} (hc : ∀ h ∈ chain, h.program.Uniform) {x y : Exchange}
    (ha : x.Alike y) :
    (chain.next x).Alike (chain.next y) ∧
      ∃ ms ns m n, Run chain ⟨.loop, [], x⟩ ms m ∧ Halts chain m (chain.next x) ∧
        Run chain ⟨.loop, [], y⟩ ns n ∧ Halts chain n (chain.next y) ∧
        ns.map seen = ms.map seen := by
  obtain ⟨m, hm, hhm⟩ := reaches_next chain x
  obtain ⟨n', hn', hhn'⟩ := reaches_next chain y
  obtain ⟨ms, hrun⟩ := Reaches.exists_run hm
  have hu : Machine.Uniform ⟨.loop, [], x⟩ := ⟨by simp, by simp⟩
  have hstart : Machine.Alike ⟨.loop, [], x⟩ ⟨.loop, [], y⟩ := ⟨rfl, rfl, ha⟩
  obtain ⟨ns, n, hrun', han, hseen⟩ := hrun.alike hc hu hstart
  obtain ⟨e, hhe, hae⟩ := hhm.alike han
  obtain rfl := hhe.unique hrun'.reaches hn' hhn'
  exact ⟨hae, ms, ns, m, n, hrun, hhm, hrun', hhe, hseen⟩

end Gateway
