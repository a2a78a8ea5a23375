import Gateway.Proofs.Exchange.Order

/-! Where the programs come from that the handlers of a chain still have to do, and handlers that
decide by the state in which they are entered: when one of them shuts, nothing behind it is
entered. -/

namespace Gateway

namespace Program

/-- Every operation that the program may come to do satisfies `P`. -/
def Every (P : Operation → Prop) : Program → Prop
  | done => True
  | interrupt _ => True
  | act op rest => P op ∧ rest.Every P
  | consult k => ∀ x, (k x).Every P
  | next rest => rest.Every P
  | attempt rescue rest => (∀ why, (rescue why).Every P) ∧ rest.Every P

/-- What may be left of a program after one step in a state. -/
inductive After (x : Exchange) : Program → Program → Prop
  | act {op : Operation} {rest : Program} : After x (.act op rest) (op.after rest)
  | consult {k : Exchange → Program} : After x (.consult k) (k x)
  | next {rest : Program} : After x (.next rest) rest
  | attempt {rescue : Interruption → Program} {rest : Program} :
      After x (.attempt rescue rest) rest
  | rescue {rescue : Interruption → Program} {rest : Program} (why : Interruption) :
      After x (.attempt rescue rest) (rescue why)

theorem Every.after {P : Operation → Prop} {x : Exchange} {p q : Program} (h : p.Every P)
    (hq : After x p q) : q.Every P := by
  cases hq with
  | act => exact Operation.after_keeps h.2 fun _ _ => trivial
  | consult => exact h x
  | next => exact h
  | attempt => exact h.2
  | rescue r => exact h.1 r

end Program

def Waiting.Keeps (w : Waiting) (p : Program) : Prop :=
  p = w.rest ∨ ∃ rescue q, w.rescue? = some rescue ∧ p = rescue q

namespace Machine

def Keeps (m : Machine) (i : Nat) (p : Program) : Prop :=
  ∃ w ∈ m.waiting, w.handler = i ∧ w.Keeps p

/-- A program that a handler inside may have to do after the next step. -/
def Leaves (m : Machine) (i : Nat) (p : Program) : Prop :=
  m.Keeps i p ∨ ∃ q, m.activity = .handler i q ∧ Program.After m.exchange q p

/-- A handler has just been entered. -/
structure Enters (chain : Chain) (i : Nat) (h : Handler) (m : Machine) : Prop where
  found : chain[i]? = some h
  activity : m.activity = .handler i h.program
  running : m.exchange.context.aborted = false
  cursor : m.exchange.context.cursor = i + 1

theorem Enters.reaches_done {chain : Chain} {i : Nat} {name : String} {k : Exchange → Program}
    {n : Machine} (h : Enters chain i ⟨name, .consult k⟩ n) {op op' : Operation}
    (hk : k n.exchange = .act op (.act op' .done)) (hop : op.panic? = none)
    (hop' : op'.panic? = none) :
    Reaches chain n ⟨.handler i .done, n.waiting, op'.apply (op.apply n.exchange)⟩ := by
  obtain ⟨activity, ws, x⟩ := n
  obtain rfl : activity = .handler i (.consult k) := h.activity
  have hk : k x = .act op (.act op' .done) := hk
  refine .head .consult ?_
  rw [hk]
  exact .head (.acts hop) <| .single (.acts hop')

theorem Step.keeps {chain : Chain} {m n : Machine} (h : Step chain m n) {i : Nat} {p : Program}
    (hp : n.Keeps i p) : m.Leaves i p := by
  obtain ⟨w, hw, rfl, hp⟩ := hp
  cases h with
  | next =>
    rcases List.mem_cons.mp hw with rfl | hw
    · refine .inr ⟨_, rfl, ?_⟩
      rcases hp with rfl | ⟨_, _, hf, _⟩
      · exact .next
      · cases hf
    · exact .inl ⟨w, hw, rfl, hp⟩
  | attempt =>
    rcases List.mem_cons.mp hw with rfl | hw
    · refine .inr ⟨_, rfl, ?_⟩
      rcases hp with rfl | ⟨_, q, hf, rfl⟩
      · exact .attempt
      · cases hf
        exact .rescue q
    · exact .inl ⟨w, hw, rfl, hp⟩
  | resume | rescue | unwind => exact .inl ⟨w, List.mem_cons_of_mem _ hw, rfl, hp⟩
  | _ => exact .inl ⟨w, hw, rfl, hp⟩

theorem Step.handler {chain : Chain} {m n : Machine} (h : Step chain m n) {i : Nat} {p : Program}
    (hp : n.activity = .handler i p) :
    (∃ g : Handler, p = g.program ∧ i = m.exchange.context.cursor ∧ Enters chain i g n) ∨
      m.Leaves i p := by
  cases h with
  | enter running found =>
    cases hp
    exact .inl ⟨_, rfl, rfl, found, rfl, running, rfl⟩
  | resume stopped =>
    cases hp
    exact .inr (.inl ⟨_, List.mem_cons_self, rfl, .inl rfl⟩)
  | act =>
    cases hp
    exact .inr (.inr ⟨_, rfl, .act⟩)
  | consult =>
    cases hp
    exact .inr (.inr ⟨_, rfl, .consult⟩)
  | @rescue q =>
    cases hp
    exact .inr (.inl ⟨_, List.mem_cons_self, rfl, .inr ⟨_, q, rfl, rfl⟩⟩)
  | done | interrupt | next | attempt | unwind => cases hp

theorem Step.moves_or_acts {chain : Chain} {m n : Machine} (h : Step chain m n) :
    (∃ cursor visits,
      n.exchange = { m.exchange with context := { m.exchange.context with cursor }, visits }) ∨
    ∃ i op rest, m.activity = .handler i (.act op rest) ∧ n.exchange = op.apply m.exchange := by
  cases h with
  | act => exact .inr ⟨_, _, _, rfl, rfl⟩
  | _ => exact .inl ⟨_, _, rfl⟩

theorem Reaches.every {chain : Chain} {P : Operation → Prop} {i : Nat}
    (hc : ∀ h, chain[i]? = some h → h.program.Every P) {x : Exchange} {m : Machine}
    (hr : Reaches chain ⟨.loop, [], x⟩ m) :
    (∀ p, m.Keeps i p → p.Every P) ∧ ∀ p, m.activity = .handler i p → p.Every P := by
  induction hr with
  | refl => exact ⟨fun p ⟨w, hw, _⟩ => by simp at hw, fun p hp => by cases hp⟩
  | @tail m _ _ hs ih =>
    obtain ⟨hkeeps, hrun⟩ := ih
    have hleaves : ∀ p, m.Leaves i p → p.Every P := by
      rintro p (hp | ⟨q, hq, hafter⟩)
      · exact hkeeps p hp
      · exact (hrun q hq).after hafter
    refine ⟨fun p hp => hleaves p (hs.keeps hp), fun p hp => ?_⟩
    rcases hs.handler hp with ⟨g, rfl, -, henters⟩ | hp
    · exact hc g henters.found
    · exact hleaves p hp

/-- A handler was entered in a state of the run, before the one that it has got to. -/
structure Entered (chain : Chain) (start : Machine) (i : Nat) (h : Handler) (n m : Machine) :
    Prop where
  reached : Reaches chain start n
  enters : Enters chain i h n
  later : Reaches chain n m

theorem Entered.tail {chain : Chain} {start : Machine} {i : Nat} {h : Handler} {n m m' : Machine}
    (he : Entered chain start i h n m) (hs : Step chain m m') : Entered chain start i h n m' :=
  ⟨he.reached, he.enters, he.later.tail hs⟩

theorem Step.entered {chain : Chain} {m n : Machine} (h : Step chain m n) :
    Gateway.entered n.exchange.visits = Gateway.entered m.exchange.visits ∨
      ∃ i g, Enters chain i g n ∧
        Gateway.entered n.exchange.visits = Gateway.entered m.exchange.visits ++ [i] := by
  cases h with
  | enter running found => exact .inr ⟨_, _, ⟨found, rfl, running, rfl⟩, entered_concat _ _⟩
  | act => exact .inl (by rw [Operation.apply_visits])
  | done => exact .inl (entered_concat_of_none _ rfl)
  | interrupt => exact .inl (entered_concat_of_none _ rfl)
  | unwind => exact .inl (entered_concat_of_none _ rfl)
  | _ => exact .inl rfl

end Machine

end Gateway
