import Gateway.Proofs.Exchange.Machine
import Mathlib.Data.List.Basic

/-! The order in which the handlers of a chain are entered and left, whatever they do: one after the
other from the first on, none twice, none after an abort, and the one entered last is left first. -/

namespace Gateway

namespace Visit

def entered? : Visit → Option Nat
  | enter i => some i
  | _ => none

/-- What a visit makes of the handlers that are inside, the one entered last in front: only that one
can be left or thrown out. -/
def track : List Nat → Visit → Option (List Nat)
  | inside, enter i => some (i :: inside)
  | j :: inside, leave i => if i = j then some inside else none
  | j :: inside, unwind i => if i = j then some inside else none
  | [], _ => none

def inside? (vs : List Visit) : Option (List Nat) := vs.foldlM track []

theorem inside?_concat {vs : List Visit} {inside : List Nat} (h : inside? vs = some inside)
    (v : Visit) : inside? (vs ++ [v]) = track inside v := by
  rw [inside?, List.foldlM_append]
  change (inside? vs).bind _ = _
  rw [h]
  simp

end Visit

def entered (vs : List Visit) : List Nat := vs.filterMap Visit.entered?

theorem entered_concat (vs : List Visit) (v : Visit) :
    entered (vs ++ [v]) = entered vs ++ v.entered?.toList := by
  cases h : v.entered? <;> simp [entered, h]

theorem entered_concat_of_none (vs : List Visit) {v : Visit} (h : v.entered? = none) :
    entered (vs ++ [v]) = entered vs := by
  rw [entered_concat, h]
  exact List.append_nil _

/-- A program that never aborts, skips or panics by itself, nor waits for ever. -/
def Program.Quiet : Program → Prop
  | done => True
  | interrupt _ => False
  | act op rest => op.Quiet ∧ rest.Quiet
  | consult k => ∀ x, (k x).Quiet
  | next rest => rest.Quiet
  | attempt _ rest => rest.Quiet

namespace Machine

def inside (m : Machine) : List Nat :=
  match m.activity with
  | .handler i _ => i :: m.waiting.map (·.handler)
  | _ => m.waiting.map (·.handler)

/-- Handlers are entered one after the other up to the cursor, and left in turn. -/
structure InOrder (chain : Chain) (m : Machine) : Prop where
  entered : entered m.exchange.visits = List.range m.exchange.context.cursor
  bound : m.exchange.context.cursor ≤ chain.length
  inside : Visit.inside? m.exchange.visits = some m.inside

theorem Step.inOrder {chain : Chain} {m n : Machine} (h : Step chain m n)
    (hm : InOrder chain m) : InOrder chain n := by
  obtain ⟨he, hb, hi⟩ := hm
  cases h with
  | @enter ws x h running found =>
    refine ⟨?_, (List.getElem?_eq_some_iff.mp found).1, Visit.inside?_concat hi _⟩
    change Gateway.entered (x.visits ++ [.enter x.context.cursor]) =
      List.range (x.context.cursor + 1)
    rw [entered_concat, he, List.range_succ]
    rfl
  | resume stopped => exact ⟨he, hb, hi⟩
  | done =>
    exact ⟨(entered_concat_of_none _ rfl).trans he, hb,
      (Visit.inside?_concat hi _).trans (if_pos rfl)⟩
  | interrupt =>
    exact ⟨(entered_concat_of_none _ rfl).trans he, hb,
      (Visit.inside?_concat hi _).trans (if_pos rfl)⟩
  | act =>
    refine ⟨?_, (Operation.apply_cursor _ _).le.trans hb, ?_⟩
    · rw [Operation.apply_visits, Operation.apply_cursor]
      exact he
    · rw [Operation.apply_visits]
      exact hi
  | consult => exact ⟨he, hb, hi⟩
  | next => exact ⟨he, hb, hi⟩
  | attempt => exact ⟨he, hb, hi⟩
  | rescue => exact ⟨he, hb, hi⟩
  | unwind =>
    exact ⟨(entered_concat_of_none _ rfl).trans he, hb,
      (Visit.inside?_concat hi _).trans (if_pos rfl)⟩

theorem Reaches.inOrder {chain : Chain} {m n : Machine} (h : Reaches chain m n)
    (hm : InOrder chain m) : InOrder chain n := by
  induction h with
  | refl => exact hm
  | tail _ hs ih => exact hs.inOrder ih

theorem Step.visits_prefix {chain : Chain} {m n : Machine} (h : Step chain m n) :
    m.exchange.visits <+: n.exchange.visits := by
  cases h with
  | act => exact (Operation.apply_visits _ _).symm ▸ List.prefix_rfl
  | enter => exact List.prefix_append _ _
  | done => exact List.prefix_append _ _
  | interrupt => exact List.prefix_append _ _
  | unwind => exact List.prefix_append _ _
  | _ => exact List.prefix_rfl

theorem Reaches.entered_prefix {chain : Chain} {m n : Machine} (h : Reaches chain m n) :
    Gateway.entered m.exchange.visits <+: Gateway.entered n.exchange.visits := by
  induction h with
  | refl => exact List.prefix_rfl
  | tail _ hs ih => exact ih.trans (hs.visits_prefix.filterMap _)

theorem Step.aborted {chain : Chain} {m n : Machine} (h : Step chain m n)
    (ha : m.exchange.context.aborted = true) :
    n.exchange.context.aborted = true ∧
      Gateway.entered n.exchange.visits = Gateway.entered m.exchange.visits := by
  cases h with
  | enter running found => exact absurd (running.symm.trans ha) (by simp)
  | done => exact ⟨ha, entered_concat_of_none _ rfl⟩
  | interrupt => exact ⟨ha, entered_concat_of_none _ rfl⟩
  | act => exact ⟨Operation.apply_aborted ha _, by rw [Operation.apply_visits]⟩
  | unwind => exact ⟨ha, entered_concat_of_none _ rfl⟩
  | _ => exact ⟨ha, rfl⟩

theorem Reaches.aborted {chain : Chain} {m n : Machine} (h : Reaches chain m n)
    (ha : m.exchange.context.aborted = true) :
    n.exchange.context.aborted = true ∧
      Gateway.entered n.exchange.visits = Gateway.entered m.exchange.visits := by
  induction h with
  | refl => exact ⟨ha, rfl⟩
  | tail _ hs ih =>
    obtain ⟨ha', he⟩ := hs.aborted ih.1
    exact ⟨ha', he.trans ih.2⟩

/-- Once a run is bound to come to an abort without entering anything, nothing is entered in it. -/
theorem Reaches.entered_eq_of_shut {chain : Chain} {m n y : Machine} (hy : Reaches chain m y)
    (aborted : y.exchange.context.aborted = true)
    (same : Gateway.entered y.exchange.visits = Gateway.entered m.exchange.visits)
    (hn : Reaches chain m n) :
    Gateway.entered n.exchange.visits = Gateway.entered m.exchange.visits := by
  rcases Reaches.total hn hy with hr | hr
  · refine (hn.entered_prefix.eq_of_length_le ?_).symm
    have hle := hr.entered_prefix.length_le
    rwa [same] at hle
  · rw [(Reaches.aborted hr aborted).2, same]

/-- No handler has aborted or skipped the rest, and none is being thrown out. -/
def Undisturbed (m : Machine) : Prop :=
  m.exchange.context.aborted = false ∧ ∀ why, m.activity ≠ .interrupted why

/-- All that is left to do by the handlers inside is quiet. -/
structure Quiet (m : Machine) : Prop where
  undisturbed : m.Undisturbed
  handler : ∀ i p, m.activity = .handler i p → p.Quiet
  waiting : ∀ w ∈ m.waiting, w.rest.Quiet

theorem Step.quiet {chain : Chain} (hc : ∀ h ∈ chain, h.program.Quiet) {m n : Machine}
    (h : Step chain m n) (hm : m.Quiet) : n.Quiet := by
  obtain ⟨⟨ha, hp⟩, hh, hw⟩ := hm
  cases h with
  | enter running found =>
    refine ⟨⟨ha, by simp⟩, ?_, hw⟩
    rintro i p ⟨⟩
    exact hc _ (List.mem_of_getElem? found)
  | resume stopped =>
    refine ⟨⟨ha, by simp⟩, ?_, fun w hm => hw w (List.mem_cons_of_mem _ hm)⟩
    rintro i p ⟨⟩
    exact hw _ List.mem_cons_self
  | done => exact ⟨⟨ha, by simp⟩, by simp, hw⟩
  | interrupt => exact (hh _ _ rfl).elim
  | act =>
    obtain ⟨hq, hr⟩ := hh _ _ rfl
    refine ⟨⟨(hq.apply_aborted _).trans ha, by simp⟩, ?_, hw⟩
    rintro i p ⟨⟩
    rwa [hq.after_eq]
  | consult =>
    refine ⟨⟨ha, by simp⟩, ?_, hw⟩
    rintro i p ⟨⟩
    exact hh _ _ rfl _
  | next =>
    have hr := hh _ _ rfl
    exact ⟨⟨ha, by simp⟩, by simp, List.forall_mem_cons.mpr ⟨hr, hw⟩⟩
  | attempt =>
    have hr := hh _ _ rfl
    exact ⟨⟨ha, by simp⟩, by simp, List.forall_mem_cons.mpr ⟨hr, hw⟩⟩
  | rescue => exact absurd rfl (hp _)
  | unwind => exact absurd rfl (hp _)

theorem Reaches.quiet {chain : Chain} (hc : ∀ h ∈ chain, h.program.Quiet) {m n : Machine}
    (h : Reaches chain m n) (hm : m.Quiet) : n.Quiet := by
  induction h with
  | refl => exact hm
  | tail _ hs ih => exact hs.quiet hc ih

theorem Halts.entered_eq {chain : Chain} {m : Machine} {e : Ending} (h : Halts chain m e)
    (hu : m.Undisturbed) (hm : InOrder chain m) :
    Gateway.entered e.exchange.visits = List.range chain.length := by
  cases h with
  | interrupted => exact absurd rfl (hu.2 _)
  | @finished x stopped =>
    rcases stopped with ha | hn
    · exact absurd (hu.1.symm.trans ha) (by simp)
    · have hle : chain.length ≤ x.context.cursor := List.getElem?_eq_none_iff.mp hn
      exact hm.entered.trans (congrArg List.range (le_antisymm hm.bound hle))

theorem Halts.inside_eq {chain : Chain} {m : Machine} {e : Ending} (h : Halts chain m e) :
    m.inside = [] := by cases h <;> rfl

end Machine

open Machine in
/-- A chain that starts from its first handler always ends. It enters its handlers in order and
closes the one entered last first, so that those entered during a call for the rest are closed when
the call returns; it enters all of them unless one aborts, skips or panics. Nothing is entered after
an abort, and further aborts change nothing. -/
theorem Chain.next_in_order (chain : Chain) (c : Context) (shelf : Shelf) (world : World)
    (events : List Event) :
    let x : Exchange := { context := { c with cursor := 0 }, shelf, world, events }
    let start : Machine := ⟨.loop, [], x⟩
    let visits := (chain.next x).exchange.visits
    (∀ m, Reaches chain start m → ∃ n, Reaches chain m n ∧ Halts chain n (chain.next x)) ∧
    (∃ k ≤ chain.length, entered visits = List.range k) ∧
    Visit.inside? visits = some [] ∧
    ((∀ m, Reaches chain start m → m.Undisturbed) → entered visits = List.range chain.length) ∧
    (c.aborted = false → (∀ h ∈ chain, h.program.Quiet) →
      ∀ m, Reaches chain start m → m.Undisturbed) ∧
    ∀ m, Reaches chain start m →
      Visit.inside? m.exchange.visits = some m.inside ∧
      (m.exchange.context.aborted = true →
        (∀ n, Reaches chain m n → entered n.exchange.visits = entered m.exchange.visits) ∧
        (∀ s, (Operation.abort s).apply m.exchange = m.exchange) ∧
        ∀ s body, (Operation.abortWith s body).apply m.exchange = m.exchange) := by
  intro x start visits
  have hstart : InOrder chain start := ⟨rfl, Nat.zero_le _, rfl⟩
  obtain ⟨e, hr, hh⟩ := reaches_next chain x
  have he : InOrder chain e := Reaches.inOrder hr hstart
  have hx := hh.exchange_eq
  refine ⟨fun m hm => ⟨e, hh.of_reaches hr hm, hh⟩, ?_, ?_, ?_, ?_, ?_⟩
  · exact ⟨_, he.bound, by rw [← he.entered, ← hx]⟩
  · simp only [visits, hx, he.inside, hh.inside_eq]
  · exact fun hu => hh.entered_eq (hu e hr) he
  · intro ha hq m hm
    have hquiet : start.Quiet := ⟨⟨ha, by simp [start]⟩, by simp [start], by simp [start]⟩
    exact (Reaches.quiet hq hm hquiet).undisturbed
  · intro m hm
    refine ⟨(Reaches.inOrder hm hstart).inside, fun ha => ⟨?_, ?_, ?_⟩⟩
    · exact fun n hn => (Reaches.aborted hn ha).2
    · exact Operation.apply_abort_of_aborted ha
    · exact Operation.apply_abortWith_of_aborted ha

end Gateway
