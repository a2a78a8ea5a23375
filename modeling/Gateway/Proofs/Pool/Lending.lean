import Gateway.Pool
import Mathlib.Data.List.Nodup
import Mathlib.Data.List.Perm.Basic

/-! Any number of holders that take objects from one pool, do what they like to them and give them
back, in any order: each object has one place, and is clean when it is handed out. -/

namespace Gateway.Pool

/-- An object that can be told from all others of its pool. -/
structure Object (β : Type) where
  id : Nat
  state : β

variable {β : Type}

def ids (p : Pool (Object β)) : List Nat := p.idle.map (·.id)

/-- Objects are numbered as they are made, and stay the same ones when they are made clean. -/
def handOut (make : Nat → β) (clean : β → β) (p : Pool (Object β)) :
    Object β × Pool (Object β) :=
  p.acquire (fun n => ⟨n, make n⟩) fun o => { o with state := clean o.state }

theorem handOut_of_idle (make : Nat → β) (clean : β → β) {p : Pool (Object β)} {o : Object β}
    {rest : List (Object β)} (h : p.idle = o :: rest) :
    p.handOut make clean = ({ o with state := clean o.state }, { p with idle := rest }) := by
  simp only [handOut, acquire, take, h]

theorem handOut_of_no_idle (make : Nat → β) (clean : β → β) {p : Pool (Object β)}
    (h : p.idle = []) :
    p.handOut make clean = (⟨p.made, clean (make p.made)⟩, { p with made := p.made + 1 }) := by
  simp only [handOut, acquire, take, h]

/-- A pool, the objects that are held, and the numbers of those that were kept when they came back,
the latest first, and of those that were not. -/
structure Lending (β : Type) where
  pool : Pool (Object β)
  held : List (Object β) := []
  returned : List Nat := []
  discarded : List Nat := []

namespace Lending

/-- What a holder does; objects in hand are named by their place. -/
inductive Op (β : Type) where
  | acquire
  | mutate (i : Nat) (change : β → β)
  | release (i : Nat)

def giveBack (s : Lending β) (o : Object β) : Lending β :=
  let pool := s.pool.release o
  if o.id ∈ pool.ids then { s with pool, returned := o.id :: s.returned }
  else { s with pool, discarded := o.id :: s.discarded }

def after (make : Nat → β) (clean : β → β) (s : Lending β) : Op β → Lending β
  | .acquire =>
    let (o, pool) := s.pool.handOut make clean
    { s with pool, held := s.held ++ [o] }
  | .mutate i change =>
    match s.held[i]? with
    | some o => { s with held := s.held.set i { o with state := change o.state } }
    | none => s
  | .release i =>
    match s.held[i]? with
    | some o => { s with held := s.held.eraseIdx i }.giveBack o
    | none => s

def run (make : Nat → β) (clean : β → β) (s : Lending β) (ops : List (Op β)) : Lending β :=
  ops.foldl (after make clean) s

/-- Every object that was made is held, idle or discarded, in one place, and the idle ones are those
that came back last. -/
structure Sound (maxIdle : Nat) (s : Lending β) : Prop where
  bound : s.pool.maxIdle = maxIdle
  accounted : (s.held.map (·.id) ++ s.pool.ids ++ s.discarded).Perm (List.range s.pool.made)
  capped : s.pool.idle.length ≤ maxIdle
  recent : ∀ ids, ids <:+ s.pool.ids → s.returned.find? (· ∈ ids) = ids.head?

variable {make : Nat → β} {clean : β → β} {maxIdle : Nat} {s : Lending β}

theorem sound_new (maxIdle : Nat) : ({ pool := { maxIdle } } : Lending β).Sound maxIdle where
  bound := rfl
  accounted := .refl _
  capped := Nat.zero_le _
  recent ids h := by
    rw [List.suffix_nil.mp h]
    rfl

theorem Sound.distinct (h : s.Sound maxIdle) : (s.held.map (·.id) ++ s.pool.ids).Nodup :=
  (List.nodup_append.mp (h.accounted.nodup_iff.mpr List.nodup_range)).1

theorem Sound.made_eq (h : s.Sound maxIdle) :
    s.pool.made = s.pool.idle.length + s.held.length + s.discarded.length := by
  have hlength := h.accounted.length_eq
  simp only [List.length_append, List.length_map, List.length_range, ids] at hlength
  omega

/-! ### Handing out -/

theorem after_acquire_of_idle {o : Object β} {rest : List (Object β)}
    (h : s.pool.idle = o :: rest) :
    s.after make clean .acquire =
      { s with
        pool := { s.pool with idle := rest }
        held := s.held ++ [{ o with state := clean o.state }] } := by
  simp only [after, handOut_of_idle make clean h]

theorem after_acquire_of_no_idle (h : s.pool.idle = []) :
    s.after make clean .acquire =
      { s with
        pool := { s.pool with made := s.pool.made + 1 }
        held := s.held ++ [⟨s.pool.made, clean (make s.pool.made)⟩] } := by
  simp only [after, handOut_of_no_idle make clean h]

theorem Sound.acquire (h : s.Sound maxIdle) : (s.after make clean .acquire).Sound maxIdle := by
  cases hidle : s.pool.idle with
  | cons o rest =>
    have hids : s.pool.ids = o.id :: rest.map (·.id) := by rw [ids, hidle]; rfl
    rw [after_acquire_of_idle hidle]
    exact {
      bound := h.bound
      accounted := by
        have hacc := h.accounted
        rw [hids] at hacc
        simpa [ids] using hacc
      capped := by
        have hcap := h.capped
        rw [hidle] at hcap
        exact Nat.le_of_succ_le hcap
      recent := fun ids hs => h.recent ids (hids ▸ hs.trans (List.suffix_cons _ _)) }
  | nil =>
    have hids : s.pool.ids = [] := by rw [ids, hidle]; rfl
    rw [after_acquire_of_no_idle hidle]
    exact {
      bound := h.bound
      accounted := by
        have hacc := h.accounted
        rw [hids, List.append_nil] at hacc
        simp only [ids, hidle, List.map_append, List.map_nil, List.append_nil, List.range_succ]
        refine List.Perm.trans ?_ (hacc.append_right [s.pool.made])
        simpa using (List.perm_append_singleton s.pool.made s.discarded).symm.append_left _
      capped := h.capped
      recent := h.recent }

/-! ### What holders do with an object -/

theorem Sound.hold (h : s.Sound maxIdle) {held : List (Object β)}
    (hp : (held.map (·.id)).Perm (s.held.map (·.id))) : { s with held }.Sound maxIdle where
  bound := h.bound
  accounted := ((hp.append_right _).append_right _).trans h.accounted
  capped := h.capped
  recent := h.recent

theorem Sound.mutate (h : s.Sound maxIdle) (i : Nat) (change : β → β) :
    (s.after make clean (.mutate i change)).Sound maxIdle := by
  simp only [after]
  split
  · next o hi =>
    obtain ⟨hlt, rfl⟩ := List.getElem?_eq_some_iff.mp hi
    have hset := List.set_perm_cons_eraseIdx hlt { s.held[i] with state := change s.held[i].state }
    have hold := (List.getElem_cons_eraseIdx_perm hlt).map (·.id)
    exact h.hold ((hset.map (·.id)).trans hold)
  · exact h

/-! ### Taking back -/

theorem giveBack_eq (s : Lending β) (o : Object β) (ho : o.id ∉ s.pool.ids) :
    s.giveBack o =
      if s.pool.idle.length < s.pool.maxIdle then
        { s with
          pool := { s.pool with idle := o :: s.pool.idle }
          returned := o.id :: s.returned }
      else { s with discarded := o.id :: s.discarded } := by
  unfold giveBack Pool.release
  split
  · simp [ids]
  · simp [ho]

theorem Sound.giveBack {o : Object β} (h : { s with held := o :: s.held }.Sound maxIdle) :
    (s.giveBack o).Sound maxIdle := by
  have hnot : o.id ∉ s.pool.ids := fun hm =>
    (List.nodup_cons.mp h.distinct).1 (List.mem_append_right _ hm)
  rw [giveBack_eq s o hnot]
  split
  · next hlt =>
    exact {
      bound := h.bound
      accounted := by
        refine List.Perm.trans ?_ h.accounted
        exact List.perm_middle.append_right _
      capped := h.bound ▸ hlt
      recent := fun ids hs => by
        rcases List.suffix_cons_iff.mp hs with rfl | hs
        · simp
        · have hskip : o.id ∉ ids := fun hm => hnot (hs.subset hm)
          rw [List.find?_cons_of_neg (by simpa using hskip)]
          exact h.recent ids hs }
  · exact ⟨h.bound, List.perm_middle.trans h.accounted, h.capped, h.recent⟩

theorem after_release {i : Nat} {o : Object β} (hi : s.held[i]? = some o) :
    s.after make clean (.release i) = { s with held := s.held.eraseIdx i }.giveBack o := by
  simp only [after, hi]

theorem Sound.release (h : s.Sound maxIdle) (i : Nat) :
    (s.after make clean (.release i)).Sound maxIdle := by
  cases hi : s.held[i]? with
  | some o =>
    rw [after_release hi]
    obtain ⟨hlt, rfl⟩ := List.getElem?_eq_some_iff.mp hi
    exact (h.hold ((List.getElem_cons_eraseIdx_perm hlt).map _)).giveBack
  | none =>
    simp only [after, hi]
    exact h

theorem Sound.run (h : s.Sound maxIdle) (ops : List (Op β)) :
    (s.run make clean ops).Sound maxIdle := by
  refine List.foldlRecOn ops _ h fun s h op _ => ?_
  cases op with
  | acquire => exact h.acquire
  | mutate i change => exact h.mutate i change
  | release i => exact h.release i

/-! ### What one more step does -/

theorem after_mutate (s : Lending β) (i : Nat) (change : β → β) :
    (s.after make clean (.mutate i change)).pool = s.pool ∧
      (s.after make clean (.mutate i change)).discarded = s.discarded := by
  simp only [after]
  split <;> exact ⟨rfl, rfl⟩

theorem Sound.handed_out (h : s.Sound maxIdle) :
    ∃ o, (s.after make clean .acquire).held = s.held ++ [o] ∧
      (s.pool.idle = [] → o = ⟨s.pool.made, clean (make s.pool.made)⟩) ∧
      (s.pool.idle ≠ [] → ∃ old ∈ s.pool.idle, o = ⟨old.id, clean old.state⟩ ∧
        s.returned.find? (· ∈ s.pool.ids) = some old.id) := by
  cases hidle : s.pool.idle with
  | cons old rest =>
    have hhead : s.pool.ids.head? = some old.id := by rw [ids, hidle]; rfl
    rw [after_acquire_of_idle hidle]
    exact ⟨_, rfl, by simp, fun _ => ⟨old, List.mem_cons_self, rfl,
      (h.recent _ (List.suffix_refl _)).trans hhead⟩⟩
  | nil =>
    rw [after_acquire_of_no_idle hidle]
    exact ⟨_, rfl, fun _ => rfl, by simp⟩

theorem Sound.taken_back (h : s.Sound maxIdle) {i : Nat} {o : Object β}
    (hi : s.held[i]? = some o) :
    (s.after make clean (.release i)).pool.made = s.pool.made ∧
      (s.pool.idle.length < maxIdle →
        (s.after make clean (.release i)).pool.idle = o :: s.pool.idle ∧
          (s.after make clean (.release i)).discarded = s.discarded) := by
  have hnot : o.id ∉ s.pool.ids := fun hm =>
    (List.nodup_append.mp h.distinct).2.2 _ (List.mem_map.mpr ⟨o, List.mem_of_getElem? hi, rfl⟩)
      _ hm rfl
  rw [after_release hi, giveBack_eq { s with held := s.held.eraseIdx i } o hnot, h.bound]
  split
  · exact ⟨rfl, fun _ => ⟨rfl, rfl⟩⟩
  · next hge => exact ⟨rfl, fun hlt => absurd hlt hge⟩

theorem Sound.idle_of_made (h : s.Sound maxIdle) {op : Op β}
    (hm : (s.after make clean op).pool.made ≠ s.pool.made) : op = .acquire ∧ s.pool.idle = [] := by
  cases op with
  | acquire =>
    cases hidle : s.pool.idle with
    | cons o rest => exact absurd (by rw [after_acquire_of_idle hidle]) hm
    | nil => exact ⟨rfl, rfl⟩
  | mutate i change => exact absurd (by rw [(after_mutate s i change).1]) hm
  | release i =>
    cases hi : s.held[i]? with
    | some o => exact absurd (h.taken_back hi).1 hm
    | none => exact absurd (by simp only [after, hi]) hm

theorem Sound.full_of_discarded (h : s.Sound maxIdle) {op : Op β}
    (hd : (s.after make clean op).discarded ≠ s.discarded) :
    ∃ i o, op = .release i ∧ s.held[i]? = some o ∧ s.pool.idle.length = maxIdle := by
  cases op with
  | acquire =>
    cases hidle : s.pool.idle with
    | cons o rest => exact absurd (by rw [after_acquire_of_idle hidle]) hd
    | nil => exact absurd (by rw [after_acquire_of_no_idle hidle]) hd
  | mutate i change => exact absurd (after_mutate s i change).2 hd
  | release i =>
    cases hi : s.held[i]? with
    | some o =>
      have hfull : ¬ s.pool.idle.length < maxIdle := fun hlt => hd ((h.taken_back hi).2 hlt).2
      exact ⟨i, o, rfl, hi, Nat.le_antisymm h.capped (Nat.le_of_not_lt hfull)⟩
    | none => exact absurd (by simp only [after, hi]) hd

/-- After any use of a pool by any number of holders, every object that was made is held by one
holder, or idle and held by none, or discarded. The next object that is handed out is the one that
came back last, or a new one if none is idle, and it has just been made clean; the next that comes
back is kept, or discarded if as many as allowed are idle. -/
theorem lent_exclusively (make : Nat → β) (clean : β → β) (maxIdle : Nat) (ops : List (Op β)) :
    let s := ({ pool := { maxIdle } } : Lending β).run make clean ops
    (s.held.map (·.id) ++ s.pool.ids).Nodup ∧
    s.pool.idle.length ≤ maxIdle ∧
    s.pool.made = s.pool.idle.length + s.held.length + s.discarded.length ∧
    (∀ op, (s.after make clean op).pool.made ≠ s.pool.made → op = .acquire ∧ s.pool.idle = []) ∧
    (∃ o, (s.after make clean .acquire).held = s.held ++ [o] ∧
      (s.pool.idle = [] → o = ⟨s.pool.made, clean (make s.pool.made)⟩) ∧
      (s.pool.idle ≠ [] → ∃ old ∈ s.pool.idle, o = ⟨old.id, clean old.state⟩ ∧
        s.returned.find? (· ∈ s.pool.ids) = some old.id)) ∧
    (∀ op, (s.after make clean op).discarded ≠ s.discarded →
      ∃ i o, op = .release i ∧ s.held[i]? = some o ∧ s.pool.idle.length = maxIdle) ∧
    (∀ i o, s.held[i]? = some o → s.pool.idle.length < maxIdle →
      (s.after make clean (.release i)).pool.idle = o :: s.pool.idle) := by
  intro s
  have hs : s.Sound maxIdle := (sound_new maxIdle).run ops
  exact ⟨hs.distinct, hs.capped, hs.made_eq, fun _ => hs.idle_of_made, hs.handed_out,
    fun _ => hs.full_of_discarded, fun i o hi hlt => ((hs.taken_back hi).2 hlt).1⟩

end Lending

end Gateway.Pool
