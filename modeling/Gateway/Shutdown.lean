/-! A signal to stop, which is raised once and for all. Tasks that wait for it are told by a
channel that keeps the last message for those who listen. -/

namespace Gateway

/-- A receiver has seen all messages before `next`. -/
structure Receiver where
  id : Nat
  next : Nat
deriving DecidableEq, Repr

inductive Notice where
  | signal
  | lagged (missed : Nat)
deriving DecidableEq, Repr

/-- The number of messages sent counts only those that had a receiver. -/
structure Shutdown where
  fired : Bool := false
  sent : Nat := 0
  receivers : List Receiver := []
  issued : Nat := 0
deriving DecidableEq, Repr, Inhabited

namespace Shutdown

def subscribe (s : Shutdown) : Shutdown × Nat :=
  ({ s with receivers := s.receivers ++ [⟨s.issued, s.sent⟩], issued := s.issued + 1 }, s.issued)

def unsubscribe (s : Shutdown) (id : Nat) : Shutdown :=
  { s with receivers := s.receivers.filter (·.id != id) }

def mark (s : Shutdown) : Shutdown := { s with fired := true }

/-- A message without a receiver is lost. -/
def broadcast (s : Shutdown) : Shutdown :=
  if s.receivers.isEmpty then s else { s with sent := s.sent + 1 }

def trigger (s : Shutdown) : Shutdown := s.mark.broadcast

def moveTo (s : Shutdown) (id next : Nat) : Shutdown :=
  { s with receivers := s.receivers.map fun r => if r.id = id then { r with next } else r }

/-- What a receiver hears next: nothing, that messages were missed, or the message kept. -/
def receive (s : Shutdown) (id : Nat) : Shutdown × Option Notice :=
  match s.receivers.find? (·.id == id) with
  | none => (s, none)
  | some r =>
    if s.sent ≤ r.next then (s, none)
    else if s.sent = r.next + 1 then (s.moveTo id s.sent, some .signal)
    else (s.moveTo id (s.sent - 1), some (.lagged (s.sent - 1 - r.next)))

/-- A task that waits for the signal: it subscribes, looks whether the signal was raised, and
receives. -/
inductive Waiter where
  | begun
  | subscribed (id : Nat)
  | receiving (id : Nat)
  | returned
deriving DecidableEq, Repr

def Waiter.step (s : Shutdown) : Waiter → Option (Shutdown × Waiter)
  | begun => let (s, id) := s.subscribe; some (s, subscribed id)
  | subscribed id => if s.fired then some (s.unsubscribe id, returned) else some (s, receiving id)
  | receiving id =>
    match s.receive id with
    | (_, none) => none
    | (s, some _) => some (s.unsubscribe id, returned)
  | returned => none

/-- The steps that a waiter can take; there are at most three. -/
def Waiter.run (s : Shutdown) (w : Waiter) : Shutdown × Waiter :=
  go 3 s w
where
  go : Nat → Shutdown → Waiter → Shutdown × Waiter
    | 0, s, w => (s, w)
    | n + 1, s, w =>
      match w.step s with
      | some (s, w) => go n s w
      | none => (s, w)

def Waiter.drop (s : Shutdown) : Waiter → Shutdown
  | subscribed id => s.unsubscribe id
  | receiving id => s.unsubscribe id
  | _ => s

def settle (s : Shutdown) (waiters : List Waiter) : Shutdown × List Waiter :=
  waiters.foldl (fun (s, done) w =>
    let (s, w) := w.run s
    (s, done ++ [w])) (s, [])

/-- Whether a wait that begins now ends by itself. -/
def wait (s : Shutdown) : Shutdown × Bool :=
  let (s, w) := Waiter.begun.run s
  (w.drop s, w == .returned)

/-- A task that raises the signal in two steps. -/
inductive Trigger where
  | begun
  | marked
  | completed
deriving DecidableEq, Repr

def Trigger.step (s : Shutdown) : Trigger → Option (Shutdown × Trigger)
  | begun => some (s.mark, marked)
  | marked => some (s.broadcast, completed)
  | completed => none

end Shutdown

end Gateway
