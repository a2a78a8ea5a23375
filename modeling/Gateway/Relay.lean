import Gateway.Text.Utf8

/-! Copying bytes both ways between two peers until one direction ends. A pump for each direction
runs on its own; the relay waits for the first report or for a cancellation, stops the pumps and
returns once both are over. -/

namespace Gateway

inductive Side where
  | client
  | backend
deriving DecidableEq, Repr

def Side.other : Side → Side
  | client => backend
  | backend => client

/-- What a peer wrote, and what of that no pump has read yet; after it closed it writes no more. -/
structure Source where
  written : Bytes := []
  unread : Bytes := []
  closed : Bool := false
deriving DecidableEq, Repr, Inhabited

/-- `ended` once the peer was told that nothing more comes. -/
structure Sink where
  received : Bytes := []
  ended : Bool := false
deriving DecidableEq, Repr, Inhabited

structure Peer extends Source, Sink
deriving DecidableEq, Repr, Inhabited

/-- The number of bytes copied when the source had ended, or why copying failed. -/
inductive CopyResult where
  | ok (count : Nat)
  | error (reason : String)
deriving DecidableEq, Repr, Inhabited

/-- A pump copies until its source has ended or something failed, ends the sink and reports. -/
inductive Stage where
  | copying
  | copied (result : CopyResult)
  | ended (result : CopyResult)
  | reported
  | aborted
deriving DecidableEq, Repr, Inhabited

def Stage.isOver : Stage → Bool
  | reported | aborted => true
  | copying | copied _ | ended _ => false

/-- What a pump has read and not yet passed on, and how much it has passed on. -/
structure Pump where
  held : Bytes := []
  count : Nat := 0
  stage : Stage := .copying
deriving DecidableEq, Repr, Inhabited

structure Stream where
  source : Source
  pump : Pump
  sink : Sink
deriving DecidableEq, Repr, Inhabited

namespace Stream

def delivered (s : Stream) : Bytes := s.sink.received

inductive Move where
  | write (bytes : Bytes)
  | close
  | read (count : Nat)
  | pass (count : Nat)
  | finish
  | fail (reason : String)
  | shut
deriving DecidableEq, Repr

/-- What a move does, if it can be made. A pump reads and passes on in pieces of any size, and is
done when its source has closed and nothing is left; it can fail at any time. -/
def move (s : Stream) : Move → Option Stream
  | .write bytes =>
    if s.source.closed then none
    else some { s with
      source.written := s.source.written ++ bytes
      source.unread := s.source.unread ++ bytes }
  | .close => some { s with source.closed := true }
  | .read count =>
    if s.pump.stage = .copying ∧ 0 < count ∧ count ≤ s.source.unread.length then
      some { s with
        source.unread := s.source.unread.drop count
        pump.held := s.pump.held ++ s.source.unread.take count }
    else none
  | .pass count =>
    if s.pump.stage = .copying ∧ 0 < count ∧ count ≤ s.pump.held.length then
      some { s with
        pump.held := s.pump.held.drop count
        pump.count := s.pump.count + count
        sink.received := s.sink.received ++ s.pump.held.take count }
    else none
  | .finish =>
    if s.pump.stage = .copying ∧ s.source.closed ∧ s.source.unread = [] ∧ s.pump.held = [] then
      some { s with pump.stage := .copied (.ok s.pump.count) }
    else none
  | .fail reason =>
    if s.pump.stage = .copying then some { s with pump.stage := .copied (.error reason) } else none
  | .shut =>
    match s.pump.stage with
    | .copied result => some { s with pump.stage := .ended result, sink.ended := true }
    | _ => none

end Stream

/-- How the direction from `source` ended. -/
structure RelayOutcome where
  source : Side
  result : CopyResult
deriving DecidableEq, Repr

def RelayOutcome.copied (o : RelayOutcome) : Nat :=
  match o.result with
  | .ok count => count
  | .error _ => 0

/-- Without a first outcome the relay was cancelled. -/
inductive Phase where
  | running
  | stopping (first : Option RelayOutcome)
  | returned (first : Option RelayOutcome)
deriving DecidableEq, Repr, Inhabited

/-- Reports wait in a channel with two places until they are received. -/
structure Relay where
  client : Peer := {}
  backend : Peer := {}
  up : Pump := {}
  down : Pump := {}
  cancelled : Bool := false
  reports : List RelayOutcome := []
  phase : Phase := .running
deriving DecidableEq, Repr, Inhabited

namespace Relay

inductive Event where
  | move (source : Side) (m : Stream.Move)
  | report (source : Side)
  | cancel
  | receive
  | stop
  | abort (source : Side)
  | leave
deriving DecidableEq, Repr

def stream (r : Relay) : Side → Stream
  | .client => ⟨r.client.toSource, r.up, r.backend.toSink⟩
  | .backend => ⟨r.backend.toSource, r.down, r.client.toSink⟩

def update (r : Relay) : Side → Stream → Relay
  | .client, s => { r with client.toSource := s.source, up := s.pump, backend.toSink := s.sink }
  | .backend, s => { r with backend.toSource := s.source, down := s.pump, client.toSink := s.sink }

def post (r : Relay) (o : RelayOutcome) : Relay := { r with reports := r.reports ++ [o] }

def letGo (r : Relay) : Relay := { r with client.ended := true, backend.ended := true }

def isOver (r : Relay) : Bool := r.up.stage.isOver && r.down.stage.isOver

def result (r : Relay) : Option (Option RelayOutcome) :=
  match r.phase with
  | .returned first => some first
  | _ => none

/-- What an event does, if it can happen. A channel that no pump can report to any more gives
nothing; a pump that is to be stopped goes on until it notices; the peers are let go in the end. -/
def step (r : Relay) : Event → Option Relay
  | .move side m => ((r.stream side).move m).map (r.update side)
  | .report side =>
    let s := r.stream side
    match s.pump.stage with
    | .ended result =>
      if r.reports.length < 2 then
        some ((r.post ⟨side, result⟩).update side { s with pump.stage := .reported })
      else none
    | _ => none
  | .cancel => some { r with cancelled := true }
  | .receive =>
    match r.phase, r.reports with
    | .running, first :: reports => some { r with reports, phase := .stopping (some first) }
    | .running, [] => if r.isOver then some { r with phase := .stopping none } else none
    | _, _ => none
  | .stop =>
    if r.phase = .running ∧ r.cancelled then some { r with phase := .stopping none } else none
  | .abort side =>
    let s := r.stream side
    match r.phase with
    | .stopping _ =>
      if s.pump.stage.isOver then none
      else some (r.update side { s with pump.stage := .aborted })
    | _ => none
  | .leave =>
    match r.phase with
    | .stopping first =>
      if r.isOver then some { r.letGo with reports := [], phase := .returned first } else none
    | _ => none

/-- Events that cannot happen are passed over. -/
def run (r : Relay) (events : List Event) : Relay :=
  events.foldl (fun r e => (r.step e).getD r) r

def send (r : Relay) (side : Side) (bytes : Bytes) : Relay :=
  r.run ([.write bytes, .read bytes.length, .pass bytes.length].map (.move side))

def ending : List Event := [.abort .client, .abort .backend, .leave]

def closeBy (r : Relay) (side : Side) : Relay :=
  r.run ([.close, .finish, .shut].map (.move side) ++ [.report side, .receive] ++ ending)

def cancelNow (r : Relay) : Relay := r.run ([.cancel, .stop] ++ ending)

end Relay

end Gateway
