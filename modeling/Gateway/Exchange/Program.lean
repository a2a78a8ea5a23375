import Gateway.Exchange.Context
import Gateway.Proxy.Error
import Gateway.Values.Shelf

/-! Handlers as programs that act on a context and may run the rest of their chain. -/

namespace Gateway

structure Observation where
  handler : String
  action : String
  result : Json
deriving Repr

/-- What lies outside the contexts: the clock, balancers by number, random draws, the number of
request ids made, what handlers reported, the handle on values that one of them kept, and the
requests that reached a target. -/
structure World where
  now : Binary64 := .zero
  balancers : List Balancer := []
  draws : Draws := {}
  ids : Nat := 0
  observations : List Observation := []
  kept : Option Nat := none
  sent : List Request := []
deriving Inhabited

/-- A handler of a chain was entered, left, or interrupted. -/
inductive Visit where
  | enter (i : Nat)
  | leave (i : Nat)
  | unwind (i : Nat)
deriving DecidableEq, Repr

/-- A request under way: its context, and the shelf with the values of all contexts and the handles
on them. -/
structure Exchange where
  context : Context := {}
  shelf : Shelf := Shelf.newContext {}
  world : World := {}
  events : List Event := []
  visits : List Visit := []
deriving Inhabited

/-- What a handler can do to its context, and to the world outside. -/
inductive Operation where
  | abort (status : Status)
  | abortWith (status : Status) (body : Json)
  | skip
  | setStatus (status : Status)
  | render (status : Status) (body : Render)
  | setHeader (name : HeaderName) (value : HeaderValue)
  | appendHeader (name : HeaderName) (value : HeaderValue)
  | setRequestHeader (name : HeaderName) (value : HeaderValue)
  | setUri (uri : Uri)
  | editRequest (f : Request → Request)
  | write (chunk : Bytes)
  | writeStream (bytes : Bytes)
  | clearBody
  | writeResponse (response : Response)
  | resetWriter
  | setValue (name : String) (value : Stored)
  | removeValue (name : String)
  | holdValues
  | setHeld (handle : Nat) (name : String) (value : Stored)
  | removeHeld (handle : Nat) (name : String)
  | dropHandle (handle : Nat)
  | recordError (report : Report)
  | takeBody
  | emit (event : Event)
  | outside (f : World → World)

namespace Exchange

def holder (x : Exchange) : Shelf.Holder := .context x.context.place

def values (x : Exchange) : Values := x.shelf.view x.holder

def mapShelf (x : Exchange) (f : Shelf → Shelf) : Exchange := { x with shelf := f x.shelf }

def mapContext (x : Exchange) (f : Context → Context) : Exchange :=
  { x with context := f x.context }

def update (x : Exchange) (f : Context → Context × List Event) : Exchange :=
  { x with context := (f x.context).1, events := x.events ++ (f x.context).2 }

def visit (x : Exchange) (v : Visit) : Exchange := { x with visits := x.visits ++ [v] }

/-- Handler `i` is entered; the one after it is the next. -/
def enter (x : Exchange) (i : Nat) : Exchange :=
  (x.mapContext fun c => { c with cursor := i + 1 }).visit (.enter i)

end Exchange

def Operation.apply (x : Exchange) : Operation → Exchange
  | abort s => x.mapContext (·.abort s)
  | abortWith s body => x.update (·.abortWith s body)
  | skip => x.mapContext (·.skip)
  | setStatus s => x.mapContext (·.setStatus s)
  | render s r => x.update (·.render s r)
  | setHeader n v => x.mapContext (·.mapWriter (·.setHeader n v))
  | appendHeader n v => x.mapContext (·.mapWriter (·.appendHeader n v))
  | setRequestHeader n v => x.mapContext (·.setRequestHeader n v)
  | setUri uri => x.mapContext (·.setUri uri)
  | editRequest f => x.mapContext fun c => { c with request := f c.request }
  | write chunk => x.mapContext (·.mapWriter (·.write chunk))
  | writeStream bytes => x.mapContext (·.mapWriter (·.writeStream bytes))
  | clearBody => x.mapContext (·.mapWriter (·.clearBody))
  | writeResponse r => x.mapContext (·.mapWriter (·.writeResponse r))
  | resetWriter => x.mapContext (·.mapWriter fun _ => {})
  | setValue n v => x.mapShelf (·.set x.holder n v)
  | removeValue n => x.mapShelf (·.erase x.holder n)
  | holdValues => x.mapShelf (·.share x.holder)
  | setHeld i n v => x.mapShelf (·.set (.handle i) n v)
  | removeHeld i n => x.mapShelf (·.erase (.handle i) n)
  | dropHandle i => x.mapShelf (·.drop i)
  | recordError report => x.mapContext (·.recordError report)
  | takeBody => x.mapContext (·.takeBody)
  | emit e => { x with events := x.events ++ [e] }
  | outside f => { x with world := f x.world }

/-- The panic that an operation ends in, with the state as far as it was changed. -/
def Operation.panic? : Operation → Option Payload
  | render _ body => if body.mistyped then some (.text HeaderValue.staticRefusal) else none
  | _ => none

/-- What a handler does. `consult` goes on as the state requires, `next` runs the rest of the chain,
and `attempt` also does, but goes on with `rescue` when that is interrupted: it catches a panic, or it
has waited long enough. What it lets pass it raises again. -/
inductive Program where
  | done
  | interrupt (why : Interruption)
  | act (op : Operation) (rest : Program)
  | consult (k : Exchange → Program)
  | next (rest : Program)
  | attempt (rescue : Interruption → Program) (rest : Program)

abbrev Program.panic (p : Payload) : Program := .interrupt (.panic p)

/-- What is left to do after an operation. -/
def Operation.after (op : Operation) (rest : Program) : Program := op.panic?.elim rest .panic

structure Handler where
  name : String
  program : Program

abbrev Chain := List Handler

/-- How a program or a chain ends, and the state that it leaves. -/
inductive Ending where
  | finished (x : Exchange)
  | interrupted (x : Exchange) (why : Interruption)

def Ending.exchange : Ending → Exchange
  | finished x => x
  | interrupted x _ => x

def Program.run (advance : Exchange → Ending) : Program → Exchange → Ending
  | done, x => .finished x
  | interrupt why, x => .interrupted x why
  | act op rest, x =>
    match op.panic? with
    | none => rest.run advance (op.apply x)
    | some p => .interrupted (op.apply x) (.panic p)
  | consult k, x => (k x).run advance x
  | next rest, x =>
    match advance x with
    | .finished x => rest.run advance x
    | .interrupted x why => .interrupted x why
  | attempt rescue rest, x =>
    match advance x with
    | .finished x => rest.run advance x
    | .interrupted x why => (rescue why).run advance x

namespace Chain

/-- Handlers run from the cursor on until the chain ends or is aborted; `left` bounds their
number. A handler that runs the rest of the chain moves the cursor on. -/
def advance (chain : Chain) : (left : Nat) → Exchange → Ending
  | 0, x => .finished x
  | left + 1, x =>
    if x.context.aborted then .finished x
    else
      let i := x.context.cursor
      match chain[i]? with
      | none => .finished x
      | some h =>
        match h.program.run (advance chain left) (x.enter i) with
        | .interrupted x why => .interrupted (x.visit (.unwind i)) why
        | .finished x => advance chain left (x.visit (.leave i))

def next (chain : Chain) (x : Exchange) : Ending :=
  advance chain (chain.length - x.context.cursor) x

def name (chain : Chain) : String := (chain.getLast?.map (·.name)).getD ""

end Chain

end Gateway
