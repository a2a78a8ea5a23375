import Gateway.Router.Basic

/-! Serving a request: finding its route, running the chain, and the answer when there is none. -/

namespace Gateway

namespace Context

def setChain (c : Context) (chain : Chain) : Context :=
  { c with handlerName := chain.name, cursor := 0 }

def setRoute (c : Context) (chain : Chain) (params : Params) (pattern : String) : Context :=
  { c.setChain chain with params, fullPath := c.fullPath ++ pattern }

def prepare (c : Context) (request : Request) (cancelled : Bool) : Context :=
  { c with request, cancelled }

end Context

namespace Router

/-- What serves a request: a route, or the chain for the lack of one with its status. -/
inductive Choice where
  | route (chain : Chain) (pattern : String) (params : Params)
  | fallback (code : Status) (chain : Chain)

def Choice.chain : Choice → Chain
  | route chain .. => chain
  | fallback _ chain => chain

def Choice.start : Choice → Context → Context
  | route chain pattern params, c => c.setRoute chain params pattern
  | fallback code chain, c => (c.setChain chain).setStatus code

def lookupPath (r : Router) (request : Request) : String :=
  if r.options.removeExtraSlash then Path.clean request.uri.path else request.uri.path

def choose (r : Router) (m : Method) (path : String) : Choice :=
  match (r.tables.get? m).bind (·.find? path) with
  | some (chain, pattern, hit) => .route chain pattern hit.params
  | none =>
    if r.options.handleMethodNotAllowed && r.tables.servesOther m path then
      .fallback .methodNotAllowed r.fallbacks.noMethod
    else .fallback .notFound r.fallbacks.notFound

/-- The standard body, unless there is a body or the status was changed. -/
def completeFallback (code : Status) (x : Exchange) : Exchange :=
  if x.context.writer.written then x
  else if x.context.writer.status = code then
    x.update (·.render code (.json (StatusBody.ofStatus code).toJson))
  else x

def Choice.complete : Choice → Ending → Ending
  | fallback code _, .finished x => .finished (completeFallback code x)
  | _, e => e

def serve (x : Exchange) (choice : Choice) : Ending :=
  choice.complete (choice.chain.next (x.mapContext choice.start))

/-- The answer to a request or what kept it from being answered, and what else became of the router,
the world and the log. -/
structure Dispatched where
  router : Router
  world : World
  outcome : Except Interruption Response
  events : List Event
  visits : List Visit

/-- The context goes back to the pool, whatever state it is in. -/
def finish (r : Router) (e : Ending) : Dispatched :=
  let x := e.exchange
  let (outcome, context) : Except Interruption Response × Context := match e with
    | .finished x =>
      let (response, writer) := x.context.writer.take
      (.ok response, { x.context with writer })
    | .interrupted x why => (.error why, x.context)
  { router := { r with pool := r.pool.release context, shelf := x.shelf }
    world := x.world
    outcome
    events := x.events
    visits := x.visits }

/-- The shelf with a place for the context that the next request gets. -/
def shelfWithPlace (r : Router) : Shelf :=
  if r.pool.idle.isEmpty then r.shelf.newContext else r.shelf

/-- A clean context from the pool, and a new one when none is idle. Its values are cleaned on the
shelf. -/
def checkout (r : Router) : Context × Router :=
  let (context, pool) :=
    r.pool.acquire (fun _ => { place := r.shelf.contexts.length }) Context.reset
  (context, { r with pool, shelf := r.shelfWithPlace.reset context.place })

def opening (r : Router) (w : World) (request : Request) : Exchange where
  context := r.checkout.1.prepare request r.cancelled
  shelf := r.checkout.2.shelf
  world := w

def dispatch (r : Router) (w : World) (request : Request) : Dispatched :=
  finish r.checkout.2
    (serve (r.opening w request) (r.choose request.method (r.lookupPath request)))

end Router

end Gateway
