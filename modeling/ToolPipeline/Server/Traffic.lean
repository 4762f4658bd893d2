import ToolPipeline.Server.Connection
import ToolPipeline.Server.Shutdown

/-! All that goes on in a server at once: connections, requests for runs, and the shutdown. They
share the time and the tokens, and they move on in any order. -/

namespace ToolPipeline

inductive Handler where
  | waiting
  | answered (r : Http.Response)
  /-- The client gave up before there was an answer. -/
  | dropped

/-- A request whose run was handed to a worker. The worker goes on with the run even if the handler
is dropped. -/
structure RestRun where
  number : Nat
  job : Job
  worker : Progress
  handler : Handler

/-- `issued` counts the tokens given out, one for every connection and for every run of a request,
and `offered` counts the records that the recorder has been offered. -/
structure Traffic where
  world : World
  issued : Nat
  connections : List Connection
  requests : List RestRun
  offered : Nat

/-- What can happen next. Connections and requests are named by their numbers. -/
inductive TrafficAction where
  | connect
  | act (connection : Nat) (a : ConnectionAction)
  | post (r : Http.Request)
  | work (request : Nat)
  | answer (request : Nat)
  | drop (request : Nat)
  | shutdown
  | tick (ms : Nat)

namespace RestRun

def start (config : ServerConfig) (token : Token) (n now : Nat) (r : Request) : RestRun :=
  ⟨n, ⟨"request " ++ toString n, r, Rest.options config token now, now⟩, .fresh, .waiting⟩

def answer (r : RestRun) : Option RestRun :=
  match r.handler, r.worker.ended? with
  | .waiting, some ended =>
    some { r with handler := .answered (Rest.respond (toString r.number) ended.outcome) }
  | _, _ => none

def drop (r : RestRun) : Option RestRun :=
  match r.handler with
  | .waiting => some { r with handler := .dropped }
  | _ => none

end RestRun

namespace Traffic

def start (w : World) : Traffic := ⟨w, 0, [], [], 0⟩

def nextToken (t : Traffic) : Token := Token.root.child t.issued

/-- A client connects. A connection that cannot be opened is gone at once. -/
def connect (config : ServerConfig) (t : Traffic) : Traffic :=
  { t with
    issued := t.issued + 1
    connections := t.connections ++ (Connection.opened config t.nextToken).toOption.toList }

/-- How many records the workers of a connection have offered in one of its steps. -/
def connectionOffers (before after : Connection) : Nat :=
  (before.tasks.zip after.tasks).foldl (fun n (b, a) =>
    n + (b.worker.getD .fresh).newOffers (a.worker.getD .fresh)) 0

def act (server : Server) (t : Traffic) (i : Nat) (a : ConnectionAction) : Option Traffic := do
  let before ← t.connections[i]?
  let (after, world) ← before.step? server t.offered t.world a
  return { t with
    world
    connections := t.connections.set i after
    offered := t.offered + connectionOffers before after }

/-- A request over HTTP arrives. Nothing is run for a body that is refused. -/
def post (config : ServerConfig) (t : Traffic) (r : Http.Request) : Traffic :=
  match Rest.readBody config.maxMessageSize.toNat r with
  | .error _ => t
  | .ok request =>
    { t with
      issued := t.issued + 1
      requests := t.requests ++ [.start config t.nextToken t.issued t.world.now request] }

def setRequest (t : Traffic) (i : Nat) (r : RestRun) : Traffic :=
  { t with requests := t.requests.set i r }

def work (e : Engine) (t : Traffic) (i : Nat) : Option Traffic := do
  let before ← t.requests[i]?
  let (worker, world) ← before.worker.step? e before.job t.offered t.world
  return { t.setRequest i { before with worker } with
    world, offered := t.offered + before.worker.newOffers worker }

def answer (t : Traffic) (i : Nat) : Option Traffic :=
  ((t.requests[i]?).bind RestRun.answer).map (t.setRequest i)

/-- The client of a request gives up, which cancels the token of its run. -/
def drop (t : Traffic) (i : Nat) : Option Traffic := do
  let r ← (← t.requests[i]?).drop
  let t := t.setRequest i r
  return { t with world.fired := r.job.options.cancel.toList ++ t.world.fired }

def shutdown (t : Traffic) : Traffic :=
  { t with world.fired := Shutdown.initiate t.world.fired }

def tick (t : Traffic) (ms : Nat) : Traffic := { t with world.now := t.world.now + ms }

def step? (server : Server) (t : Traffic) : TrafficAction → Option Traffic
  | .connect => some (t.connect server.config)
  | .act i a => t.act server i a
  | .post r => some (t.post server.config r)
  | .work i => t.work server.engine i
  | .answer i => t.answer i
  | .drop i => t.drop i
  | .shutdown => some t.shutdown
  | .tick ms => some (t.tick ms)

inductive Reachable (server : Server) (w : World) : Traffic → Prop where
  | start : Reachable server w (start w)
  | step {t u : Traffic} (a : TrafficAction) :
      Reachable server w t → t.step? server a = some u → Reachable server w u

end Traffic

end ToolPipeline
