import ToolPipeline.Server.Health
import ToolPipeline.Server.Rest
import ToolPipeline.Server.Router
import ToolPipeline.Server.Shutdown

/-! A server that is up, with what has happened since it was started: the requests that have come,
the records of their runs, and the time. -/

namespace ToolPipeline

open Json

/-- `requests` counts the requests for runs, `kept` holds the records in memory with their times,
`offered` counts all records, and `occurrences` is what has happened. The server was started at
time zero. -/
structure Session where
  server : Server
  world : World
  requests : Nat
  offered : Nat
  kept : List (Nat × StepRecord)
  connections : Nat
  occurrences : List Log.Occurrence

/-- A response, or none if the client gave up before there was one. -/
abbrev Reception := Option Http.Response

namespace Session

def start (server : Server) (world : World) : Session := ⟨server, world, 0, 0, [], 0, []⟩

def isShuttingDown (s : Session) : Bool := Shutdown.isShuttingDown s.world.cancelled

def shutdown (s : Session) : Session :=
  { s with world := { s.world with fired := Shutdown.initiate s.world.fired } }

def wait (s : Session) (ms : Nat) : Session :=
  { s with world := { s.world with now := s.world.now + ms } }

def health (s : Session) : Health :=
  ⟨s.world.now / 1000, s.connections, s.server.engine.registry.ids.length, s.isShuttingDown⟩

def pluginsJson (s : Session) : Json :=
  .object [("plugins", s.server.engine.registry.toJson)]

def attempt (s : Session) (names : RunNames) : Attempt :=
  ⟨Token.root.child s.requests, names, s.offered⟩

def absorb (s : Session) (began : Nat) (e : Exchange) : Session :=
  let s := { s with occurrences := s.occurrences ++ e.occurrences }
  match e.ended with
  | none => { s with world := e.world }
  | some ended =>
    { s with
      world := e.world
      requests := s.requests + 1
      offered := ended.offered
      kept := if s.server.engine.recorder.keeps then s.kept ++ Trace.timedRecords began ended.trace
        else s.kept }

/-- Runs a request for a run of which the client waits for at most `patience` milliseconds. Once
it has given up, the run's token is cancelled; the run goes on until it asks for it. -/
def post (s : Session) (names : RunNames) (patience : Option Nat) (r : Http.Request) :
    Reception × Session :=
  let began := s.world.now
  let a := s.attempt names
  match patience with
  | none =>
    let e := Rest.post s.server a r s.world
    (some e.response, s.absorb began e)
  | some ms =>
    let moment := began + ms
    let e := Rest.post s.server a r { s.world with due := (moment, a.token) :: s.world.due }
    let world := { e.world with due := s.world.due }
    if e.world.now ≤ moment then (some e.response, s.absorb began { e with world })
    else
      let world := { world with now := moment, fired := a.token :: world.fired }
      (none, s.absorb began { e with world })

def handle (s : Session) (names : RunNames) (patience : Option Nat) (route : Route)
    (r : Http.Request) : Reception × Session :=
  match route with
  | .pipeline => s.post names patience r
  | .health => (some (.json 200 s.health.toJson), s)
  | .plugins => (some (.json 200 s.pluginsJson), s)
  | .socket =>
    match handshake r false with
    | .error f => (some f.response, s)
    | .ok () => (some HandshakeFault.notUpgradable.response, s)

def request (s : Session) (names : RunNames) (patience : Option Nat) (r : Http.Request) :
    Reception × Session :=
  match Dispatch.of r.method r.path with
  | .handled route =>
    let (response, s) := s.handle names patience route r
    (response.map (Router.finish r.method), s)
  | d => (Router.immediate? d, s)

/-- Waits until there are `least` records, but no longer than `longest` milliseconds. -/
def awaitRecords (s : Session) (least longest : Nat) : Session :=
  let soon := s.kept.filter fun k => k.1 ≤ s.world.now
  if least ≤ soon.length then s
  else
    let moment := match (s.kept.map Prod.fst).mergeSort[least - 1]? with
      | some moment => min moment (s.world.now + longest)
      | none => s.world.now + longest
    { s with world := { s.world with now := moment } }

def records (s : Session) : List StepRecord :=
  (s.kept.filter fun k => k.1 ≤ s.world.now).map Prod.snd

end Session

end ToolPipeline
