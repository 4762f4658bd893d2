import ToolPipeline.Command.Setup
import ToolPipeline.Pipeline.Engine
import ToolPipeline.Pipeline.Worker
import ToolPipeline.Server.Config

/-! A single run, asked for on the command line. -/

namespace ToolPipeline

open Json

namespace PayloadSource

def parse (s : String) : Except CommandError Payload :=
  match Json.parse s with
  | .error f => .error (.payloadNotJson f)
  | .ok v =>
    match v.asObject? with
    | none => .error (.payloadNotObject v.kind)
    | some o => .ok o

def load (source : PayloadSource) (around : Surroundings) : Except CommandError Payload :=
  match source with
  | .text s => parse s
  | .file path =>
    match around.read path with
    | .error f => .error (.payloadUnreadable path f)
    | .ok octets =>
      match textOfOctets? octets with
      | none => .error (.payloadUnreadable path (.unreadable "stream did not contain valid UTF-8"))
      | some content => parse content

end PayloadSource

structure SingleRun where
  result : Except CommandError RunResult
  occurrences : List Log.Occurrence

namespace SingleRun

def settle : Outcome → Except CommandError RunResult
  | .ok r => .ok r
  | .error e => .error (.pipeline e)
  | .panicked p => .error (.workerFailed (Worker.failure "N" p))

def perform (e : Engine) (limit : Option UInt64) (runId : String) (r : Request) (w : World) :
    SingleRun :=
  let options := Options.default.withTimeout w.now (limit.map UInt64.toNat)
  let ended := (e.run runId r options 0 w).1
  ⟨settle ended.outcome, Log.inside (Engine.span runId r) (Trace.events ended.trace)⟩

end SingleRun

namespace Setup

def run (s : Setup) (around : Surroundings) (runId : String) (w : World) (plugin : String)
    (tools : List String) (source : PayloadSource) (resultOnly : Bool) : Report :=
  match source.load around with
  | .error e => s.failure e []
  | .ok payload =>
    let request : Request := ⟨plugin, tools, payload⟩
    let limit := (ServerConfig.ofSettings s.settings).restTimeout
    let single := SingleRun.perform (Engine.new s.registry) limit runId request w
    match single.result with
    | .error e => s.failure e single.occurrences
    | .ok r =>
      let printed := if resultOnly then ofObject r.result else r.toJson
      s.success (printed.pretty ++ "\n") single.occurrences

end Setup

end ToolPipeline
