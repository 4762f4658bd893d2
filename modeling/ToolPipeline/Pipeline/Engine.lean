import ToolPipeline.Pipeline.Run
import ToolPipeline.Pipeline.Validation

/-! The engine validates a request and runs it. -/

namespace ToolPipeline

structure Engine where
  registry : Registry
  recorder : Recorder

namespace Engine

def new (registry : Registry) : Engine := ⟨registry, .log⟩

def withRecorder (e : Engine) (recorder : Recorder) : Engine := { e with recorder }

def context (e : Engine) (runId : String) (plugin : Plugin) (options : Options) : RunContext :=
  ⟨runId, plugin, options, e.recorder⟩

def span (runId : String) (request : Request) : Log.Span :=
  ⟨"pipeline.run", .info, "vista_pipeline::engine",
    [("run_id", .text runId), ("plugin_id", .text request.pluginId),
      ("tools", .nat request.tools.length)]⟩

def reject (r : Run) (error : ValidationError) : Ended :=
  r.endIn .rejected fun r => (r.note (.rejected error)).finish (.error (.invalid error))

def close (elapsed : Nat) (ended : Ended) : Ended :=
  match ended.outcome with
  | .ok r => { ended with trace := ended.trace ++ [.completed r.steps.length elapsed] }
  | .error e => { ended with trace := ended.trace ++ [.failed e elapsed] }
  | .panicked _ => ended

/-- Validates and runs a request. `offered` counts the records of earlier runs. -/
def run (e : Engine) (runId : String) (request : Request) (options : Options) (offered : Nat)
    (w : World) : Ended × World :=
  let r := Run.start request.payload offered
  match validate e.registry request.pluginId request.tools with
  | .error error => (reject r error, w)
  | .ok plugin =>
    let (ended, after) := Run.execute (e.context runId plugin options) request.tools r w
    (close (after.now - w.now) ended, after)

end Engine

/-- What the runs of an engine have left behind: the world, how many records its recorder has been
offered, and those that it has kept. -/
structure Trail where
  world : World
  offered : Nat
  kept : List StepRecord

namespace Trail

def start (w : World) : Trail := ⟨w, 0, []⟩

end Trail

def Engine.keptOf (e : Engine) (ended : Ended) : List StepRecord :=
  if e.recorder.keeps then ended.trace.records else []

def Engine.runNext (e : Engine) (runId : String) (request : Request) (options : Options)
    (t : Trail) : Ended × Trail :=
  let (ended, world) := e.run runId request options t.offered t.world
  (ended, ⟨world, ended.offered, t.kept ++ e.keptOf ended⟩)

end ToolPipeline
