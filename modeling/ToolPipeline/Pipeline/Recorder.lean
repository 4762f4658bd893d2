import ToolPipeline.Tool.Basic
import ToolPipeline.Log.Event

/-! Recorders watch the steps of runs. They are told the names of a step and of the members of its
output, never a value of the payload. -/

namespace ToolPipeline

/-- A tool that succeeded, and the keys of its output in increasing order. -/
structure StepRecord where
  runId : String
  pluginId : String
  tool : String
  step : Nat
  outputKeys : List String
  deriving DecidableEq, Repr

/-- What a recorder does with a record: it may log, and it may break down. -/
structure Reaction where
  events : List Log.Event
  panic : Option Panic

/-- `react` is given the number of records offered to the recorder before. -/
structure Recorder where
  react : Nat → StepRecord → Reaction
  /-- Whether records are kept in memory. -/
  keeps : Bool

namespace Recorder

def memory : Recorder := ⟨fun _ _ => ⟨[], none⟩, true⟩

def none : Recorder := ⟨fun _ _ => ⟨[], Option.none⟩, false⟩

def logged (r : StepRecord) : Log.Event :=
  ⟨.info, "vista_pipeline::recorder", "pipeline step completed",
    [("run_id", .text r.runId), ("plugin_id", .text r.pluginId), ("tool_name", .text r.tool),
      ("step", .nat r.step), ("output_keys", .text (",".intercalate r.outputKeys))]⟩

def log : Recorder := ⟨fun _ r => ⟨[logged r], Option.none⟩, false⟩

def brokeDown (r : StepRecord) (p : Panic) : Log.Event :=
  ⟨.warn, "vista_pipeline::recorder", "step recorder panicked",
    [("run_id", .text r.runId), ("tool_name", .text r.tool), ("step", .nat r.step),
      ("reason", .text p.message)]⟩

end Recorder

end ToolPipeline
