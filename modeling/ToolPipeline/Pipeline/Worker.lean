import ToolPipeline.Text.Quoted
import ToolPipeline.Tool.Basic

/-! Runs are handed to workers. A worker breaks down when its run does. -/

namespace ToolPipeline.Worker

/-- How a worker broke down; workers are numbered. -/
def failure (worker : String) (p : Panic) : String :=
  "task " ++ worker ++ " panicked" ++
    match p with
    | .text m => " with message " ++ Text.quote m
    | .other => ""

end ToolPipeline.Worker
