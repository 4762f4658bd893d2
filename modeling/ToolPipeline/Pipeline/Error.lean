import ToolPipeline.Tool.Basic

/-! Why a run ends without a result. -/

namespace ToolPipeline

inductive ValidationError where
  | emptyPluginId
  | unknownPlugin (id : String)
  | emptyToolList
  | unknownTool (pluginId tool : String) (index : Nat)
  deriving DecidableEq, Repr

def ValidationError.message : ValidationError → String
  | .emptyPluginId => "plugin_id must not be empty"
  | .unknownPlugin id => "unknown plugin: " ++ id
  | .emptyToolList => "tools must be a non-empty list of tool names"
  | .unknownTool pluginId tool index =>
    "plugin '" ++ pluginId ++ "' has no tool '" ++ tool ++ "' (position " ++ toString index ++ ")"

inductive CancelReason where
  | signal
  | deadline
  deriving DecidableEq, Repr

def CancelReason.message : CancelReason → String
  | .signal => "cancelled by caller"
  | .deadline => "deadline exceeded"

inductive PipelineError where
  | invalid (e : ValidationError)
  | toolFailed (pluginId tool : String) (step : Nat) (source : ToolError)
  /-- A tool returned something other than an object. -/
  | notAnObject (pluginId tool : String) (step : Nat) (found : Json.Kind)
  | cancelled (step : Nat) (reason : CancelReason)
  deriving DecidableEq, Repr

namespace PipelineError

def message : PipelineError → String
  | .invalid e => "invalid pipeline: " ++ e.message
  | .toolFailed _ tool step source =>
    "tool '" ++ tool ++ "' failed at step " ++ toString step ++ ": " ++ source.message
  | .notAnObject _ tool step found =>
    "tool '" ++ tool ++ "' at step " ++ toString step ++ " returned " ++ found.name
      ++ ", expected an object"
  | .cancelled step reason =>
    "pipeline stopped before step " ++ toString step ++ ": " ++ reason.message

def code : PipelineError → String
  | .invalid _ => "INVALID_PIPELINE"
  | .toolFailed .. => "TOOL_FAILED"
  | .notAnObject .. => "TOOL_CONTRACT_VIOLATION"
  | .cancelled _ .deadline => "PIPELINE_TIMEOUT"
  | .cancelled _ .signal => "PIPELINE_CANCELLED"

def isClientError : PipelineError → Bool
  | .invalid _ => true
  | _ => false

def toolError? : PipelineError → Option ToolError
  | .toolFailed _ _ _ source => some source
  | _ => none

/-- The messages of the errors that caused this one, the nearest first. -/
def causes : PipelineError → List String
  | .invalid e => [e.message]
  | .toolFailed _ _ _ source => source.message :: source.causes
  | _ => []

end PipelineError

end ToolPipeline
