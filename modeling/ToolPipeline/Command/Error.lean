import ToolPipeline.Command.Arguments
import ToolPipeline.Pipeline.Error
import ToolPipeline.Settings.Load

/-! Why a command fails, and how that is shown. -/

namespace ToolPipeline

inductive CommandError where
  /-- The path is there if one was given. -/
  | settings (path : Option String) (e : SettingsError)
  | payloadNotJson (f : Json.Failure)
  | payloadNotObject (found : Json.Kind)
  | payloadUnreadable (path : String) (f : FileFault)
  | pipeline (e : PipelineError)
  | workerFailed (message : String)
  | notBound (reason : String)

namespace CommandError

def message : CommandError → String
  | .settings none _ => "Failed to load settings"
  | .settings (some path) _ => "Failed to load settings from " ++ path
  | .payloadNotJson _ => "Payload is not valid JSON"
  | .payloadNotObject found => "Payload must be a JSON object, got " ++ found.name
  | .payloadUnreadable path _ => "Failed to read payload file " ++ path
  | .pipeline e => e.message ++ " (" ++ e.code ++ ")"
  | .workerFailed _ => "Pipeline worker failed"
  | .notBound _ => "Failed to bind server"

def cause? : CommandError → Option String
  | .settings _ e => some e.message
  | .payloadNotJson f => some f.message
  | .payloadUnreadable _ f => some f.message
  | .workerFailed m => some m
  | .notBound reason => some reason
  | .payloadNotObject _ | .pipeline _ => none

def indented (s : String) : String :=
  String.ofList <|
    "    ".toList ++ s.toList.flatMap fun c => if c = '\n' then "\n    ".toList else [c]

def report (e : CommandError) : String :=
  "Error: " ++ e.message ++ match e.cause? with
    | some cause => "\n\nCaused by:\n" ++ indented cause
    | none => ""

end CommandError

end ToolPipeline
