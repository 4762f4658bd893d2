import ToolPipeline.Tool.Plugin

/-! Tools for trying out pipelines. -/

namespace ToolPipeline.DebugTools

open Json

/-- Adds a name at the end of the payload's `trace`, which is made if there is none. -/
def appendTrace (name : String) (payload : Payload) : Except ToolError Object :=
  match payload.get? "trace" with
  | none => .ok (payload.insert "trace" (.array [.string name]))
  | some v =>
    match v.items? with
    | none => .error (.invalidInput "trace must be an array")
    | some items => .ok (payload.insert "trace" (.array (items ++ [.string name])))

def tools : List (String × Tool) := [
  ("echo", .pure "Return the payload unchanged" .ok),
  ("trace", .pure "Append the tool name to the `trace` array" (appendTrace "trace")),
  ("fail", .pure "Always fail" fun _ => .error (.failed "debug.fail always fails"))]

def plugin : Plugin := .ofTools "debug" tools

end ToolPipeline.DebugTools
