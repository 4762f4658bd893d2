import ToolPipeline.Pipeline.Error
import ToolPipeline.Tool.Registry

/-! The checks that a request has to pass before any tool runs. -/

namespace ToolPipeline

def firstUnknown (p : Plugin) : (index : Nat) → List String → Option (String × Nat)
  | _, [] => none
  | index, tool :: rest =>
    if p.hasTool tool then firstUnknown p (index + 1) rest else some (tool, index)

def validate (r : Registry) (pluginId : String) (tools : List String) :
    Except ValidationError Plugin :=
  if pluginId = "" then .error .emptyPluginId
  else
    match r.lookup pluginId with
    | none => .error (.unknownPlugin pluginId)
    | some p =>
      if tools = [] then .error .emptyToolList
      else
        match firstUnknown p 0 tools with
        | some (tool, index) => .error (.unknownTool pluginId tool index)
        | none => .ok p

end ToolPipeline
