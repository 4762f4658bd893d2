import ToolPipeline.Json.Shape

/-! Requests for a run and the results of runs, with their JSON forms. Written forms list the
fields in the order of the structures; readers accept any order. -/

namespace ToolPipeline

abbrev Payload := Json.Object

structure Request where
  pluginId : String
  tools : List String
  payload : Payload

structure StepOutput where
  tool : String
  output : Payload

structure RunResult where
  result : Payload
  steps : List StepOutput

namespace Json

def textField (o : Object) (key : String) : String := ((o.get? key).bind Value.asString?).getD ""

def objectField (o : Object) (key : String) : Object :=
  ((o.get? key).bind Value.asObject?).getD .empty

def listField (o : Object) (key : String) : List Value :=
  ((o.get? key).bind Value.items?).getD []

def textsField (o : Object) (key : String) : List String :=
  (listField o key).filterMap Value.asString?

def textList (texts : List String) : Json := .array (texts.map .string)

def ofObject (o : Object) : Json := .object o.members

end Json

open Json

namespace Request

def shape : Shape :=
  .record "PipelineRequest" <|
    .cons "plugin_id" .string (some (.string "")) <|
    .cons "tools" (.list .string) (some (.array [])) <|
    .cons "payload" .object (some Object.empty.toValue) .nil

def ofValue (v : Value) : Request :=
  let o := v.asObject?.getD .empty
  ⟨textField o "plugin_id", textsField o "tools", objectField o "payload"⟩

def toJson (r : Request) : Json :=
  .object [("plugin_id", .string r.pluginId), ("tools", textList r.tools),
    ("payload", ofObject r.payload)]

def parse (s : String) : Except Failure Request := (shape.parse s).map ofValue

end Request

namespace StepOutput

def shape : Shape :=
  .record "PipelineStep" <| .cons "tool" .string none <| .cons "output" .object none .nil

def ofValue (v : Value) : StepOutput :=
  let o := v.asObject?.getD .empty
  ⟨textField o "tool", objectField o "output"⟩

def toJson (s : StepOutput) : Json :=
  .object [("tool", .string s.tool), ("output", ofObject s.output)]

def parse (s : String) : Except Failure StepOutput := (shape.parse s).map ofValue

end StepOutput

namespace RunResult

def shape : Shape :=
  .record "PipelineResult" <|
    .cons "result" .object none <| .cons "steps" (.list StepOutput.shape) none .nil

def ofValue (v : Value) : RunResult :=
  let o := v.asObject?.getD .empty
  ⟨objectField o "result", (listField o "steps").map StepOutput.ofValue⟩

def toJson (r : RunResult) : Json :=
  .object [("result", ofObject r.result), ("steps", .array (r.steps.map StepOutput.toJson))]

def parse (s : String) : Except Failure RunResult := (shape.parse s).map ofValue

end RunResult

end ToolPipeline
