import ToolPipeline.Pipeline.Request

/-! Messages on a socket. An inbound text is a frame, a request with an id of the client's choice,
or it is refused with a reply that says why; every reply carries the id of its frame. -/

namespace ToolPipeline

open Json

structure Frame where
  frameId : String
  request : Request

/-- Why an inbound text is no frame, in the order of the checks. -/
inductive Refusal where
  | invalidJson (f : Failure)
  | notObject
  | missingType
  | unknownType (kind : String)
  | invalidShape (m : Mismatch)
  | emptyFrameId
  | emptyTools

def Refusal.message : Refusal → String
  | .invalidJson f => "invalid JSON: " ++ f.message
  | .notObject => "frame must be a JSON object"
  | .missingType => "missing message type"
  | .unknownType kind => "unknown message type: " ++ kind
  | .invalidShape m => "invalid frame: " ++ m.message
  | .emptyFrameId => "frame_id must not be empty"
  | .emptyTools => "tools must be a non-empty list of tool names"

/-- What is sent back for a frame. Failures of the pipeline have a code. -/
inductive Reply where
  | result (frameId : String) (payload : Payload)
  | error (frameId message : String) (code : Option String)

namespace Reply

def toJson : Reply → Json
  | .result frameId payload => .object [("frame_id", .string frameId), ("result", ofObject payload)]
  | .error frameId message code =>
    .object <| [("type", .string "error"), ("message", .string message),
      ("frame_id", .string frameId)] ++ (code.toList.map fun c => ("code", .string c))

def text (r : Reply) : String := r.toJson.compact

end Reply

namespace Frame

/-- The fields of a frame that are not part of its payload. -/
def shape : Shape :=
  .record "InboundFrame" <|
    .cons "frame_id" .string none <|
    .cons "plugin_id" .string (some (.string "")) <|
    .cons "tools" (.list .string) (some (.array [])) .nil

def ofMembers (members : Object) : Except (String × Refusal) Frame :=
  let named := textField members "frame_id"
  match (members.get? "type").bind Value.asString? with
  | none => .error (named, .missingType)
  | some kind =>
    if kind ≠ "frame" then .error (named, .unknownType kind)
    else
      match shape.check members.toValue with
      | .error m => .error (named, .invalidShape m.mismatch)
      | .ok v =>
        let fields := v.asObject?.getD .empty
        let frameId := textField fields "frame_id"
        let tools := textsField fields "tools"
        if frameId = "" then .error ("", .emptyFrameId)
        else if tools = [] then .error (frameId, .emptyTools)
        else
          let payload := ((members.erase "type").erase "plugin_id").erase "tools"
          .ok ⟨frameId, ⟨textField fields "plugin_id", tools, payload⟩⟩

/-- Reads an inbound text. A refusal comes with the id of the frame, as far as it is known. -/
def parse (s : String) : Except (String × Refusal) Frame :=
  match Json.parse s with
  | .error f => .error ("", .invalidJson f)
  | .ok v =>
    match v.asObject? with
    | none => .error ("", .notObject)
    | some members => ofMembers members

def refusalReply (r : String × Refusal) : Reply := .error r.1 r.2.message none

end Frame

end ToolPipeline
