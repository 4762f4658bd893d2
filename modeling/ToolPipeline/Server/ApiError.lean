import ToolPipeline.Pipeline.Error
import ToolPipeline.Http.Message
import ToolPipeline.Log.Event

/-! Errors as they are answered over HTTP. -/

namespace ToolPipeline

structure ApiError where
  status : Nat
  code : String
  message : String
  deriving DecidableEq, Repr

namespace ApiError

def internal (message : String) : ApiError := ⟨500, "INTERNAL", message⟩

def statusOf : PipelineError → Nat
  | .invalid _ => 400
  | .toolFailed .. => 500
  | .notAnObject .. => 500
  | .cancelled _ .deadline => 504
  | .cancelled _ .signal => 503

def ofPipeline (e : PipelineError) : ApiError := ⟨statusOf e, e.code, e.message⟩

def body (e : ApiError) : Json :=
  .object [("error", .object [("code", .string e.code), ("message", .string e.message)])]

def response (e : ApiError) : Http.Response := .json e.status e.body

/-- Only failures on the side of the server are logged. -/
def events (e : ApiError) : List Log.Event :=
  if 500 ≤ e.status then
    [⟨.error, "vista_server::error", "request failed",
      [("code", .text e.code), ("status", .nat e.status), ("message", .text e.message)]⟩]
  else []

end ApiError

end ToolPipeline
