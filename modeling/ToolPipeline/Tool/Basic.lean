import ToolPipeline.Pipeline.Request
import ToolPipeline.Pipeline.Token

/-! Tools, and the errors that they report. A tool call is described by how it ended, how long it
took and which tokens it cancelled meanwhile. -/

namespace ToolPipeline

open Json

inductive ToolError where
  | invalidInput (message : String)
  | failed (message : String)
  | unknownTool (name : String)
  /-- An error from elsewhere, with the messages of the errors that caused it. -/
  | foreign (message : String) (causes : List String)
  deriving DecidableEq, Repr

namespace ToolError

def message : ToolError → String
  | .invalidInput m => "invalid input: " ++ m
  | .failed m => m
  | .unknownTool name => "unknown tool: " ++ name
  | .foreign m _ => m

/-- The messages of the errors that caused this one, the nearest first. -/
def causes : ToolError → List String
  | .foreign _ causes => causes
  | _ => []

end ToolError

/-- What a tool or a recorder broke down with: a text, or something that has none. -/
inductive Panic where
  | text (message : String)
  | other
  deriving DecidableEq, Repr

def Panic.message : Panic → String
  | .text m => m
  | .other => "non-string panic payload"

inductive Ending where
  | returned (v : Value)
  | failed (e : ToolError)
  | panicked (p : Panic)

/-- When a tool is called: the time in milliseconds, the same time as the wall clock shows it, and
the number of tool calls before. -/
structure Occasion where
  now : Nat
  stamp : String
  call : Nat

structure Call where
  ending : Ending
  took : Nat
  cancels : List Token

namespace Call

def plain (ending : Ending) : Call := ⟨ending, 0, []⟩

def ok (o : Object) : Call := plain (.returned o.toValue)

def ofExcept : Except ToolError Object → Call
  | .ok o => ok o
  | .error e => plain (.failed e)

end Call

structure Tool where
  description : String
  run : Occasion → Payload → Call

def Tool.pure (description : String) (f : Payload → Except ToolError Object) : Tool :=
  ⟨description, fun _ payload => Call.ofExcept (f payload)⟩

end ToolPipeline
