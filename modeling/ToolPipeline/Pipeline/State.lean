import ToolPipeline.Tool.Basic
import ToolPipeline.Log.Event

/-! The lifecycle of a run: it is validated, executes its steps in order, and ends in one of four
final states. As in a build with debug assertions and overflow checks, a move that is not allowed
breaks down with a panic, and so does counting on from the last index; without them both would pass
unseen. -/

namespace ToolPipeline

inductive State where
  | validating
  | rejected
  | executing (step : Nat)
  | completed
  | failed
  | cancelled
  deriving DecidableEq, Repr

namespace State

def name : State → String
  | .validating => "validating"
  | .rejected => "rejected"
  | .executing step => "executing(" ++ toString step ++ ")"
  | .completed => "completed"
  | .failed => "failed"
  | .cancelled => "cancelled"

def isTerminal : State → Bool
  | .validating | .executing _ => false
  | _ => true

def lastIndex : Nat := Nat.pow 2 64 - 1

/-- Whether one state may follow another. There is no index after the last one to compare with. -/
def canFollow : State → State → Except Panic Bool
  | .validating, .rejected => .ok true
  | .validating, .executing step => .ok (step == 0)
  | .executing k, .executing j =>
    if k < lastIndex then .ok (j == k + 1) else .error (.text "attempt to add with overflow")
  | .executing _, .completed => .ok true
  | .executing _, .failed => .ok true
  | .executing _, .cancelled => .ok true
  | _, _ => .ok false

def advance (current next : State) : Except Panic State := do
  if ← canFollow current next then return next
  throw (.text ("illegal pipeline transition " ++ current.name ++ " -> " ++ next.name))

def moved (current next : State) : Log.Event :=
  ⟨.debug, "vista_pipeline::state", "pipeline state",
    [("from", .text current.name), ("to", .text next.name)]⟩

end State

end ToolPipeline
