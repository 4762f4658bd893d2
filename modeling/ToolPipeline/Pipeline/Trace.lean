import ToolPipeline.Pipeline.Error
import ToolPipeline.Pipeline.State
import ToolPipeline.Pipeline.Recorder

/-! What happens in the course of a run, in order, and how it is logged. -/

namespace ToolPipeline

structure Invocation where
  step : Nat
  tool : String
  input : Payload

inductive Happening where
  | moved (current next : State)
  | invoked (i : Invocation)
  | finished (step : Nat) (tool : String) (elapsed : Nat)
  | offered (r : StepRecord) (reaction : Reaction)
  | stopped (step : Nat) (tool : String) (reason : CancelReason)
  | rejected (e : ValidationError)
  | completed (steps elapsed : Nat)
  | failed (e : PipelineError) (elapsed : Nat)

abbrev Trace := List Happening

namespace Happening

def events : Happening → List Log.Event
  | .moved current next => [State.moved current next]
  | .invoked _ => []
  | .finished step tool elapsed =>
    [⟨.debug, "vista_pipeline::executor", "tool finished",
      [("step", .nat step), ("tool_name", .text tool), ("elapsed_ms", .nat elapsed)]⟩]
  | .offered r reaction => reaction.events ++ (reaction.panic.map (Recorder.brokeDown r)).toList
  | .stopped step tool reason =>
    [⟨.info, "vista_pipeline::executor", "pipeline stopped",
      [("step", .nat step), ("tool_name", .text tool), ("reason", .text reason.message)]⟩]
  | .rejected e =>
    [⟨.info, "vista_pipeline::engine", "pipeline rejected", [("error", .text e.message)]⟩]
  | .completed steps elapsed =>
    [⟨.info, "vista_pipeline::engine", "pipeline completed",
      [("steps", .nat steps), ("elapsed_ms", .nat elapsed)]⟩]
  | .failed e elapsed =>
    [⟨.warn, "vista_pipeline::engine", "pipeline failed",
      [("code", .text e.code), ("error", .text e.message), ("elapsed_ms", .nat elapsed)]⟩]

end Happening

namespace Trace

def events (t : Trace) : List Log.Event := t.flatMap Happening.events

def invocations (t : Trace) : List Invocation := t.filterMap fun
  | .invoked i => some i
  | _ => none

/-- The records that a recorder in memory holds: those for which it did not break down. -/
def records (t : Trace) : List StepRecord := t.filterMap fun
  | .offered r reaction => if reaction.panic.isNone then some r else none
  | _ => none

/-- The records as `records` has them, each with the time of its step's end; the run began at
`start`. -/
def timedRecords (start : Nat) (t : Trace) : List (Nat × StepRecord) :=
  let read := t.foldl (fun (s : Nat × List (Nat × StepRecord)) h =>
    match h with
    | .finished _ _ elapsed => (s.1 + elapsed, s.2)
    | .offered r reaction => if reaction.panic.isNone then (s.1, s.2 ++ [(s.1, r)]) else s
    | _ => s) (start, [])
  read.2

def transitions (t : Trace) : List (State × State) := t.filterMap fun
  | .moved current next => some (current, next)
  | _ => none

end Trace

end ToolPipeline
