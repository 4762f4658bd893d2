import ToolPipeline.Pipeline.Options
import ToolPipeline.Pipeline.Trace
import ToolPipeline.Tool.Plugin

/-! A run calls the tools of a request in order, each on the output of the one before. Before every
tool it asks whether it has to stop, and it ends with the first tool that does not return an
object. -/

namespace ToolPipeline

open Json

structure RunContext where
  runId : String
  plugin : Plugin
  options : Options
  recorder : Recorder

inductive Outcome where
  | ok (r : RunResult)
  | error (e : PipelineError)
  | panicked (p : Panic)

/-- A run between two of its steps. `offered` records have been offered to the recorder. -/
structure Run where
  state : State
  step : Nat
  payload : Payload
  steps : List StepOutput
  offered : Nat
  trace : Trace

structure Ended where
  outcome : Outcome
  state : State
  offered : Nat
  trace : Trace

namespace Run

/-- A run that has not yet begun; `offered` counts the recorder's records of earlier runs. -/
def start (payload : Payload) (offered : Nat) : Run := ⟨.validating, 0, payload, [], offered, []⟩

def note (r : Run) (h : Happening) : Run := { r with trace := r.trace ++ [h] }

def finish (r : Run) (outcome : Outcome) : Ended := ⟨outcome, r.state, r.offered, r.trace⟩

/-- Moves on to another state; a state that may not follow breaks the run. -/
def moveTo (r : Run) (next : State) : Except Ended Run :=
  match r.state.advance next with
  | .error p => .error (r.finish (.panicked p))
  | .ok state => .ok { r.note (.moved r.state next) with state }

def endIn (r : Run) (next : State) (outcome : Run → Ended) : Ended :=
  match r.moveTo next with
  | .error ended => ended
  | .ok r => outcome r

/-- Before a tool is called: the run moves on to its step, and may have to stop there. -/
def enter (c : RunContext) (r : Run) (tool : String) (w : World) : Except Ended Run := do
  let r ← r.moveTo (.executing r.step)
  match c.options.interruption w with
  | some reason =>
    throw <| r.endIn .cancelled fun r =>
      (r.note (.stopped r.step tool reason)).finish (.error (.cancelled r.step reason))
  | none => return r.note (.invoked ⟨r.step, tool, r.payload⟩)

def call (c : RunContext) (r : Run) (tool : String) (w : World) : Call :=
  c.plugin.call tool w.occasion r.payload

def record (c : RunContext) (r : Run) (tool : String) (output : Payload) : StepRecord :=
  ⟨c.runId, c.plugin.id, tool, r.step, output.keys⟩

/-- A step that gave an object: it is logged and recorded, and its output goes to the next one. -/
def succeed (c : RunContext) (r : Run) (tool : String) (elapsed : Nat) (output : Payload) : Run :=
  let record := r.record c tool output
  let r := (r.note (.finished r.step tool elapsed)).note
    (.offered record (c.recorder.react r.offered record))
  { r with
    step := r.step + 1
    payload := output
    steps := if c.options.discardSteps then r.steps else r.steps ++ [⟨tool, output⟩]
    offered := r.offered + 1 }

def leave (c : RunContext) (r : Run) (tool : String) (call : Call) : Except Ended Run :=
  match call.ending with
  | .panicked p => throw (r.finish (.panicked p))
  | .failed e =>
    throw <| r.endIn .failed (·.finish (.error (.toolFailed c.plugin.id tool r.step e)))
  | .returned v =>
    match v.asObject? with
    | none =>
      throw <| r.endIn .failed (·.finish (.error (.notAnObject c.plugin.id tool r.step v.kind)))
    | some output => return r.succeed c tool call.took output

def complete (r : Run) : Ended :=
  r.endIn .completed fun r => r.finish (.ok ⟨r.payload, r.steps⟩)

def through (c : RunContext) : List String → Run → World → Ended × World
  | [], r, w => (r.complete, w)
  | tool :: rest, r, w =>
    match r.enter c tool w with
    | .error ended => (ended, w)
    | .ok r =>
      let call := r.call c tool w
      match r.leave c tool call with
      | .error ended => (ended, w.after call)
      | .ok r => through c rest r (w.after call)

/-- Runs the tools of a request, which have to be tools of the plugin. -/
def execute (c : RunContext) (tools : List String) (r : Run) (w : World) : Ended × World :=
  if tools = [] then
    (r.endIn .rejected (·.finish (.error (.invalid .emptyToolList))), w)
  else through c tools r w

end Run

end ToolPipeline
