import ToolPipeline.Pipeline.Engine

/-! A run cut into its steps, so that other things may happen between them: the request is
validated, a tool is entered, a tool returns, the run ends. -/

namespace ToolPipeline

/-- A request to be run, with what sets its run apart. The run began at the time `began`. -/
structure Job where
  runId : String
  request : Request
  options : Options
  began : Nat

inductive Progress where
  | fresh
  /-- Between two tools, with the tools that are left. -/
  | between (plugin : Plugin) (rest : List String) (r : Run)
  /-- Inside a tool, which will end with `call`. -/
  | inside (plugin : Plugin) (tool : String) (rest : List String) (r : Run) (call : Call)
  | over (e : Ended)

namespace Progress

def isInside : Progress → Bool
  | .inside .. => true
  | _ => false

def ended? : Progress → Option Ended
  | .over e => some e
  | _ => none

def trace : Progress → Trace
  | .fresh => []
  | .between _ _ r => r.trace
  | .inside _ _ _ r _ => r.trace
  | .over e => e.trace

def conclude (j : Job) (now : Nat) (e : Ended) : Progress := .over (Engine.close (now - j.began) e)

/-- Validates the request; `offered` counts the records that the recorder has been offered. -/
def begin (e : Engine) (j : Job) (offered : Nat) : Progress :=
  let r := Run.start j.request.payload offered
  match validate e.registry j.request.pluginId j.request.tools with
  | .error error => .over (Engine.reject r error)
  | .ok plugin => .between plugin j.request.tools r

/-- Enters the next tool, unless the run has to stop or there is none. -/
def enter (e : Engine) (j : Job) (w : World) (plugin : Plugin) (rest : List String) (r : Run) :
    Progress :=
  match rest with
  | [] => conclude j w.now r.complete
  | tool :: rest =>
    let c := e.context j.runId plugin j.options
    match r.enter c tool w with
    | .error ended => conclude j w.now ended
    | .ok r => .inside plugin tool rest r (r.call c tool w)

def leave (e : Engine) (j : Job) (now : Nat) (plugin : Plugin) (tool : String) (rest : List String)
    (r : Run) (call : Call) : Progress :=
  match r.leave (e.context j.runId plugin j.options) tool call with
  | .error ended => conclude j now ended
  | .ok r => .between plugin rest r

/-- The next step of a run, with the world after it; a run that is over has none. -/
def step? (e : Engine) (j : Job) (offered : Nat) (w : World) : Progress → Option (Progress × World)
  | .fresh => some (begin e j offered, w)
  | .between plugin rest r => some (enter e j w plugin rest r, w)
  | .inside plugin tool rest r call =>
    let w := w.after call
    some (leave e j w.now plugin tool rest { r with offered } call, w)
  | .over _ => none

def newOffers (before after : Progress) : Nat :=
  ((after.trace.drop before.trace.length).filter fun h =>
    match h with
    | .offered .. => true
    | _ => false).length

end Progress

end ToolPipeline
