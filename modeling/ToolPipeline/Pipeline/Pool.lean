import Mathlib.Algebra.GroupWithZero.Nat
import ToolPipeline.Pipeline.Progress

/-! Runs of one engine side by side. Between two steps of a run, steps of all others may come: a run
asks whether it has to stop, calls a tool, has it return, has the step recorded, and ends. -/

namespace ToolPipeline

/-- How far a run has come that others may interrupt at any time. -/
inductive Stage where
  | resting (p : Progress)
  /-- The run goes on, but its tool has not been called yet. -/
  | cleared (plugin : Plugin) (tool : String) (rest : List String) (r : Run)
  /-- The tool has returned, and nothing has been made of it yet. -/
  | returned (plugin : Plugin) (tool : String) (rest : List String) (r : Run) (call : Call)

namespace Stage

def ended? : Stage → Option Ended
  | .resting p => p.ended?
  | _ => none

def trace : Stage → Trace
  | .resting p => p.trace
  | .cleared _ _ _ r => r.trace
  | .returned _ _ _ r _ => r.trace

def step? (e : Engine) (j : Job) (offered : Nat) (w : World) : Stage → Option (Stage × World)
  | .resting (.between plugin (tool :: rest) r) =>
    match r.enter (e.context j.runId plugin j.options) tool w with
    | .error ended => some (.resting (.conclude j w.now ended), w)
    | .ok r => some (.cleared plugin tool rest r, w)
  | .cleared plugin tool rest r =>
    let call := r.call (e.context j.runId plugin j.options) tool w
    some (.resting (.inside plugin tool rest r call), w)
  | .resting (.inside plugin tool rest r call) =>
    some (.returned plugin tool rest r call, w.after call)
  | .returned plugin tool rest r call =>
    some (.resting (.leave e j w.now plugin tool rest { r with offered } call), w)
  | .resting p => (p.step? e j offered w).map fun (p, w) => (.resting p, w)

def left (j : Job) : Stage → Nat
  | .resting .fresh => 4 * j.request.tools.length + 2
  | .resting (.between _ rest _) => 4 * rest.length + 1
  | .cleared _ _ rest _ => 4 * rest.length + 4
  | .resting (.inside _ _ rest _ _) => 4 * rest.length + 3
  | .returned _ _ rest _ _ => 4 * rest.length + 2
  | .resting (.over _) => 0

def added (before after : Stage) : Trace := after.trace.drop before.trace.length

end Stage

structure Pool where
  world : World
  offered : Nat
  kept : List StepRecord
  runs : List (Job × Stage)

namespace Pool

def start (w : World) (jobs : List Job) : Pool := ⟨w, 0, [], jobs.map (·, .resting .fresh)⟩

def step? (e : Engine) (p : Pool) (i : Nat) : Option Pool := do
  let (j, before) ← p.runs[i]?
  let (after, world) ← before.step? e j p.offered p.world
  let offers := (before.added after).countP fun
    | .offered .. => true
    | _ => false
  let records := if e.recorder.keeps then (before.added after).records else []
  return ⟨world, p.offered + offers, p.kept ++ records, p.runs.set i (j, after)⟩

/-- The pools that steps of the runs, in any order, lead to. In between, time may pass and tokens
may be cancelled. -/
inductive Reachable (e : Engine) (start : Pool) : Pool → Prop where
  | refl : Reachable e start start
  | step {p q : Pool} (i : Nat) : Reachable e start p → p.step? e i = some q → Reachable e start q
  | elapse {p : Pool} {w : World} :
      Reachable e start p → p.world.Before w → Reachable e start { p with world := w }

def recordsOf (p : Pool) (runId : String) : List StepRecord :=
  p.kept.filter fun r => r.runId = runId

def left (p : Pool) : Nat := (p.runs.map fun r => r.2.left r.1).sum

end Pool

end ToolPipeline
