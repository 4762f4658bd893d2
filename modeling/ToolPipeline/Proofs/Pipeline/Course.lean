import ToolPipeline.Pipeline.Engine

/-! The course of a run: which tools it passes, on what payloads, and where it stops. The plugin,
the options and the world decide it; what a run shows is read off its course. -/

namespace ToolPipeline

structure Passage where
  tool : String
  input : Payload
  took : Nat
  output : Payload

def Passage.stepOutput (s : Passage) : StepOutput := ⟨s.tool, s.output⟩

def handedOn (payload : Payload) (passed : List Passage) : Payload :=
  (passed.getLast?.map Passage.output).getD payload

@[simp]
theorem handedOn_nil (payload : Payload) : handedOn payload [] = payload := rfl

@[simp]
theorem handedOn_append (payload : Payload) (passed : List Passage) (s : Passage) :
    handedOn payload (passed ++ [s]) = s.output := by
  simp [handedOn]

/-- Why a run goes no further. The tool is the one that it has come to. -/
inductive Stop where
  | finished
  | interrupted (tool : String) (reason : CancelReason)
  | failed (tool : String) (e : ToolError)
  | notAnObject (tool : String) (found : Json.Kind)
  | panicked (tool : String) (p : Panic)

structure Course where
  passed : List Passage
  stop : Stop
  world : World

/-- What else happens to the world before each step of a run. -/
abbrev Drift := Nat → World → World

def Drift.still : Drift := fun _ w => w

def Call.verdict (call : Call) (tool : String) : Except Stop Payload :=
  match call.ending with
  | .panicked p => .error (.panicked tool p)
  | .failed e => .error (.failed tool e)
  | .returned v =>
    match v.asObject? with
    | none => .error (.notAnObject tool v.kind)
    | some output => .ok output

/-- The course from a step on. A step first asks whether it has to stop; its tool is then called
once, on the output of the step before. -/
def Course.from (p : Plugin) (o : Options) (drift : Drift) :
    (step : Nat) → (input : Payload) → World → List String → Course
  | _, _, w, [] => ⟨[], .finished, w⟩
  | step, input, w, tool :: rest =>
    let w := drift step w
    match o.interruption w with
    | some reason => ⟨[], .interrupted tool reason, w⟩
    | none =>
      let call := p.call tool w.occasion input
      match call.verdict tool with
      | .error stop => ⟨[], stop, w.after call⟩
      | .ok output =>
        let later := Course.from p o drift (step + 1) output (w.after call) rest
        { later with passed := ⟨tool, input, call.took, output⟩ :: later.passed }

section
variable {p : Plugin} {o : Options} {drift : Drift} {step : Nat} {input : Payload} {w : World}
  {tool : String} {rest : List String}

theorem Course.from_interrupted {reason : CancelReason}
    (hi : o.interruption (drift step w) = some reason) :
    Course.from p o drift step input w (tool :: rest) =
      ⟨[], .interrupted tool reason, drift step w⟩ := by
  simp [Course.from, hi]

theorem Course.from_stopped {stop : Stop} (hi : o.interruption (drift step w) = none)
    (hv : (p.call tool (drift step w).occasion input).verdict tool = .error stop) :
    Course.from p o drift step input w (tool :: rest) =
      ⟨[], stop, (drift step w).after (p.call tool (drift step w).occasion input)⟩ := by
  simp [Course.from, hi, hv]

theorem Course.from_passed {output : Payload} (hi : o.interruption (drift step w) = none)
    (hv : (p.call tool (drift step w).occasion input).verdict tool = .ok output) :
    let call := p.call tool (drift step w).occasion input
    let later := Course.from p o drift (step + 1) output ((drift step w).after call) rest
    Course.from p o drift step input w (tool :: rest) =
      { later with passed := ⟨tool, input, call.took, output⟩ :: later.passed } := by
  simp [Course.from, hi, hv]

end

def Course.of (p : Plugin) (o : Options) (drift : Drift) (payload : Payload) (w : World)
    (tools : List String) : Course :=
  .from p o drift 0 payload w tools

def Outcome.isOk : Outcome → Bool
  | .ok _ => true
  | _ => false

theorem Outcome.exists_of_isOk {outcome : Outcome} (h : outcome.isOk = true) :
    ∃ r, outcome = .ok r := by
  cases outcome with
  | ok r => exact ⟨r, rfl⟩
  | error | panicked => cases h

/-- The outcome of a run that stops at a step; `result` is what it has by then. -/
def Stop.outcome (p : Plugin) (step : Nat) (result : RunResult) : Stop → Outcome
  | .finished => .ok result
  | .interrupted _ reason => .error (.cancelled step reason)
  | .failed tool e => .error (.toolFailed p.id tool step e)
  | .notAnObject tool found => .error (.notAnObject p.id tool step found)
  | .panicked _ q => .panicked q

def Stop.called? : Stop → Option String
  | .finished | .interrupted .. => none
  | .failed tool _ | .notAnObject tool _ | .panicked tool _ => some tool

theorem Call.called?_of_verdict {call : Call} {tool : String} {stop : Stop}
    (h : call.verdict tool = .error stop) : stop.called? = some tool := by
  unfold Call.verdict at h
  split at h
  · cases h; rfl
  · cases h; rfl
  · split at h <;> cases h
    rfl

def Course.result (o : Options) (payload : Payload) (k : Course) : RunResult :=
  ⟨handedOn payload k.passed, if o.discardSteps then [] else k.passed.map Passage.stepOutput⟩

def Course.outcome (p : Plugin) (o : Options) (payload : Payload) (k : Course) : Outcome :=
  k.stop.outcome p k.passed.length (k.result o payload)

/-- The calls of a run: one for each step passed, and one at the stop, if a tool stopped it. -/
def Course.invocations (payload : Payload) (k : Course) : List Invocation :=
  (k.passed.zipIdx.map fun s => ⟨s.2, s.1.tool, s.1.input⟩)
    ++ (k.stop.called?.map fun tool => ⟨k.passed.length, tool, handedOn payload k.passed⟩).toList

theorem handedOn_cons (payload : Payload) (s : Passage) (rest : List Passage) :
    handedOn payload (s :: rest) = handedOn s.output rest := by
  cases h : rest.getLast? <;> simp [handedOn, List.getLast?_cons, h]

/-- The tools that a course passes, and the one that stops it, stand at the head of the list; a
course that is not stopped passes them all. -/
theorem Course.from_tools (p : Plugin) (o : Options) (drift : Drift) (step : Nat)
    (input : Payload) (w : World) (tools : List String) :
    let k := Course.from p o drift step input w tools
    k.passed.map Passage.tool ++ k.stop.called?.toList <+: tools ∧
      (k.stop = .finished → k.passed.map Passage.tool = tools) := by
  induction tools generalizing step input w with
  | nil => simp [Course.from, Stop.called?]
  | cons tool rest ih =>
    cases hi : o.interruption (drift step w) with
    | some reason => simp [Course.from_interrupted hi, Stop.called?]
    | none =>
      cases hv : (p.call tool (drift step w).occasion input).verdict tool with
      | error stop =>
        have hs := Call.called?_of_verdict hv
        have hf : stop ≠ .finished := by rintro rfl; simp [Stop.called?] at hs
        simp [Course.from_stopped hi hv, hs, hf]
      | ok output =>
        have hh := ih (step + 1) output
          ((drift step w).after (p.call tool (drift step w).occasion input))
        simpa [Course.from_passed hi hv] using hh

theorem Course.from_inputs (p : Plugin) (o : Options) (drift : Drift) (step : Nat)
    (input : Payload) (w : World) (tools : List String) :
    let k := Course.from p o drift step input w tools
    k.passed.map Passage.input ++ [handedOn input k.passed] =
      input :: k.passed.map Passage.output := by
  induction tools generalizing step input w with
  | nil => simp [Course.from]
  | cons tool rest ih =>
    cases hi : o.interruption (drift step w) with
    | some reason => simp [Course.from_interrupted hi]
    | none =>
      cases hv : (p.call tool (drift step w).occasion input).verdict tool with
      | error stop => simp [Course.from_stopped hi hv]
      | ok output =>
        have hh := ih (step + 1) output
          ((drift step w).after (p.call tool (drift step w).occasion input))
        simpa [Course.from_passed hi hv, handedOn_cons] using hh

theorem map_fst_zipIdx {α β : Type} (f : α → β) (l : List α) :
    (l.zipIdx.map fun s => f s.1) = l.map f := by
  have hl := congrArg (List.map f) (List.zipIdx_map_fst 0 l)
  rwa [List.map_map] at hl

section
variable (payload : Payload) (k : Course)

theorem Course.invocations_tools : (k.invocations payload).map Invocation.tool =
    k.passed.map Passage.tool ++ k.stop.called?.toList := by
  have hp := map_fst_zipIdx Passage.tool k.passed
  cases h : k.stop.called? <;> simp [Course.invocations, h, Function.comp_def, hp]

theorem Course.invocations_inputs : (k.invocations payload).map Invocation.input <+:
    k.passed.map Passage.input ++ [handedOn payload k.passed] := by
  have hp := map_fst_zipIdx Passage.input k.passed
  cases h : k.stop.called? <;> simp [Course.invocations, h, Function.comp_def, hp]

theorem Course.invocations_steps : (k.invocations payload).map Invocation.step =
    List.range (k.invocations payload).length := by
  have hp : (k.passed.zipIdx.map fun s => s.2) = List.range k.passed.length := by
    rw [List.range_eq_range', ← List.zipIdx_map_snd 0 k.passed]
  cases h : k.stop.called? <;>
    simp [Course.invocations, h, Function.comp_def, hp, List.range_succ]

end

end ToolPipeline
