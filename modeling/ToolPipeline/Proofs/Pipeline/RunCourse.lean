import ToolPipeline.Proofs.Pipeline.Course
import ToolPipeline.Proofs.Pipeline.Validity

/-! Runs keep to their course: the state, the outputs and the trace of a run between two steps
are those of the steps passed, and its end is that of the stop. -/

namespace ToolPipeline

/-- The length of a list that is held in memory is an index itself. -/
def Indexable (tools : List String) : Prop := tools.length ≤ State.lastIndex

instance (tools : List String) : Decidable (Indexable tools) :=
  inferInstanceAs (Decidable (tools.length ≤ State.lastIndex))

namespace State

def before : (step : Nat) → State
  | 0 => .validating
  | k + 1 => .executing k

theorem advance_executing {k : Nat} (h : k ≤ lastIndex) :
    (before k).advance (.executing k) = .ok (.executing k) := by
  cases k with
  | zero => rfl
  | succ k =>
    have hk : k < lastIndex := h
    simp [before, advance, canFollow, hk, bind, Except.bind, pure, Except.pure]

theorem advance_end {k : Nat} {next : State}
    (h : next = .completed ∨ next = .failed ∨ next = .cancelled) :
    (State.executing k).advance next = .ok next := by
  rcases h with rfl | rfl | rfl <;> rfl

end State

theorem Run.moveTo_eq {r : Run} {next : State} (h : r.state.advance next = .ok next) :
    r.moveTo next = .ok { r with state := next, trace := r.trace ++ [.moved r.state next] } := by
  simp [Run.moveTo, h, Run.note]

theorem Run.endIn_eq {r : Run} {next : State} (outcome : Run → Ended)
    (h : r.state.advance next = .ok next) :
    r.endIn next outcome =
      outcome { r with state := next, trace := r.trace ++ [.moved r.state next] } := by
  simp [Run.endIn, Run.moveTo_eq h]

def Stop.state (step : Nat) : Stop → State
  | .finished => .completed
  | .interrupted .. => .cancelled
  | .failed .. | .notAnObject .. => .failed
  | .panicked .. => .executing step

def Stop.happenings (step : Nat) (payload : Payload) : Stop → Trace
  | .finished => [.moved (.before step) .completed]
  | .interrupted tool reason =>
    [.moved (.before step) (.executing step), .moved (.executing step) .cancelled,
      .stopped step tool reason]
  | .failed tool _ | .notAnObject tool _ =>
    [.moved (.before step) (.executing step), .invoked ⟨step, tool, payload⟩,
      .moved (.executing step) .failed]
  | .panicked tool _ =>
    [.moved (.before step) (.executing step), .invoked ⟨step, tool, payload⟩]

def Stop.ended (c : RunContext) (r : Run) (stop : Stop) : Ended :=
  ⟨stop.outcome c.plugin r.step ⟨r.payload, r.steps⟩, stop.state r.step, r.offered,
    r.trace ++ stop.happenings r.step r.payload⟩

def Run.entered (r : Run) (tool : String) : Run :=
  { r with
    state := .executing r.step
    trace := r.trace ++ [.moved (.before r.step) (.executing r.step),
      .invoked ⟨r.step, tool, r.payload⟩] }

section
variable {c : RunContext} {r : Run}

theorem Run.enter_eq (tool : String) (hs : r.state = .before r.step)
    (h : r.step ≤ State.lastIndex) (w : World) :
    r.enter c tool w =
      match c.options.interruption w with
      | some reason => .error ((Stop.interrupted tool reason).ended c r)
      | none => .ok (r.entered tool) := by
  have hm := Run.moveTo_eq (r := r) (hs ▸ State.advance_executing h)
  cases hi : c.options.interruption w with
  | some reason =>
    simp only [Run.enter, hm, hi, bind, Except.bind, throw, throwThe, MonadExceptOf.throw]
    rw [Run.endIn_eq _ (State.advance_end (.inr (.inr rfl)))]
    simp [Run.note, Run.finish, Stop.ended, Stop.outcome, Stop.state, Stop.happenings, hs]
  | none =>
    simp [Run.enter, hm, hi, bind, Except.bind, pure, Except.pure, Run.note, Run.entered, hs]

theorem Run.leave_entered (tool : String) (call : Call) :
    (r.entered tool).leave c tool call =
      match call.verdict tool with
      | .error stop => .error (stop.ended c r)
      | .ok output => .ok ((r.entered tool).succeed c tool call.took output) := by
  have he (outcome : Run → Ended) :=
    Run.endIn_eq (r := r.entered tool) outcome (State.advance_end (.inr (.inl rfl)))
  cases hc : call.ending with
  | panicked p =>
    simp [Run.leave, Call.verdict, hc, throw, throwThe, MonadExceptOf.throw, Run.finish, Stop.ended,
      Stop.outcome, Stop.state, Stop.happenings, Run.entered]
  | failed e =>
    simp only [Run.leave, Call.verdict, hc, throw, throwThe, MonadExceptOf.throw]
    rw [he]
    simp [Run.finish, Stop.ended, Stop.outcome, Stop.state, Stop.happenings, Run.entered]
  | returned v =>
    cases hv : v.asObject? with
    | none =>
      simp only [Run.leave, Call.verdict, hc, hv, throw, throwThe, MonadExceptOf.throw]
      rw [he]
      simp [Run.finish, Stop.ended, Stop.outcome, Stop.state, Stop.happenings, Run.entered]
    | some output => simp [Run.leave, Call.verdict, hc, hv, pure, Except.pure]

theorem Run.complete_eq {k : Nat} (hs : r.state = .executing k) (hk : r.step = k + 1) :
    r.complete = Stop.finished.ended c r := by
  have he (outcome : Run → Ended) : r.endIn .completed outcome = _ :=
    Run.endIn_eq outcome (hs ▸ State.advance_end (.inl rfl))
  simp [Run.complete, he, Run.finish, Stop.ended, Stop.outcome, Stop.state, Stop.happenings,
    State.before, hs, hk]

end

section
variable (c : RunContext) (payload : Payload) (offers : Nat → Nat)

def Passage.record (s : Passage) (step : Nat) : StepRecord :=
  ⟨c.runId, c.plugin.id, s.tool, step, s.output.keys⟩

def Passage.happenings (s : Passage) (step offered : Nat) : Trace :=
  [.moved (.before step) (.executing step), .invoked ⟨step, s.tool, s.input⟩,
    .finished step s.tool s.took,
    .offered (s.record c step) (c.recorder.react offered (s.record c step))]

/-- A run that has passed steps and comes to the next one. `offers` tells how many records had been
offered before that of each step, `offered` how many have been by now. -/
def Run.past (offered : Nat) (passed : List Passage) : Run where
  state := .before passed.length
  step := passed.length
  payload := handedOn payload passed
  steps := if c.options.discardSteps then [] else passed.map Passage.stepOutput
  offered := offered
  trace := passed.zipIdx.flatMap fun s => s.1.happenings c s.2 (offers s.2)

theorem Run.start_eq_past (offered : Nat) :
    Run.start payload offered = Run.past c payload offers offered [] := by
  simp [Run.start, Run.past, State.before]

variable {c payload offers}

theorem Run.succeed_past (passed : List Passage) (tool : String) (took : Nat) (output : Payload) :
    ((Run.past c payload offers (offers passed.length) passed).entered tool).succeed c tool took
        output =
      Run.past c payload offers (offers passed.length + 1)
        (passed ++ [⟨tool, handedOn payload passed, took, output⟩]) := by
  cases hd : c.options.discardSteps <;>
    simp [Run.past, Run.succeed, Run.entered, Run.note, Run.record, State.before, hd,
      List.zipIdx_append, Passage.happenings, Passage.record, Passage.stepOutput]

theorem Run.complete_past {passed : List Passage} (h : passed ≠ []) (offered : Nat) :
    (Run.past c payload offers offered passed).complete =
      Stop.finished.ended c (.past c payload offers offered passed) := by
  obtain ⟨k, hk⟩ : ∃ k, passed.length = k + 1 :=
    ⟨passed.length - 1, by have := List.length_pos_iff.mpr h; omega⟩
  exact Run.complete_eq (by simp [Run.past, hk, State.before]) hk

/-- A run that nothing else meets: its records are offered one after the other. -/
def Run.alone (c : RunContext) (payload : Payload) (offered : Nat) (passed : List Passage) : Run :=
  .past c payload (offered + ·) (offered + passed.length) passed

theorem Run.through_alone (c : RunContext) (payload : Payload) (offered : Nat)
    (passed : List Passage) (tools : List String) (w : World) (hne : passed ≠ [] ∨ tools ≠ [])
    (hlen : passed.length + tools.length ≤ State.lastIndex) :
    let k := Course.from c.plugin c.options .still passed.length (handedOn payload passed) w tools
    Run.through c tools (.alone c payload offered passed) w =
      (k.stop.ended c (.alone c payload offered (passed ++ k.passed)), k.world) := by
  induction tools generalizing passed w with
  | nil =>
    have hp : passed ≠ [] := by simpa using hne
    simp only [Run.through, Course.from, List.append_nil, Run.alone, Run.complete_past hp]
  | cons tool rest ih =>
    intro k
    simp only [List.length_cons] at hlen
    let r := Run.alone c payload offered passed
    have he : r.enter c tool w = _ :=
      Run.enter_eq tool rfl (show passed.length ≤ State.lastIndex by omega) w
    cases hi : c.options.interruption w with
    | some reason =>
      have hk : k = ⟨[], .interrupted tool reason, w⟩ := Course.from_interrupted hi
      simp only [hi] at he
      simp [Run.through, r, he, hk]
    | none =>
      let call := c.plugin.call tool w.occasion (handedOn payload passed)
      have hcall : (r.entered tool).call c tool w = call := rfl
      have hl : (r.entered tool).leave c tool call = _ := Run.leave_entered tool call
      cases hv : call.verdict tool with
      | error stop =>
        have hk : k = ⟨[], stop, w.after call⟩ := Course.from_stopped hi hv
        simp only [hi, hv] at he hl
        simp [Run.through, r, he, hcall, hl, hk]
      | ok output =>
        let s : Passage := ⟨tool, handedOn payload passed, call.took, output⟩
        have hs : (r.entered tool).succeed c tool call.took output =
            .alone c payload offered (passed ++ [s]) := by
          simp only [r, Run.alone, List.length_append, List.length_singleton, ← Nat.add_assoc]
          exact Run.succeed_past passed tool call.took output
        have hh := ih (passed ++ [s]) (w.after call) (.inl (by simp))
          (by simp only [List.length_append, List.length_singleton]; omega)
        simp only [handedOn_append, List.length_append, List.length_singleton, List.append_assoc,
          List.singleton_append] at hh
        have hk : k = _ := Course.from_passed hi hv
        simp only [hi, hv, hs] at he hl
        simp [Run.through, r, he, hcall, hl, hh, hk, Drift.still, call, s]

end

def Course.ended (c : RunContext) (payload : Payload) (offered : Nat) (k : Course) : Ended :=
  k.stop.ended c (.alone c payload offered k.passed)

theorem Stop.happenings_invocations (step : Nat) (input : Payload) (stop : Stop) :
    Trace.invocations (stop.happenings step input) =
      (stop.called?.map fun tool => ⟨step, tool, input⟩).toList := by
  cases stop <;> rfl

theorem Stop.ended_past (c : RunContext) (payload : Payload) (offers : Nat → Nat) (offered : Nat)
    (k : Course) :
    let ended := k.stop.ended c (.past c payload offers offered k.passed)
    ended.outcome = k.outcome c.plugin c.options payload ∧
      ended.trace.invocations = k.invocations payload := by
  have hs := Stop.happenings_invocations k.passed.length (handedOn payload k.passed) k.stop
  have hp : Trace.invocations
      (k.passed.zipIdx.flatMap fun s => s.1.happenings c s.2 (offers s.2)) =
      k.passed.zipIdx.map fun s => ⟨s.2, s.1.tool, s.1.input⟩ := by
    rw [Trace.invocations, List.filterMap_flatMap, List.map_eq_flatMap]
    rfl
  refine ⟨rfl, ?_⟩
  simp only [Trace.invocations] at hs hp ⊢
  simp [Stop.ended, Run.past, Course.invocations, hs, hp]

theorem Run.execute_eq (c : RunContext) (payload : Payload) {tools : List String}
    (hne : tools ≠ []) (hlen : Indexable tools) (offered : Nat) (w : World) :
    let k := Course.of c.plugin c.options .still payload w tools
    Run.execute c tools (.start payload offered) w = (k.ended c payload offered, k.world) := by
  have hh := Run.through_alone c payload offered [] tools w (.inr hne)
    (by simpa [Indexable] using hlen)
  simpa [Run.execute, hne, Run.start_eq_past c payload (offered + ·), Run.alone, Course.of,
    Course.ended] using hh

namespace Engine

theorem close_outcome (elapsed : Nat) (ended : Ended) :
    (close elapsed ended).outcome = ended.outcome := by
  unfold close
  split <;> rfl

theorem close_invocations (elapsed : Nat) (ended : Ended) :
    (close elapsed ended).trace.invocations = ended.trace.invocations := by
  unfold close
  split <;> simp [Trace.invocations]

theorem run_eq {e : Engine} {request : Request} {p : Plugin}
    (h : validate e.registry request.pluginId request.tools = .ok p)
    (hlen : Indexable request.tools) (runId : String) (o : Options) (offered : Nat) (w : World) :
    let k := Course.of p o .still request.payload w request.tools
    e.run runId request o offered w =
      (close (k.world.now - w.now) (k.ended (e.context runId p o) request.payload offered),
        k.world) := by
  have hh := Run.execute_eq (e.context runId p o) request.payload (ne_nil_of_validate h) hlen
    offered w
  simp only [run, h, hh]
  rfl

theorem reject_start (payload : Payload) (offered : Nat) (error : ValidationError) :
    reject (.start payload offered) error = ⟨.error (.invalid error), .rejected, offered,
      [.moved .validating .rejected, .rejected error]⟩ := rfl

theorem run_of_invalid {e : Engine} {request : Request} {error : ValidationError}
    (h : validate e.registry request.pluginId request.tools = .error error) (runId : String)
    (o : Options) (offered : Nat) (w : World) :
    e.run runId request o offered w = (reject (.start request.payload offered) error, w) := by
  simp only [run, h]

theorem run_rejected {e : Engine} {request : Request} {error : ValidationError}
    (h : validate e.registry request.pluginId request.tools = .error error) (runId : String)
    (o : Options) (offered : Nat) (w : World) :
    (e.run runId request o offered w).1.outcome = .error (.invalid error) := by
  rw [run_of_invalid h, reject_start]

theorem run_shows {e : Engine} {request : Request} {p : Plugin}
    (h : validate e.registry request.pluginId request.tools = .ok p)
    (hlen : Indexable request.tools) (runId : String) (o : Options) (offered : Nat) (w : World) :
    let k := Course.of p o .still request.payload w request.tools
    let ended := (e.run runId request o offered w).1
    ended.outcome = k.outcome p o request.payload ∧
      ended.trace.invocations = k.invocations request.payload := by
  intro k ended
  have hs := Stop.ended_past (e.context runId p o) request.payload (offered + ·)
    (offered + k.passed.length) k
  have he : ended = close _ (k.ended (e.context runId p o) request.payload offered) :=
    congrArg Prod.fst (run_eq h hlen runId o offered w)
  rw [he]
  exact ⟨(close_outcome _ _).trans hs.1, (close_invocations _ _).trans hs.2⟩

end Engine

end ToolPipeline
