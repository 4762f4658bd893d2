import ToolPipeline.Proofs.Pipeline.CourseAgreement
import ToolPipeline.Proofs.Pipeline.Tally

/-! The event that closes a run. Its outcome tells which one it is; it comes once, after everything
else, and not at all if a tool broke the run. -/

namespace ToolPipeline

def Log.Event.isClosing (e : Log.Event) : Bool :=
  e.message == "pipeline rejected" || e.message == "pipeline completed" ||
    e.message == "pipeline failed"

def Outcome.closing (elapsed : Nat) : Outcome → List Log.Event
  | .ok r =>
    [⟨.info, "vista_pipeline::engine", "pipeline completed",
      [("steps", .nat r.steps.length), ("elapsed_ms", .nat elapsed)]⟩]
  | .error (.invalid e) =>
    [⟨.info, "vista_pipeline::engine", "pipeline rejected", [("error", .text e.message)]⟩]
  | .error e =>
    [⟨.warn, "vista_pipeline::engine", "pipeline failed",
      [("code", .text e.code), ("error", .text e.message), ("elapsed_ms", .nat elapsed)]⟩]
  | .panicked _ => []

theorem Outcome.closing_isClosing {elapsed : Nat} {outcome : Outcome} :
    (outcome.closing elapsed).filter Log.Event.isClosing = outcome.closing elapsed := by
  rw [List.filter_eq_self]
  intro e he
  unfold closing at he
  split at he
  · rw [List.mem_singleton.mp he]
    rfl
  · rw [List.mem_singleton.mp he]
    rfl
  · rw [List.mem_singleton.mp he]
    rfl
  · cases he

/-- While a run goes on, only its recorder may log what looks as if it closed the run. -/
theorem Trace.closings_eq {t : Trace} (h : ∀ x ∈ t, x.isClosing = false) :
    t.events.filter Log.Event.isClosing =
      t.offers.flatMap fun o => o.2.events.filter Log.Event.isClosing := by
  induction t with
  | nil => rfl
  | cons x rest ih =>
    obtain ⟨hx, hrest⟩ := List.forall_mem_cons.mp h
    have ih := ih hrest
    rw [events] at ih
    rw [events, List.flatMap_cons, List.filter_append, ih]
    cases x with
    | offered r reaction =>
      cases hq : reaction.panic <;>
        simp [offers, Happening.events, hq, Recorder.brokeDown, Log.Event.isClosing]
    | moved | invoked | finished | stopped =>
      simp [offers, Happening.events, State.moved, Log.Event.isClosing]
    | rejected | completed | failed => cases hx

/-- Nothing that the recorder logs looks as if it closed a run. -/
def Recorder.Unclosing (recorder : Recorder) : Prop :=
  ∀ n r, ∀ e ∈ (recorder.react n r).events, e.isClosing = false

/-- Before the event that closes the run there is no other one like it, but for what the recorder
may have logged. -/
structure Ended.ClosedOnce (ended : Ended) (recorder : Recorder) (elapsed : Nat) : Prop where
  last : ∃ earlier, ended.trace.events = earlier ++ ended.outcome.closing elapsed ∧
    earlier.filter Log.Event.isClosing =
      ended.trace.offers.flatMap fun o => o.2.events.filter Log.Event.isClosing
  once : recorder.Unclosing →
    ended.trace.events.filter Log.Event.isClosing = ended.outcome.closing elapsed

/-- A run that has succeeded has called and recorded each of its tools once, in order. The number of
outputs, which its closing event gives, is that of the tools if and only if the outputs are kept. -/
def Ended.Counts (ended : Ended) (tools : List String) (o : Options) : Prop :=
  ∀ r, ended.outcome = .ok r →
    ended.trace.invocations.map Invocation.tool = tools ∧
    ended.trace.offers.map (·.1.tool) = tools ∧
    (r.steps.length = tools.length ↔ o.discardSteps = false) ∧
    (o.discardSteps = true → r.steps.length = 0)

theorem Ended.ClosedOnce.of_earlier {ended : Ended} {recorder : Recorder} {elapsed : Nat}
    {earlier : Trace} (hu : ∀ x ∈ earlier, x.isClosing = false)
    (hheard : ∀ o ∈ earlier.offers, ∃ n, o.2 = recorder.react n o.1)
    (ho : ended.trace.offers = earlier.offers)
    (he : ended.trace.events = earlier.events ++ ended.outcome.closing elapsed) :
    ended.ClosedOnce recorder elapsed := by
  have hc := Trace.closings_eq hu
  refine ⟨⟨earlier.events, he, by rw [hc, ho]⟩, fun hq => ?_⟩
  have hnone : earlier.offers.flatMap (fun o => o.2.events.filter Log.Event.isClosing) = [] := by
    rw [List.flatMap_eq_nil_iff]
    intro o hm
    obtain ⟨n, hn⟩ := hheard o hm
    rw [hn, List.filter_eq_nil_iff]
    exact fun e he => by simp [hq n o.1 e he]
  rw [he, List.filter_append, hc, hnone, Outcome.closing_isClosing, List.nil_append]

section
variable {e : Engine} {runId : String} {request : Request} {o : Options} {elapsed : Nat}
  {ended : Ended}

theorem Engine.close_events (hv : ∀ error, ended.outcome ≠ .error (.invalid error)) :
    (close elapsed ended).trace.events =
      ended.trace.events ++ ended.outcome.closing elapsed := by
  unfold close
  cases ho : ended.outcome with
  | ok r => simp [Trace.events, Happening.events, Outcome.closing]
  | error error =>
    cases error with
    | invalid error => exact absurd ho (hv error)
    | toolFailed | notAnObject | cancelled =>
      simp [Trace.events, Happening.events, Outcome.closing]
  | panicked q => simp [Outcome.closing]

theorem Engine.Closes.closedOnce (h : e.Closes runId request o elapsed ended) :
    ended.ClosedOnce e.recorder elapsed := by
  cases h with
  | refused offered hv =>
    rw [reject_start]
    have hu : ∀ x ∈ [Happening.moved .validating .rejected], x.isClosing = false := by
      simp [Happening.isClosing]
    exact .of_earlier hu (List.forall_mem_nil _) rfl rfl
  | @closed p ended hv h =>
    obtain ⟨called, recorded, ht⟩ := h.trace
    refine .of_earlier ht.unclosed ht.heard (close_offers _ _) ?_
    rw [close_events h.valid, close_outcome]

theorem Engine.Closes.counts (h : e.Closes runId request o elapsed ended) :
    ended.Counts request.tools o := by
  intro r hr
  have hlen := congrArg List.length (h.steps hr)
  rw [List.length_map] at hlen
  cases h with
  | refused offered hv => cases hr
  | closed hv h =>
    rw [close_outcome] at hr
    have ht := (h.succeeded r hr).1
    rw [close_invocations, close_offers]
    refine ⟨ht.calls, ht.records, ?_⟩
    cases hd : o.discardSteps with
    | false => simpa [hd] using hlen
    | true =>
      have hpos := List.length_pos_iff.mpr (ne_nil_of_validate hv)
      rw [hd, if_pos rfl, List.length_nil] at hlen
      exact ⟨⟨fun he => by omega, nofun⟩, fun _ => hlen⟩

end

theorem Recorder.log_unclosing : Recorder.log.Unclosing := by
  intro n r e he
  rw [List.mem_singleton.mp he]
  rfl

theorem Recorder.unclosing_of_mem {recorder : Recorder}
    (h : recorder ∈ [Recorder.memory, .none, .log]) : recorder.Unclosing := by
  simp only [List.mem_cons, List.not_mem_nil, or_false] at h
  rcases h with rfl | rfl | rfl
  · exact fun _ _ => nofun
  · exact fun _ _ => nofun
  · exact log_unclosing

/-- Every run that returns is closed by the event that its outcome tells, after everything else, and
a run that breaks is not closed. That event counts the tools of the run, all of which it has called
and recorded, if and only if the run keeps its outputs. -/
theorem runs_close_once (e : Engine) (runId : String) (request : Request) (o : Options) :
    (∀ (offered : Nat) (w : World),
      let ran := e.run runId request o offered w
      ran.1.ClosedOnce e.recorder (ran.2.now - w.now) ∧ ran.1.Counts request.tools o) ∧
    (∀ (began : Nat) (found : Nat → Nat × World) (n : Nat) (ended : Ended),
      Progress.after e ⟨runId, request, o, began⟩ found n = .over ended →
      (∃ elapsed, ended.ClosedOnce e.recorder elapsed) ∧ ended.Counts request.tools o) ∧
    (e.recorder ∈ [Recorder.memory, .none, .log] → e.recorder.Unclosing) := by
  refine ⟨?_, ?_, Recorder.unclosing_of_mem⟩
  · intro offered w ran
    have hcloses := e.run_closes runId request o offered w
    exact ⟨hcloses.closedOnce, hcloses.counts⟩
  · intro began found n ended hover
    have htallies := Progress.tallies_after e ⟨runId, request, o, began⟩ found n
    rw [hover] at htallies
    obtain ⟨elapsed, hcloses⟩ := htallies
    exact ⟨⟨elapsed, hcloses.closedOnce⟩, hcloses.counts⟩

/-- A run of two tools is closed by an event that counts both of them if their outputs are kept, and
none otherwise. -/
theorem runs_close_once_halted :
    let e : Engine := ⟨Registry.empty.register haltPlugin, .memory⟩
    let request : Request := ⟨"p", ["halt", "halt"], .empty⟩
    let keeping : Job := ⟨"r", request, .default, 0⟩
    let discarding : Job := ⟨"r", request, Options.default.withoutSteps, 0⟩
    let found : Nat → Nat × World := fun n => (0, { World.initial with now := 2 * n })
    let counted (steps elapsed : Nat) : Log.Event :=
      ⟨.info, "vista_pipeline::engine", "pipeline completed",
        [("steps", .nat steps), ("elapsed_ms", .nat elapsed)]⟩
    ∃ kept bare elapsed elapsed',
      Progress.after e keeping found 6 = .over kept ∧
      Progress.after e discarding found 6 = .over bare ∧
      kept.trace.events.filter Log.Event.isClosing = [counted 2 elapsed] ∧
      bare.trace.events.filter Log.Event.isClosing = [counted 0 elapsed'] ∧
      bare.trace.invocations.map Invocation.tool = ["halt", "halt"] := by
  intro e request keeping discarding found counted
  obtain ⟨kept, hkept⟩ : ∃ kept, Progress.after e keeping found 6 = .over kept := ⟨_, rfl⟩
  obtain ⟨bare, hbare⟩ : ∃ bare, Progress.after e discarding found 6 = .over bare := ⟨_, rfl⟩
  obtain ⟨-, hkeep, hmemory⟩ := runs_close_once e "r" request .default
  obtain ⟨-, hdiscard, -⟩ := runs_close_once e "r" request Options.default.withoutSteps
  obtain ⟨⟨elapsed, hk⟩, -⟩ := hkeep 0 found 6 kept hkept
  obtain ⟨⟨elapsed', hb⟩, hcounts⟩ := hdiscard 0 found 6 bare hbare
  have hquiet := hmemory List.mem_cons_self
  have ho : kept.outcome = .ok ⟨.empty, [⟨"halt", .empty⟩, ⟨"halt", .empty⟩]⟩ := by
    cases hkept
    rfl
  have ho' : bare.outcome = .ok ⟨.empty, []⟩ := by
    cases hbare
    rfl
  refine ⟨kept, bare, elapsed, elapsed', hkept, hbare, ?_, ?_, (hcounts _ ho').1⟩
  · rw [hk.once hquiet, ho]
    rfl
  · rw [hb.once hquiet, ho']
    rfl

/-- A run without outputs has called and recorded two tools, and nothing that it logs at its end
counts them. -/
theorem discarded_steps_uncounted :
    let e : Engine := ⟨Registry.empty.register haltPlugin, .memory⟩
    let request : Request := ⟨"p", ["halt", "halt"], .empty⟩
    let ran := (e.run "r" request Options.default.withoutSteps 0 .initial).1
    let counted (steps elapsed : Nat) : Log.Event :=
      ⟨.info, "vista_pipeline::engine", "pipeline completed",
        [("steps", .nat steps), ("elapsed_ms", .nat elapsed)]⟩
    ran.outcome = .ok ⟨.empty, []⟩ ∧
    ran.trace.invocations.length = request.tools.length ∧
    ran.trace.records.length = request.tools.length ∧
    ran.trace.events.filter Log.Event.isClosing = [counted 0 10] ∧
    ∀ elapsed, counted request.tools.length elapsed ∉ ran.trace.events := by
  intro e request ran counted
  have hclosing : ran.trace.events.filter Log.Event.isClosing = [counted 0 10] := rfl
  refine ⟨rfl, by decide, by decide, hclosing, fun elapsed hm => ?_⟩
  have hc : counted request.tools.length elapsed ∈ [counted 0 10] :=
    hclosing ▸ List.mem_filter.mpr ⟨hm, rfl⟩
  simp [counted, request, Log.Field.nat] at hc

end ToolPipeline
