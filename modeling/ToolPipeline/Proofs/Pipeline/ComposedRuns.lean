import ToolPipeline.Proofs.Pipeline.Steady

/-! Runs one after the other. Tools that go by their payload give the same whether a list of them is
run at once or in two parts, the second on the result of the first; only the steps of the second
part are counted on. -/

namespace ToolPipeline

def PipelineError.later (n : Nat) : PipelineError → PipelineError
  | .invalid e => .invalid e
  | .toolFailed pluginId tool step source => .toolFailed pluginId tool (step + n) source
  | .notAnObject pluginId tool step found => .notAnObject pluginId tool (step + n) found
  | .cancelled step reason => .cancelled (step + n) reason

/-- The outcome of a run of `n` tools that goes on with others on its result, if it has one. -/
def Outcome.andThen (first : Outcome) (n : Nat) (second : RunResult → Outcome) : Outcome :=
  match first with
  | .ok r =>
    match second r with
    | .ok r' => .ok ⟨r'.result, r.steps ++ r'.steps⟩
    | .error e => .error (e.later n)
    | .panicked q => .panicked q
  | stopped => stopped

section
variable {first : Outcome} {n : Nat} {second : RunResult → Outcome}

theorem Outcome.andThen_of_ne_ok (h : ∀ r, first ≠ .ok r) : first.andThen n second = first := by
  cases first with
  | ok r => exact absurd rfl (h r)
  | error | panicked => rfl

theorem Outcome.andThen_eq_ok_iff {r : RunResult} : first.andThen n second = .ok r ↔
    ∃ r₁ r₂, first = .ok r₁ ∧ second r₁ = .ok r₂ ∧ r = ⟨r₂.result, r₁.steps ++ r₂.steps⟩ := by
  cases first with
  | ok r₁ => cases h : second r₁ <;> simp [Outcome.andThen, h, eq_comm]
  | error | panicked => simp [Outcome.andThen]

theorem Outcome.andThen_eq_panicked_iff {q : Panic} : first.andThen n second = .panicked q ↔
    first = .panicked q ∨ ∃ r₁, first = .ok r₁ ∧ second r₁ = .panicked q := by
  cases first with
  | ok r₁ => cases h : second r₁ <;> simp [Outcome.andThen, h]
  | error | panicked => simp [Outcome.andThen]

theorem Outcome.andThen_of_error {error : PipelineError} (h : first = .error error) :
    first.andThen n second = .error error := by
  rw [h]
  rfl

theorem Outcome.andThen_of_later_error {r₁ : RunResult} {error : PipelineError}
    (h₁ : first = .ok r₁) (h₂ : second r₁ = .error error) :
    first.andThen n second = .error (error.later n) := by
  simp only [h₁, Outcome.andThen, h₂]

end

/-- No check has found a reason to stop the run. -/
def Outcome.Uninterrupted (outcome : Outcome) : Prop :=
  ∀ step reason, outcome ≠ .error (.cancelled step reason)

def lastOutput (payload : Payload) (steps : List StepOutput) : Payload :=
  ((steps.getLast?).map StepOutput.output).getD payload

theorem lastOutput_cons (payload : Payload) (s : StepOutput) (steps : List StepOutput) :
    lastOutput payload (s :: steps) = lastOutput s.output steps := by
  cases h : steps.getLast? <;> simp [lastOutput, List.getLast?_cons, h]

theorem lastOutput_append (payload : Payload) (steps later : List StepOutput) :
    lastOutput payload (steps ++ later) = lastOutput (lastOutput payload steps) later := by
  induction steps generalizing payload with
  | nil => rfl
  | cons s steps ih => rw [List.cons_append, lastOutput_cons, lastOutput_cons, ih]

namespace Plugin

variable {p : Plugin} {input : Payload} {a b : List String}

theorem chain_append_of_stopped (h : (p.chain input a).2 ≠ .finished) :
    p.chain input (a ++ b) = p.chain input a := by
  induction a generalizing input with
  | nil => exact absurd rfl h
  | cons tool rest ih =>
    unfold chain at h
    rw [List.cons_append, chain, chain]
    cases hv : (p.call tool .first input).verdict tool with
    | error stop => rfl
    | ok output =>
      simp only [hv] at h
      simp only [ih h]

theorem chain_append_of_finished (h : (p.chain input a).2 = .finished) :
    let first := (p.chain input a).1
    let later := p.chain (lastOutput input first) b
    p.chain input (a ++ b) = (first ++ later.1, later.2) := by
  induction a generalizing input with
  | nil => rfl
  | cons tool rest ih =>
    unfold chain at h
    rw [List.cons_append, chain, chain]
    cases hv : (p.call tool .first input).verdict tool with
    | error stop =>
      have hs := Call.called?_of_verdict hv
      simp only [hv] at h
      simp [h, Stop.called?] at hs
    | ok output =>
      simp only [hv] at h
      simp only [ih h, lastOutput_cons, List.cons_append]

theorem length_chain (h : (p.chain input a).2 = .finished) :
    (p.chain input a).1.length = a.length := by
  have ht := congrArg List.length (chain_tools h)
  rwa [List.length_map] at ht

/-- The outcome of tools that are called one after the other. -/
def settle (p : Plugin) (discard : Bool) (payload : Payload) (tools : List String) : Outcome :=
  let (steps, stop) := p.chain payload tools
  stop.outcome p steps.length ⟨lastOutput payload steps, if discard then [] else steps⟩

end Plugin

theorem Stop.outcome_ne_ok {stop : Stop} (h : stop ≠ .finished) (p : Plugin) (step : Nat)
    (r r' : RunResult) : stop.outcome p step r ≠ .ok r' := by
  cases stop with
  | finished => exact absurd rfl h
  | interrupted | failed | notAnObject | panicked => exact nofun

/-- A stop in the second part of a run is counted on from the end of the first. -/
theorem Stop.outcome_andThen (p : Plugin) (n step : Nat) (r later : RunResult) (stop : Stop) :
    (Outcome.ok r).andThen n (fun _ => stop.outcome p step later) =
      stop.outcome p (n + step) ⟨later.result, r.steps ++ later.steps⟩ := by
  cases stop <;> simp [Outcome.andThen, Stop.outcome, PipelineError.later, Nat.add_comm]

theorem Plugin.settle_append (p : Plugin) (discard : Bool) (payload : Payload)
    (a b : List String) :
    p.settle discard payload (a ++ b) =
      (p.settle discard payload a).andThen a.length fun r => p.settle discard r.result b := by
  by_cases h : (p.chain payload a).2 = .finished
  · have hlen := length_chain h
    have hfirst : p.settle discard payload a =
        .ok ⟨lastOutput payload (p.chain payload a).1,
          if discard then [] else (p.chain payload a).1⟩ := by
      simp only [settle, h, Stop.outcome]
    rw [hfirst]
    refine Eq.trans ?_ (Stop.outcome_andThen p a.length _ _ _ _).symm
    rw [settle, chain_append_of_finished h]
    cases discard <;> simp [lastOutput_append, hlen]
  · have hstop : ∀ r, p.settle discard payload a ≠ .ok r := fun r => Stop.outcome_ne_ok h p _ _ r
    rw [Outcome.andThen_of_ne_ok hstop, settle, settle, chain_append_of_stopped h]

/-- Runs of the same plugin that both keep the outputs of their steps or both leave them out. -/
structure RunContext.Alike (c d : RunContext) : Prop where
  plugin : c.plugin = d.plugin
  discard : c.options.discardSteps = d.options.discardSteps

section
variable {c : RunContext} {tools : List String} {payload : Payload} {offered : Nat} {w : World}

theorem Run.execute_settled (hp : c.plugin.Deterministic) (hne : tools ≠ [])
    (hlen : Indexable tools)
    (hu : (Run.execute c tools (.start payload offered) w).1.outcome.Uninterrupted) :
    (Run.execute c tools (.start payload offered) w).1.outcome =
      c.plugin.settle c.options.discardSteps payload tools := by
  let k := Course.of c.plugin c.options .still payload w tools
  have hout : (Run.execute c tools (.start payload offered) w).1.outcome =
      k.outcome c.plugin c.options payload := by
    rw [Run.execute_eq c payload hne hlen offered w]
    rfl
  have hstop (tool : String) (reason : CancelReason) : k.stop ≠ .interrupted tool reason := by
    intro hs
    refine hu k.passed.length reason ?_
    rw [hout, Course.outcome, hs]
    rfl
  have hchain : (k.passed.map Passage.stepOutput, k.stop) = c.plugin.chain payload tools :=
    Course.from_eq_chain hp 0 payload w tools hstop
  simp only [hout, Plugin.settle, ← hchain, Course.outcome, Course.result, handedOn_eq,
    List.length_map, lastOutput]

end

/-- Running two lists of deterministic tools at once gives what running the second one on the result
of the first gives: all steps if both succeed, the error of the first, or the error of the second
with its step counted on. Nothing but the payload passes from one to the other. -/
theorem runs_compose (c c₁ c₂ : RunContext) (hc₁ : c₁.Alike c) (hc₂ : c₂.Alike c)
    (hp : c.plugin.Deterministic) (a b : List String) (ha : a ≠ []) (hb : b ≠ [])
    (hlen : Indexable (a ++ b)) (payload : Payload) (offered offered₁ offered₂ : Nat)
    (w w₁ w₂ : World) :
    let whole := (Run.execute c (a ++ b) (.start payload offered) w).1.outcome
    let first := (Run.execute c₁ a (.start payload offered₁) w₁).1.outcome
    let second := fun (r : RunResult) =>
      (Run.execute c₂ b (.start r.result offered₂) w₂).1.outcome
    whole.Uninterrupted → first.Uninterrupted →
    (∀ r₁, first = .ok r₁ → (second r₁).Uninterrupted) →
      (∀ r, whole = .ok r ↔ ∃ r₁ r₂, first = .ok r₁ ∧ second r₁ = .ok r₂ ∧
        r = ⟨r₂.result, r₁.steps ++ r₂.steps⟩) ∧
      (∀ error, first = .error error → whole = .error error) ∧
      (∀ r₁ error, first = .ok r₁ → second r₁ = .error error →
        whole = .error (error.later a.length)) ∧
      ∀ q, whole = .panicked q ↔
        first = .panicked q ∨ ∃ r₁, first = .ok r₁ ∧ second r₁ = .panicked q := by
  intro whole first second hwhole hfirst hsecond
  have hla : Indexable a := Nat.le_trans (by simp) hlen
  have hlb : Indexable b := Nat.le_trans (by simp) hlen
  have hne : a ++ b ≠ [] := by simp [ha]
  let discard := c.options.discardSteps
  have hw : whole = c.plugin.settle discard payload (a ++ b) :=
    Run.execute_settled hp hne hlen hwhole
  have hf : first = c.plugin.settle discard payload a := by
    have hh : first = c₁.plugin.settle c₁.options.discardSteps payload a :=
      Run.execute_settled (hc₁.plugin ▸ hp) ha hla hfirst
    rw [hh, hc₁.plugin, hc₁.discard]
  have hs (r₁ : RunResult) (h : first = .ok r₁) :
      second r₁ = c.plugin.settle discard r₁.result b := by
    have hh : second r₁ = c₂.plugin.settle c₂.options.discardSteps r₁.result b :=
      Run.execute_settled (hc₂.plugin ▸ hp) hb hlb (hsecond r₁ h)
    rw [hh, hc₂.plugin, hc₂.discard]
  have hcomposed : whole = first.andThen a.length second := by
    rw [hw, Plugin.settle_append, ← hf]
    cases hout : first with
    | ok r₁ => simp only [Outcome.andThen, hs r₁ hout]
    | error | panicked => rfl
  refine ⟨fun r => ?_, fun error h => ?_, fun r₁ error h₁ h₂ => ?_, fun q => ?_⟩
  · rw [hcomposed, Outcome.andThen_eq_ok_iff]
  · rw [hcomposed, Outcome.andThen_of_error h]
  · rw [hcomposed, Outcome.andThen_of_later_error h₁ h₂]
  · rw [hcomposed, Outcome.andThen_eq_panicked_iff]

/-- The second of the last two tools fails: at step 1 of their own run, and at step 2 of the
whole. -/
theorem runs_compose_failing :
    let c : RunContext := ⟨"r", DebugTools.plugin, .default, .memory⟩
    let d : RunContext := ⟨"s", DebugTools.plugin, Options.default.withDeadline 9, .log⟩
    let outcome := fun (c : RunContext) tools payload =>
      (Run.execute c tools (.start payload 0) .initial).1.outcome
    let fails := fun step =>
      Outcome.error (.toolFailed "debug" "fail" step (.failed "debug.fail always fails"))
    ∃ r₁, d.Alike c ∧ c.plugin.Deterministic ∧ Indexable (["trace"] ++ ["trace", "fail"]) ∧
      outcome d ["trace"] .empty = .ok r₁ ∧
      outcome c ["trace", "fail"] r₁.result = fails 1 ∧
      (outcome c (["trace"] ++ ["trace", "fail"]) .empty).Uninterrupted ∧
      outcome c (["trace"] ++ ["trace", "fail"]) .empty = fails 2 := by
  intro c d outcome fails
  have hdc : d.Alike c := ⟨rfl, rfl⟩
  have hp : c.plugin.Deterministic := DebugTools.plugin_steady.deterministic
  have hlen : Indexable (["trace"] ++ ["trace", "fail"]) := by decide
  have hwhole : (outcome c (["trace"] ++ ["trace", "fail"]) .empty).Uninterrupted := nofun
  have hfirst : (outcome d ["trace"] .empty).Uninterrupted := nofun
  have hsecond (r₁ : RunResult) (h : outcome d ["trace"] .empty = .ok r₁) :
      (outcome c ["trace", "fail"] r₁.result).Uninterrupted := by
    cases h
    exact nofun
  have hcomposed := runs_compose c d c hdc ⟨rfl, rfl⟩ hp ["trace"] ["trace", "fail"]
    (List.cons_ne_nil _ _) (List.cons_ne_nil _ _) hlen .empty 0 0 0 .initial .initial .initial
    hwhole hfirst hsecond
  obtain ⟨-, -, hlater, -⟩ := hcomposed
  exact ⟨_, hdc, hp, hlen, rfl, rfl, hwhole, hlater _ _ rfl rfl⟩

end ToolPipeline
