import ToolPipeline.Pipeline.Progress
import ToolPipeline.Proofs.Pipeline.RunCourse

/-! A run that is taken step by step, while anything may happen to the world in between, keeps to
the course that the worlds at its steps decide. -/

namespace ToolPipeline

namespace Progress

section
variable (e : Engine) (j : Job) (found : Nat → Nat × World)

/-- The progress of a job after a number of steps; `found` tells how many records had been offered
and what the world was at each of them. -/
def after : Nat → Progress
  | 0 => .fresh
  | n + 1 =>
    match (after n).step? e j (found n).1 (found n).2 with
    | some (next, _) => next
    | none => after n

/-- The worlds in which the tools of the job are entered. -/
def drift : Drift := fun step _ => (found (2 * step + 1)).2

/-- How many records had been offered when the tool of a step was left. -/
def offers (step : Nat) : Nat := (found (2 * step + 2)).1

variable {e j found}

theorem after_succ {n : Nat} {q next : Progress} {v : World} (h : after e j found n = q)
    (hs : q.step? e j (found n).1 (found n).2 = some (next, v)) :
    after e j found (n + 1) = next := by
  simp [after, h, hs]

theorem after_over_of_le {m n : Nat} {ended : Ended} (hm : after e j found m = .over ended)
    (hmn : m ≤ n) : after e j found n = .over ended := by
  induction hmn with
  | refl => exact hm
  | step _ ih => simp [after, ih, step?]

def pastRun (e : Engine) (j : Job) (found : Nat → Nat × World) (p : Plugin) (offered : Nat)
    (passed : List Passage) : Run :=
  .past (e.context j.runId p j.options) j.request.payload (offers found) offered passed

/-- From between two steps on, a job ends as its course from there tells, within two steps for each
tool that is left. -/
theorem over_of_between {p : Plugin} {rest : List String} {passed : List Passage} {offered : Nat}
    (w : World) (hne : passed ≠ [] ∨ rest ≠ [])
    (hlen : passed.length + rest.length ≤ State.lastIndex)
    (h : after e j found (2 * passed.length + 1) =
      .between p rest (pastRun e j found p offered passed)) :
    let k := Course.from p j.options (drift found) passed.length
      (handedOn j.request.payload passed) w rest
    ∃ elapsed offered, after e j found (2 * (passed.length + rest.length) + 2) =
      .over (Engine.close elapsed (k.stop.ended (e.context j.runId p j.options)
        (pastRun e j found p offered (passed ++ k.passed)))) := by
  let c := e.context j.runId p j.options
  induction rest generalizing passed offered w with
  | nil =>
    have hp : passed ≠ [] := by simpa using hne
    have hd : after e j found (2 * passed.length + 2) = conclude j
        (found (2 * passed.length + 1)).2.now (pastRun e j found p offered passed).complete :=
      after_succ h rfl
    have hc : (pastRun e j found p offered passed).complete =
        Stop.finished.ended c (pastRun e j found p offered passed) := Run.complete_past hp offered
    rw [hc, conclude] at hd
    simp only [List.length_nil, Nat.add_zero, Course.from, List.append_nil]
    exact ⟨_, offered, hd⟩
  | cons tool rest ih =>
    intro k
    simp only [List.length_cons] at hlen ⊢
    let v := (found (2 * passed.length + 1)).2
    have hd : after e j found (2 * passed.length + 2) =
        enter e j v p (tool :: rest) (pastRun e j found p offered passed) := after_succ h rfl
    have he : (pastRun e j found p offered passed).enter c tool v = _ :=
      Run.enter_eq tool rfl (show passed.length ≤ State.lastIndex by omega) v
    cases hi : j.options.interruption v with
    | some reason =>
      have hk : k = ⟨[], .interrupted tool reason, v⟩ := Course.from_interrupted hi
      simp only [c, Engine.context, hi] at he
      simp only [enter, Engine.context, he, conclude] at hd
      rw [hk, List.append_nil]
      exact ⟨_, offered, after_over_of_le hd (by omega)⟩
    | none =>
      let call := p.call tool v.occasion (handedOn j.request.payload passed)
      let r := pastRun e j found p (offers found passed.length) passed
      simp only [c, Engine.context, hi] at he
      simp only [enter, Engine.context, he] at hd
      have hx : after e j found (2 * passed.length + 3) = leave e j
          ((found (2 * passed.length + 2)).2.after call).now p tool rest (r.entered tool) call :=
        after_succ hd rfl
      have hl : (r.entered tool).leave c tool call = _ := Run.leave_entered tool call
      cases hv : call.verdict tool with
      | error stop =>
        have hk : k = ⟨[], stop, v.after call⟩ := Course.from_stopped hi hv
        simp only [c, Engine.context, hv] at hl
        simp only [leave, Engine.context, hl, conclude] at hx
        rw [hk, List.append_nil]
        exact ⟨_, _, after_over_of_le hx (by omega)⟩
      | ok output =>
        let s : Passage := ⟨tool, handedOn j.request.payload passed, call.took, output⟩
        have hs : (r.entered tool).succeed c tool call.took output =
            pastRun e j found p (offers found passed.length + 1) (passed ++ [s]) :=
          Run.succeed_past passed tool call.took output
        have hk : k = _ := Course.from_passed hi hv
        simp only [hv, hs] at hl
        simp only [leave, show e.context j.runId p j.options = c from rfl, hl] at hx
        have hb : after e j found (2 * (passed ++ [s]).length + 1) =
            .between p rest
              (pastRun e j found p (offers found passed.length + 1) (passed ++ [s])) := by
          simpa only [List.length_append, List.length_singleton, Nat.mul_add] using hx
        obtain ⟨elapsed, offered', hh⟩ := ih (v.after call) (.inl (by simp))
          (by simp only [List.length_append, List.length_singleton]; omega) hb
        refine ⟨elapsed, offered', ?_⟩
        simp only [handedOn_append, List.length_append, List.length_singleton, List.append_assoc,
          List.singleton_append, s] at hh
        rw [hk, show passed.length + (rest.length + 1) = passed.length + 1 + rest.length by omega]
        exact hh

/-- However the worlds at its steps may differ, a job that is valid is over once each of its tools
has had its two steps, and it ends as the course tells that these worlds decide. -/
theorem over_eq_of_validate {p : Plugin} (found : Nat → Nat × World)
    (h : validate e.registry j.request.pluginId j.request.tools = .ok p)
    (hlen : Indexable j.request.tools) (w : World) :
    let k := Course.of p j.options (drift found) j.request.payload w j.request.tools
    ∃ elapsed offered, ∀ n, 2 * j.request.tools.length + 2 ≤ n → after e j found n =
      .over (Engine.close elapsed (k.stop.ended (e.context j.runId p j.options)
        (pastRun e j found p offered k.passed))) := by
  have hb : after e j found 1 =
      .between p j.request.tools (pastRun e j found p (found 0).1 []) := by
    simp only [after, step?, begin, h]
    rw [pastRun, ← Run.start_eq_past]
  have hlen' : ([] : List Passage).length + j.request.tools.length ≤ State.lastIndex := by
    simpa [Indexable] using hlen
  obtain ⟨elapsed, offered, hd⟩ := over_of_between w (.inr (ne_nil_of_validate h)) hlen' hb
  simp only [List.length_nil, Nat.zero_add, List.nil_append] at hd
  exact ⟨elapsed, offered, fun n hn => after_over_of_le hd hn⟩

theorem over_of_validate {p : Plugin} (found : Nat → Nat × World)
    (h : validate e.registry j.request.pluginId j.request.tools = .ok p)
    (hlen : Indexable j.request.tools) (w : World) :
    let k := Course.of p j.options (drift found) j.request.payload w j.request.tools
    ∃ ended, (∀ n, 2 * j.request.tools.length + 2 ≤ n → after e j found n = .over ended) ∧
      ended.outcome = k.outcome p j.options j.request.payload ∧
      ended.trace.invocations = k.invocations j.request.payload := by
  obtain ⟨elapsed, offered, hd⟩ := over_eq_of_validate found h hlen w
  refine ⟨_, hd, ?_, ?_⟩
  · rw [Engine.close_outcome]
    exact (Stop.ended_past _ _ _ _ _).1
  · rw [Engine.close_invocations]
    exact (Stop.ended_past _ _ _ _ _).2

theorem over_of_invalid {error : ValidationError} (found : Nat → Nat × World)
    (h : validate e.registry j.request.pluginId j.request.tools = .error error) {n : Nat}
    (hn : 1 ≤ n) : after e j found n =
      .over (Engine.reject (.start j.request.payload (found 0).1) error) := by
  refine after_over_of_le (m := 1) ?_ hn
  simp only [after, step?, begin, h]

end

end Progress

end ToolPipeline
