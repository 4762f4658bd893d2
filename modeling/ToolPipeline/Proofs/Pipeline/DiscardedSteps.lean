import ToolPipeline.Proofs.Pipeline.SideBySide
import ToolPipeline.Proofs.Pipeline.Tally
import ToolPipeline.Proofs.Pipeline.Truncation

/-! Runs that keep no outputs go the way of runs that keep them, step by step. All that is missing
in the end is the list of outputs, and its length in the event that closes the run. -/

namespace ToolPipeline

def Options.withSteps (o : Options) : Options := { o with discardSteps := false }

def RunContext.withoutSteps (c : RunContext) : RunContext :=
  { c with options := c.options.withoutSteps }

def Outcome.bare : Outcome → Outcome
  | .ok r => .ok { r with steps := [] }
  | .error e => .error e
  | .panicked p => .panicked p

/-- What happened, without the number of outputs. -/
def Happening.uncounted : Happening → Happening
  | .completed _ elapsed => .completed 0 elapsed
  | h => h

def Trace.uncounted (t : Trace) : Trace := t.map Happening.uncounted

def Run.bare (r : Run) : Run := { r with steps := [], trace := r.trace.uncounted }

def Ended.bare (ended : Ended) : Ended :=
  { ended with outcome := ended.outcome.bare, trace := ended.trace.uncounted }

def Run.bareAfter : Except Ended Run → Except Ended Run
  | .ok r => .ok r.bare
  | .error ended => .error ended.bare

theorem Trace.uncounted_append (t u : Trace) :
    uncounted (t ++ u) = t.uncounted ++ u.uncounted := List.map_append

theorem Trace.uncounted_of_unclosed {t : Trace} (h : ∀ x ∈ t, x.isClosing = false) :
    t.uncounted = t := by
  refine (List.map_congr_left fun x hx => ?_).trans (List.map_id t)
  cases x with
  | completed => exact absurd (h _ hx) nofun
  | _ => rfl

theorem Run.note_bare (r : Run) (h : Happening) : r.bare.note h.uncounted = (r.note h).bare := by
  rw [note, note, bare, bare, Trace.uncounted_append]
  rfl

section
variable (c : RunContext) (r : Run)

theorem Run.moveTo_bare (next : State) : r.bare.moveTo next = bareAfter (r.moveTo next) := by
  unfold moveTo
  rw [show r.bare.state = r.state from rfl]
  cases r.state.advance next with
  | error p => rfl
  | ok state =>
    have hn := r.note_bare (.moved r.state next)
    exact congrArg (fun s : Run => Except.ok { s with state }) hn

theorem Run.endIn_bare (next : State) {f g : Run → Ended} (h : ∀ r, g r.bare = (f r).bare) :
    r.bare.endIn next g = (r.endIn next f).bare := by
  unfold endIn
  rw [moveTo_bare]
  cases r.moveTo next with
  | error ended => rfl
  | ok s => exact h s

theorem Run.enter_bare (tool : String) (w : World) :
    r.bare.enter c.withoutSteps tool w = bareAfter (r.enter c tool w) := by
  have hmove := r.moveTo_bare (.executing r.step)
  -- what interrupts a run does not depend on what it keeps
  have hi : c.withoutSteps.options.interruption w = c.options.interruption w := rfl
  unfold enter
  rw [hi, show r.bare.step = r.step from rfl, hmove]
  cases r.moveTo (.executing r.step) with
  | error ended => rfl
  | ok s =>
    simp only [bareAfter, bind, Except.bind]
    cases c.options.interruption w with
    | some reason =>
      refine congrArg _ (s.endIn_bare .cancelled fun s => ?_)
      have hn := s.note_bare (.stopped s.step tool reason)
      exact congrArg (·.finish (.error (.cancelled s.step reason))) hn
    | none => exact congrArg _ (s.note_bare (.invoked ⟨s.step, tool, s.payload⟩))

theorem Run.succeed_bare (tool : String) (elapsed : Nat) (output : Payload) :
    r.bare.succeed c.withoutSteps tool elapsed output =
      (r.succeed c tool elapsed output).bare := by
  let record := r.record c tool output
  have hf := r.note_bare (.finished r.step tool elapsed)
  have ho := (r.note (.finished r.step tool elapsed)).note_bare
    (.offered record (c.recorder.react r.offered record))
  rw [← hf] at ho
  have ht := congrArg Run.trace ho
  simp only [Run.succeed]
  exact congrArg (fun t : Trace => Run.mk r.state (r.step + 1) output [] (r.offered + 1) t) ht

theorem Run.leave_bare (tool : String) (call : Call) :
    r.bare.leave c.withoutSteps tool call = bareAfter (r.leave c tool call) := by
  unfold leave
  cases call.ending with
  | panicked p => rfl
  | failed e => exact congrArg _ (r.endIn_bare .failed fun _ => rfl)
  | returned v =>
    dsimp only
    cases v.asObject? with
    | none => exact congrArg _ (r.endIn_bare .failed fun _ => rfl)
    | some output => exact congrArg _ (r.succeed_bare c tool call.took output)

theorem Run.complete_bare : r.bare.complete = r.complete.bare :=
  r.endIn_bare .completed fun _ => rfl

theorem Engine.reject_bare (error : ValidationError) :
    reject r.bare error = (reject r error).bare :=
  r.endIn_bare .rejected fun r =>
    congrArg (·.finish (.error (.invalid error))) (r.note_bare (.rejected error))

end

theorem Engine.close_bare (elapsed : Nat) (ended : Ended) :
    close elapsed ended.bare = (close elapsed ended).bare := by
  obtain ⟨outcome, state, offered, trace⟩ := ended
  cases outcome with
  | ok r =>
    have ht := Trace.uncounted_append trace [.completed r.steps.length elapsed]
    exact congrArg (Ended.mk (.ok ⟨r.result, []⟩) state offered) ht.symm
  | error e =>
    have ht := Trace.uncounted_append trace [.failed e elapsed]
    exact congrArg (Ended.mk (.error e) state offered) ht.symm
  | panicked p => rfl

section
variable (c : RunContext) (r : Run)

theorem Run.through_bare (tools : List String) (w : World) :
    Run.through c.withoutSteps tools r.bare w =
      ((Run.through c tools r w).1.bare, (Run.through c tools r w).2) := by
  induction tools generalizing r w with
  | nil => exact congrArg (·, w) r.complete_bare
  | cons tool rest ih =>
    unfold Run.through
    rw [enter_bare]
    cases r.enter c tool w with
    | error ended => rfl
    | ok s =>
      have hl := s.leave_bare c tool (s.call c tool w)
      simp only [bareAfter, show s.bare.call c.withoutSteps tool w = s.call c tool w from rfl, hl]
      cases s.leave c tool (s.call c tool w) with
      | error ended => rfl
      | ok s' => exact ih s' _

theorem Run.execute_bare (tools : List String) (w : World) :
    Run.execute c.withoutSteps tools r.bare w =
      ((Run.execute c tools r w).1.bare, (Run.execute c tools r w).2) := by
  unfold Run.execute
  split
  · exact congrArg (·, w) (r.endIn_bare .rejected fun _ => rfl)
  · exact r.through_bare c tools w

end

theorem Engine.run_bare (e : Engine) (runId : String) (request : Request) (o : Options)
    (offered : Nat) (w : World) :
    e.run runId request o.withoutSteps offered w =
      ((e.run runId request o offered w).1.bare, (e.run runId request o offered w).2) := by
  unfold run
  cases validate e.registry request.pluginId request.tools with
  | error error => exact congrArg (·, w) (reject_bare (.start request.payload offered) error)
  | ok p =>
    have hx : Run.execute (e.context runId p o.withoutSteps) request.tools
        (.start request.payload offered) w = _ :=
      (Run.start request.payload offered).execute_bare (e.context runId p o) request.tools w
    dsimp only
    rw [hx]
    exact congrArg (·, _) (close_bare _ _)

def Job.withSteps (j : Job) : Job := { j with options := j.options.withSteps }

def Job.withoutSteps (j : Job) : Job := { j with options := j.options.withoutSteps }

namespace Progress

def bare : Progress → Progress
  | .fresh => .fresh
  | .between plugin rest r => .between plugin rest r.bare
  | .inside plugin tool rest r call => .inside plugin tool rest r.bare call
  | .over ended => .over ended.bare

section
variable (e : Engine) (j : Job)

theorem conclude_bare (now : Nat) (ended : Ended) :
    conclude j.withoutSteps now ended.bare = (conclude j now ended).bare :=
  congrArg Progress.over (Engine.close_bare (now - j.began) ended)

theorem begin_bare (offered : Nat) : begin e j.withoutSteps offered = (begin e j offered).bare := by
  unfold begin
  rw [show j.withoutSteps.request = j.request from rfl]
  cases validate e.registry j.request.pluginId j.request.tools with
  | error error =>
    exact congrArg Progress.over (Engine.reject_bare (.start j.request.payload offered) error)
  | ok plugin => rfl

theorem enter_bare (w : World) (plugin : Plugin) (rest : List String) (r : Run) :
    enter e j.withoutSteps w plugin rest r.bare = (enter e j w plugin rest r).bare := by
  cases rest with
  | nil =>
    unfold enter
    dsimp only
    rw [r.complete_bare]
    exact conclude_bare j w.now r.complete
  | cons tool rest =>
    have he : r.bare.enter (e.context j.runId plugin j.options.withoutSteps) tool w = _ :=
      r.enter_bare (e.context j.runId plugin j.options) tool w
    unfold enter
    dsimp only [Job.withoutSteps]
    rw [he]
    cases r.enter (e.context j.runId plugin j.options) tool w with
    | error ended => exact conclude_bare j w.now ended
    | ok s => rfl

theorem leave_bare (now : Nat) (plugin : Plugin) (tool : String) (rest : List String) (r : Run)
    (call : Call) : leave e j.withoutSteps now plugin tool rest r.bare call =
      (leave e j now plugin tool rest r call).bare := by
  have hl : r.bare.leave (e.context j.runId plugin j.options.withoutSteps) tool call = _ :=
    r.leave_bare (e.context j.runId plugin j.options) tool call
  unfold leave
  dsimp only [Job.withoutSteps]
  rw [hl]
  cases r.leave (e.context j.runId plugin j.options) tool call with
  | error ended => exact conclude_bare j now ended
  | ok s => rfl

theorem step?_bare (offered : Nat) (w : World) (p : Progress) :
    p.bare.step? e j.withoutSteps offered w =
      (p.step? e j offered w).map fun next => (next.1.bare, next.2) := by
  cases p with
  | fresh => exact congrArg (fun q => some (q, w)) (begin_bare e j offered)
  | between plugin rest r => exact congrArg (fun q => some (q, w)) (enter_bare e j w plugin rest r)
  | inside plugin tool rest r call =>
    exact congrArg (fun q => some (q, w.after call))
      (leave_bare e j (w.after call).now plugin tool rest { r with offered } call)
  | «over» ended => rfl

theorem after_bare (found : Nat → Nat × World) (n : Nat) :
    after e j.withoutSteps found n = (after e j found n).bare := by
  induction n with
  | zero => rfl
  | succ n ih =>
    unfold after
    rw [ih, step?_bare]
    cases (after e j found n).step? e j (found n).1 (found n).2 <;> rfl

end

end Progress

section
variable (t : Trace)

theorem Trace.uncounted_invocations : t.uncounted.invocations = t.invocations :=
  filterMap_map (fun x => by cases x <;> rfl) t

theorem Trace.uncounted_offers : t.uncounted.offers = t.offers :=
  filterMap_map (fun x => by cases x <;> rfl) t

theorem Trace.uncounted_transitions : t.uncounted.transitions = t.transitions :=
  filterMap_map (fun x => by cases x <;> rfl) t

end

/-- The same tools have been called on the same payloads, the recorder has been offered the same
records and has done the same with them, and the states are the same. -/
structure Trace.ShowsSame (t u : Trace) : Prop where
  invocations : t.invocations = u.invocations
  offers : t.offers = u.offers
  records : t.records = u.records
  transitions : t.transitions = u.transitions

theorem Trace.ShowsSame.of_offers {t u : Trace} (hi : t.invocations = u.invocations)
    (ho : t.offers = u.offers) (ht : t.transitions = u.transitions) : t.ShowsSame u :=
  ⟨hi, ho, by rw [records_eq_offers, records_eq_offers, ho], ht⟩

theorem Trace.uncounted_showsSame (t : Trace) : t.uncounted.ShowsSame t :=
  .of_offers t.uncounted_invocations t.uncounted_offers t.uncounted_transitions

theorem Progress.bare_showsSame (p : Progress) : p.bare.trace.ShowsSame p.trace := by
  cases p with
  | fresh => exact Trace.uncounted_showsSame []
  | between | inside | «over» => exact Trace.uncounted_showsSame _

/-- A run has ended without outputs, and in all else like one that has kept an output for each of
these tools. -/
structure Ended.OnlyLacksOutputs (bare kept : Ended) (tools : List String) : Prop where
  shows : bare.trace.ShowsSame kept.trace
  failed : ∀ error, bare.outcome = .error error ↔ kept.outcome = .error error
  broken : ∀ q, bare.outcome = .panicked q ↔ kept.outcome = .panicked q
  succeeded : ∀ result, (∃ steps, bare.outcome = .ok ⟨result, steps⟩) ↔
    ∃ steps, kept.outcome = .ok ⟨result, steps⟩
  lacking : ∀ r, bare.outcome = .ok r → r.steps = []
  keeping : ∀ r, kept.outcome = .ok r → r.steps.map StepOutput.tool = tools

theorem Ended.OnlyLacksOutputs.of_outcome {bare kept : Ended} {tools : List String}
    (ho : bare.outcome = kept.outcome.bare) (ht : bare.trace.ShowsSame kept.trace)
    (hk : ∀ r, kept.outcome = .ok r → r.steps.map StepOutput.tool = tools) :
    bare.OnlyLacksOutputs kept tools := by
  cases hk' : kept.outcome with
  | ok r =>
    obtain ⟨result, steps⟩ := r
    refine ⟨ht, ?_, ?_, ?_, ?_, hk⟩ <;> simp [ho, hk', Outcome.bare]
  | error | panicked =>
    refine ⟨ht, ?_, ?_, ?_, ?_, hk⟩ <;> simp [ho, hk', Outcome.bare]

theorem Ended.bare_onlyLacksOutputs {kept : Ended} {tools : List String}
    (hk : ∀ r, kept.outcome = .ok r → r.steps.map StepOutput.tool = tools) :
    kept.bare.OnlyLacksOutputs kept tools :=
  .of_outcome rfl kept.trace.uncounted_showsSame hk

/-- Courses of deterministic tools are the same whenever they are interrupted at the same steps for
the same reasons. The time that the steps take may differ. -/
theorem Course.from_untimed {p : Plugin} {o o' : Options} {drift drift' : Drift}
    (hp : p.Deterministic) (hi : ∀ step u v,
      o.interruption (drift step u) = o'.interruption (drift' step v))
    (step : Nat) (input : Payload) (w w' : World) (tools : List String) :
    let k := Course.from p o drift step input w tools
    let k' := Course.from p o' drift' step input w' tools
    k.passed.map Passage.untimed = k'.passed.map Passage.untimed ∧ k.stop = k'.stop := by
  induction tools generalizing step input w w' with
  | nil => exact ⟨rfl, rfl⟩
  | cons tool rest ih =>
    have hi' := hi step w w'
    have hc := hp.verdict_eq tool (drift step w).occasion (drift' step w').occasion input
    cases hr : o.interruption (drift step w) with
    | some reason =>
      rw [Course.from_interrupted hr, Course.from_interrupted (hi' ▸ hr)]
      exact ⟨rfl, rfl⟩
    | none =>
      cases hv : (p.call tool (drift step w).occasion input).verdict tool with
      | error stop =>
        rw [Course.from_stopped hr hv, Course.from_stopped (hi' ▸ hr) (hc ▸ hv)]
        exact ⟨rfl, rfl⟩
      | ok output =>
        rw [Course.from_passed hr hv, Course.from_passed (hi' ▸ hr) (hc ▸ hv)]
        exact (ih (step + 1) output _ _).imp_left (congrArg (_ :: ·))

section
variable {k k' : Course} (h : k.passed.map Passage.untimed = k'.passed.map Passage.untimed)
  (hstop : k.stop = k'.stop)
include h hstop

theorem Course.outcome_bare (p : Plugin) (o : Options) {o' : Options} (ho : o'.discardSteps = true)
    (payload : Payload) : k'.outcome p o' payload = (k.outcome p o payload).bare := by
  rw [outcome, outcome, result, result, ← hstop, ← length_congr h, ← handedOn_congr h, ho]
  cases k.stop <;> rfl

theorem Course.closed_onlyLacksOutputs (c : RunContext) {o : Options} (ho : o.discardSteps = true)
    (payload : Payload) (offers : Nat → Nat) (offered offered' elapsed elapsed' : Nat)
    {tools : List String}
    (hk : ∀ r, (k.closed c payload offers offered elapsed).outcome = .ok r →
      r.steps.map StepOutput.tool = tools) :
    (k'.closed { c with options := o } payload offers offered' elapsed').OnlyLacksOutputs
      (k.closed c payload offers offered elapsed) tools := by
  refine .of_outcome ?_ (.of_offers ?_ ?_ ?_) hk
  · rw [closed_outcome, closed_outcome]
    exact outcome_bare h hstop c.plugin c.options ho payload
  · rw [closed_invocations, closed_invocations]
    exact (invocations_congr h hstop payload).symm
  · rw [closed_offers, closed_offers]
    exact Passage.map_congr
      (f := fun s n => (s.record c n, c.recorder.react (offers n) (s.record c n)))
      (fun _ _ => rfl) h.symm
  · rw [closed, closed, Engine.close_transitions, Engine.close_transitions,
      Stop.ended_transitions, Stop.ended_transitions, path, path, hstop, length_congr h]

end

theorem Progress.over_steps {e : Engine} {j : Job} {found : Nat → Nat × World} {n : Nat}
    {ended : Ended} (h : after e j.withSteps found n = .over ended) (r : RunResult)
    (hr : ended.outcome = .ok r) : r.steps.map StepOutput.tool = j.request.tools := by
  have htallies := tallies_after e j.withSteps found n
  rw [h] at htallies
  obtain ⟨elapsed, hcloses⟩ := htallies
  exact hcloses.steps hr

theorem Progress.over_onlyLacksOutputs {e : Engine} {i j : Job} (hid : i.runId = j.runId)
    (hreq : i.request = j.request) (hlen : Indexable i.request.tools)
    (hp : ∀ p, e.registry.lookup i.request.pluginId = some p → p.Deterministic)
    {found found' : Nat → Nat × World} (hoffers : ∀ n, (found n).1 = (found' n).1)
    (hi : ∀ n, i.options.interruption (found n).2 = j.options.interruption (found' n).2) :
    ∃ kept bare, bare.OnlyLacksOutputs kept i.request.tools ∧
      ∀ n, 2 * i.request.tools.length + 2 ≤ n →
        after e i.withSteps found n = .over kept ∧
        after e j.withoutSteps found' n = .over bare := by
  obtain ⟨runId, request, o, began⟩ := i
  obtain ⟨_, _, o', began'⟩ := j
  obtain rfl : runId = _ := hid
  obtain rfl : request = _ := hreq
  let keeping : Job := Job.withSteps ⟨runId, request, o, began⟩
  let discarding : Job := Job.withoutSteps ⟨runId, request, o', began'⟩
  have hoff : offers found' = offers found := funext fun step => (hoffers (2 * step + 2)).symm
  cases hv : validate e.registry request.pluginId request.tools with
  | error error =>
    have hkept (n) (hn : 1 ≤ n) := over_of_invalid (j := keeping) found hv hn
    have hbare (n) (hn : 1 ≤ n) := over_of_invalid (j := discarding) found' hv hn
    refine ⟨_, _, ?_, fun n hn => ⟨hkept n (by omega), hbare n (by omega)⟩⟩
    exact .of_outcome rfl ⟨rfl, rfl, rfl, rfl⟩ nofun
  | ok p =>
    obtain ⟨elapsed, offered, hkept⟩ :=
      over_eq_of_validate (j := keeping) found hv hlen .initial
    obtain ⟨elapsed', offered', hbare⟩ :=
      over_eq_of_validate (j := discarding) found' hv hlen .initial
    have hdrift : ∀ step u v, keeping.options.interruption (drift found step u) =
        discarding.options.interruption (drift found' step v) := fun step _ _ => hi (2 * step + 1)
    obtain ⟨hpassed, hstop⟩ := Course.from_untimed (hp p (lookup_of_validate hv)) hdrift 0
      request.payload .initial .initial request.tools
    have hsteps := over_steps (j := ⟨runId, request, o, began⟩) (hkept _ (Nat.le_refl _))
    refine ⟨_, _, ?_, fun n hn => ⟨hkept n hn, hbare n hn⟩⟩
    -- both ends are those of closed courses, whose steps are the same but for their times
    rw [pastRun, pastRun, hoff]
    exact Course.closed_onlyLacksOutputs hpassed hstop (e.context runId p keeping.options)
      (o := discarding.options) rfl request.payload (offers found) offered offered' elapsed
      elapsed' hsteps

/-- Whether a run keeps its outputs decides nothing else about it. Without them it makes the same
calls on the same payloads, leaves the same records, moves through the same states and ends in the
same way, and at no time does it differ but in the outputs kept and in their number, which is logged
at its end. Two runs of deterministic tools need not even happen in the same worlds, if they are
interrupted at the same steps. -/
theorem discarding_drops_outputs_only :
    (∀ (c : RunContext) (tools : List String) (payload : Payload) (offered : Nat) (w : World),
      let keeping : RunContext := { c with options := c.options.withSteps }
      let kept := Run.execute keeping tools (.start payload offered) w
      let bare := Run.execute c.withoutSteps tools (.start payload offered) w
      bare.1.trace = kept.1.trace ∧ bare.1.state = kept.1.state ∧ bare.2 = kept.2 ∧
        bare.1.OnlyLacksOutputs kept.1 tools) ∧
    (∀ (e : Engine) (runId : String) (request : Request) (o : Options) (offered : Nat) (w : World),
      let kept := e.run runId request o.withSteps offered w
      let bare := e.run runId request o.withoutSteps offered w
      bare = (kept.1.bare, kept.2) ∧ bare.1.OnlyLacksOutputs kept.1 request.tools) ∧
    (∀ (e : Engine) (j : Job) (found : Nat → Nat × World) (n : Nat),
      let kept := Progress.after e j.withSteps found n
      let bare := Progress.after e j.withoutSteps found n
      bare = kept.bare ∧ bare.trace.ShowsSame kept.trace ∧
        ∀ ended, kept = .over ended → ended.bare.OnlyLacksOutputs ended j.request.tools) ∧
    ∀ (e : Engine) (i j : Job) (found found' : Nat → Nat × World),
      i.runId = j.runId → i.request = j.request → Indexable i.request.tools →
      (∀ p, e.registry.lookup i.request.pluginId = some p → p.Deterministic) →
      (∀ n, (found n).1 = (found' n).1) →
      (∀ n, i.options.interruption (found n).2 = j.options.interruption (found' n).2) →
      ∃ kept bare, bare.OnlyLacksOutputs kept i.request.tools ∧
        ∀ n, 2 * i.request.tools.length + 2 ≤ n →
          Progress.after e i.withSteps found n = .over kept ∧
          Progress.after e j.withoutSteps found' n = .over bare := by
  refine ⟨?_, ?_, ?_, ?_⟩
  · intro c tools payload offered w keeping kept bare
    have hbare : bare = (kept.1.bare, kept.2) :=
      (Run.start payload offered).execute_bare keeping tools w
    have htrace : kept.1.trace.uncounted = kept.1.trace :=
      Trace.uncounted_of_unclosed fun _ => Run.execute_unclosed
    rw [hbare]
    exact ⟨htrace, rfl, rfl, Ended.bare_onlyLacksOutputs fun r hr => Run.execute_steps hr⟩
  · intro e runId request o offered w kept bare
    have hbare : bare = (kept.1.bare, kept.2) := e.run_bare runId request o.withSteps offered w
    have hcloses := e.run_closes runId request o.withSteps offered w
    rw [hbare]
    exact ⟨rfl, Ended.bare_onlyLacksOutputs fun r hr => hcloses.steps hr⟩
  · intro e j found n kept bare
    have hbare : bare = kept.bare := Progress.after_bare e j.withSteps found n
    refine ⟨hbare, hbare ▸ kept.bare_showsSame, fun ended hover => ?_⟩
    exact Ended.bare_onlyLacksOutputs (Progress.over_steps hover)
  · intro e i j found found' hid hreq hlen hp hoffers hi
    exact Progress.over_onlyLacksOutputs hid hreq hlen hp hoffers hi

/-- Two runs of the same tools with twenty milliseconds left, the second one a while later and
without outputs. -/
theorem discarding_drops_outputs_only_later :
    let e : Engine := ⟨Registry.empty.register haltPlugin, .memory⟩
    let request : Request := ⟨"p", ["halt", "halt"], .empty⟩
    let i : Job := ⟨"r", request, Options.default.withDeadline 20, 0⟩
    let j : Job := ⟨"r", request, Options.default.withDeadline 120, 100⟩
    let found : Nat → Nat × World := fun n => (n, { World.initial with now := 2 * n })
    let found' : Nat → Nat × World := fun n => (n, { World.initial with now := 100 + 2 * n })
    i.runId = j.runId ∧ i.request = j.request ∧ Indexable i.request.tools ∧
    (∀ p, e.registry.lookup i.request.pluginId = some p → p.Deterministic) ∧
    (∀ n, (found n).1 = (found' n).1) ∧
    (∀ n, i.options.interruption (found n).2 = j.options.interruption (found' n).2) ∧
    ∃ kept bare, Progress.after e i.withSteps found 6 = .over kept ∧
      Progress.after e j.withoutSteps found' 6 = .over bare ∧
      kept.outcome = .ok ⟨.empty, [⟨"halt", .empty⟩, ⟨"halt", .empty⟩]⟩ ∧
      bare.outcome = .ok ⟨.empty, []⟩ ∧ bare.OnlyLacksOutputs kept ["halt", "halt"] := by
  intro e request i j found found'
  have hlen : Indexable i.request.tools := by decide
  have hp : ∀ p, e.registry.lookup i.request.pluginId = some p → p.Deterministic := by
    intro p h
    have hl : e.registry.lookup i.request.pluginId = some haltPlugin := rfl
    obtain rfl := Option.some.inj (hl.symm.trans h)
    exact haltPlugin_deterministic
  have hi : ∀ n, i.options.interruption (found n).2 = j.options.interruption (found' n).2 := by
    intro n
    have hd : (20 ≤ 2 * n) ↔ (120 ≤ 100 + 2 * n) := by omega
    simp [i, j, found, found', Options.interruption, Options.withDeadline, Options.default, hd]
  obtain ⟨-, -, -, hworlds⟩ := discarding_drops_outputs_only
  obtain ⟨kept, bare, hlacks, hover⟩ :=
    hworlds e i j found found' rfl rfl hlen hp (fun _ => rfl) hi
  obtain ⟨hkept, hbare⟩ := hover 6 (by decide)
  refine ⟨rfl, rfl, hlen, hp, fun _ => rfl, hi, kept, bare, hkept, hbare, ?_, ?_, hlacks⟩
  · cases hkept
    rfl
  · cases hbare
    rfl

end ToolPipeline
