import ToolPipeline.Proofs.Pipeline.Interruption
import ToolPipeline.Proofs.Pipeline.Offers

/-! The tally of a run. Every tool that the run is done with has been called once and recorded once,
and has left one output if outputs are kept; nothing has closed the run as long as it goes on. -/

namespace ToolPipeline

def Happening.isClosing : Happening → Bool
  | .rejected _ | .completed .. | .failed .. => true
  | _ => false

/-- The tools that have been called, and those that have been recorded, in order. The recorder has
heard of the latter. -/
structure Trace.Tallies (c : RunContext) (called recorded : List String) (t : Trace) : Prop where
  calls : t.invocations.map Invocation.tool = called
  records : t.offers.map (·.1.tool) = recorded
  heard : ∀ o ∈ t.offers, ∃ n, o.2 = c.recorder.react n o.1
  unclosed : ∀ h ∈ t, h.isClosing = false

/-- A run that has called some tools and is done with others. -/
structure Run.Tallies (c : RunContext) (called done : List String) (r : Run) : Prop where
  trace : r.trace.Tallies c called done
  steps : r.steps.map StepOutput.tool = if c.options.discardSteps then [] else done

/-- A run that has ended and has not been closed yet. If it succeeded it is done with its tools. -/
structure Ended.Tallies (c : RunContext) (tools : List String) (ended : Ended) : Prop where
  trace : ∃ called recorded, ended.trace.Tallies c called recorded
  valid : ∀ error, ended.outcome ≠ .error (.invalid error)
  succeeded : ∀ result, ended.outcome = .ok result → ended.trace.Tallies c tools tools ∧
    result.steps.map StepOutput.tool = if c.options.discardSteps then [] else tools

section
variable {c : RunContext} {called recorded done tools rest : List String} {t : Trace} {r : Run}
  {tool : String}

theorem Trace.Tallies.concat (ht : t.Tallies c called recorded) {h : Happening}
    (hi : Trace.invocations [h] = []) (ho : Trace.offers [h] = []) (hc : h.isClosing = false) :
    Trace.Tallies c called recorded (t ++ [h]) where
  calls := by rw [invocations_append, hi, List.append_nil, ht.calls]
  records := by rw [offers_append, ho, List.append_nil, ht.records]
  heard := by
    rw [offers_append, ho, List.append_nil]
    exact ht.heard
  unclosed := List.forall_mem_append.mpr ⟨ht.unclosed, by simpa using hc⟩

theorem Trace.Tallies.call (ht : t.Tallies c called recorded) (i : Invocation) :
    Trace.Tallies c (called ++ [i.tool]) recorded (t ++ [.invoked i]) where
  calls := by
    rw [invocations_append, List.map_append, ht.calls]
    rfl
  records := by
    rw [offers_append, ← ht.records]
    exact congrArg _ (List.append_nil _)
  heard := by
    rw [offers_append]
    exact List.forall_mem_append.mpr ⟨ht.heard, nofun⟩
  unclosed := List.forall_mem_append.mpr ⟨ht.unclosed, by simp [Happening.isClosing]⟩

theorem Trace.Tallies.record (ht : t.Tallies c called recorded) (record : StepRecord) (n : Nat) :
    Trace.Tallies c called (recorded ++ [record.tool])
      (t ++ [.offered record (c.recorder.react n record)]) where
  calls := by
    rw [invocations_append, ← ht.calls]
    exact congrArg _ (List.append_nil _)
  records := by
    rw [offers_append, List.map_append, ht.records]
    rfl
  heard := by
    rw [offers_append]
    exact List.forall_mem_append.mpr ⟨ht.heard, List.forall_mem_singleton.mpr ⟨n, rfl⟩⟩
  unclosed := List.forall_mem_append.mpr ⟨ht.unclosed, by simp [Happening.isClosing]⟩

theorem Ended.Tallies.of_trace {ended : Ended} (ht : ended.trace.Tallies c called recorded)
    (hv : ∀ error, ended.outcome ≠ .error (.invalid error))
    (ho : ∀ result, ended.outcome ≠ .ok result) : ended.Tallies c tools :=
  ⟨⟨called, recorded, ht⟩, hv, fun result h => absurd h (ho result)⟩

namespace Run.Tallies

theorem moveTo (h : r.Tallies c called done) (tools : List String) (next : State) :
    (∀ r', r.moveTo next = .ok r' → r'.Tallies c called done) ∧
    ∀ ended, r.moveTo next = .error ended → ended.Tallies c tools := by
  unfold Run.moveTo
  split
  · refine ⟨nofun, fun ended he => ?_⟩
    cases he
    exact .of_trace h.trace nofun nofun
  · refine ⟨fun r' he => ?_, nofun⟩
    cases he
    exact ⟨h.trace.concat (h := .moved _ next) rfl rfl rfl, h.steps⟩

theorem endIn (h : r.Tallies c called done) (next : State) {outcome : Run → Ended}
    (ho : ∀ r', r'.Tallies c called done → (outcome r').Tallies c tools) :
    (r.endIn next outcome).Tallies c tools := by
  have hmove := h.moveTo tools next
  unfold Run.endIn
  split
  · next ended he => exact hmove.2 ended he
  · next r' he => exact ho r' (hmove.1 r' he)

theorem enter (h : r.Tallies c called done) (tools : List String) (tool : String) (w : World) :
    (∀ r', r.enter c tool w = .ok r' → r'.Tallies c (called ++ [tool]) done) ∧
    ∀ ended, r.enter c tool w = .error ended → ended.Tallies c tools := by
  have hmove := h.moveTo tools (.executing r.step)
  unfold Run.enter
  cases hm : r.moveTo (.executing r.step) with
  | error ended =>
    refine ⟨nofun, fun e he => ?_⟩
    cases he
    exact hmove.2 ended hm
  | ok s =>
    have hs := hmove.1 s hm
    simp only [bind, Except.bind]
    split
    · next reason hi =>
      refine ⟨nofun, fun e he => ?_⟩
      cases he
      refine hs.endIn .cancelled fun r' hr' => ?_
      have ht := hr'.trace.concat (h := .stopped r'.step tool reason) rfl rfl rfl
      exact .of_trace ht nofun nofun
    · refine ⟨fun r' he => ?_, nofun⟩
      cases he
      exact ⟨hs.trace.call ⟨s.step, tool, s.payload⟩, hs.steps⟩

theorem succeed (h : r.Tallies c called done) (tool : String) (elapsed : Nat) (output : Payload) :
    (r.succeed c tool elapsed output).Tallies c called (done ++ [tool]) where
  trace := (h.trace.concat (h := .finished r.step tool elapsed) rfl rfl rfl).record
    (r.record c tool output) r.offered
  steps := by
    have hs := h.steps
    simp only [Run.succeed]
    split
    · next hd => simpa [hd, Run.note] using hs
    · next hd => simpa [hd, Run.note] using hs

theorem leave (h : r.Tallies c called done) (tools : List String) (tool : String) (call : Call) :
    (∀ r', r.leave c tool call = .ok r' → r'.Tallies c called (done ++ [tool])) ∧
    ∀ ended, r.leave c tool call = .error ended → ended.Tallies c tools := by
  unfold Run.leave
  split
  · refine ⟨nofun, fun ended he => ?_⟩
    cases he
    exact .of_trace h.trace nofun nofun
  · refine ⟨nofun, fun ended he => ?_⟩
    cases he
    exact h.endIn .failed fun r' hr' => .of_trace hr'.trace nofun nofun
  · split
    · refine ⟨nofun, fun ended he => ?_⟩
      cases he
      exact h.endIn .failed fun r' hr' => .of_trace hr'.trace nofun nofun
    · refine ⟨fun r' he => ?_, nofun⟩
      cases he
      exact h.succeed tool call.took _

theorem complete (h : r.Tallies c tools tools) : r.complete.Tallies c tools := by
  refine h.endIn .completed fun r' hr' => ⟨⟨tools, tools, hr'.trace⟩, nofun, fun result ho => ?_⟩
  cases ho
  exact ⟨hr'.trace, hr'.steps⟩

theorem through (h : r.Tallies c done done) (ht : tools = done ++ rest) (w : World) :
    (Run.through c rest r w).1.Tallies c tools := by
  -- between two tools those that have been called are those that are done
  induction rest generalizing r done w with
  | nil =>
    rw [List.append_nil] at ht
    exact complete (ht ▸ h)
  | cons tool rest ih =>
    have henter := h.enter tools tool w
    unfold Run.through
    split
    · next ended he => exact henter.2 ended he
    · next s he =>
      have hleave := (henter.1 s he).leave tools tool (s.call c tool w)
      dsimp only
      split
      · next ended hl => exact hleave.2 ended hl
      · next r' hl => exact ih (hleave.1 r' hl) (by simpa using ht) _

theorem start (c : RunContext) (payload : Payload) (offered : Nat) :
    (Run.start payload offered).Tallies c [] [] :=
  ⟨⟨rfl, rfl, nofun, nofun⟩, by simp [Run.start]⟩

end Run.Tallies

end

section
variable {c : RunContext} {tools : List String} {payload : Payload} {offered : Nat} {w : World}

theorem Run.execute_tallies (hne : tools ≠ []) :
    (Run.execute c tools (.start payload offered) w).1.Tallies c tools := by
  unfold execute
  rw [if_neg hne]
  exact (Tallies.start c payload offered).through (List.nil_append tools).symm w

theorem Run.execute_steps {r : RunResult}
    (hr : (Run.execute c tools (.start payload offered) w).1.outcome = .ok r) :
    r.steps.map StepOutput.tool = if c.options.discardSteps then [] else tools := by
  cases tools with
  | nil => cases hr
  | cons tool rest => exact ((execute_tallies (List.cons_ne_nil tool rest)).succeeded r hr).2

theorem Run.execute_unclosed {h : Happening}
    (hm : h ∈ (Run.execute c tools (.start payload offered) w).1.trace) : h.isClosing = false := by
  cases tools with
  | nil =>
    rw [List.mem_singleton.mp hm]
    rfl
  | cons tool rest =>
    obtain ⟨called, recorded, ht⟩ := (execute_tallies (List.cons_ne_nil tool rest)).trace
    exact ht.unclosed h hm

end

/-- A run that is over: refused by the checks, or closed after so many milliseconds. -/
inductive Engine.Closes (e : Engine) (runId : String) (request : Request) (o : Options)
    (elapsed : Nat) : Ended → Prop
  | refused {error : ValidationError} (offered : Nat)
    (hv : validate e.registry request.pluginId request.tools = .error error) :
    Closes e runId request o elapsed (reject (.start request.payload offered) error)
  | closed {p : Plugin} {ended : Ended}
    (hv : validate e.registry request.pluginId request.tools = .ok p)
    (h : ended.Tallies (e.context runId p o) request.tools) :
    Closes e runId request o elapsed (close elapsed ended)

theorem Engine.run_closes (e : Engine) (runId : String) (request : Request) (o : Options)
    (offered : Nat) (w : World) :
    let ran := e.run runId request o offered w
    e.Closes runId request o (ran.2.now - w.now) ran.1 := by
  cases hv : validate e.registry request.pluginId request.tools with
  | error error =>
    rw [run_of_invalid hv]
    exact .refused offered hv
  | ok p =>
    simp only [run, hv]
    exact .closed hv (Run.execute_tallies (ne_nil_of_validate hv))

theorem Engine.Closes.steps {e : Engine} {runId : String} {request : Request} {o : Options}
    {elapsed : Nat} {ended : Ended} (h : e.Closes runId request o elapsed ended) {r : RunResult}
    (hr : ended.outcome = .ok r) :
    r.steps.map StepOutput.tool = if o.discardSteps then [] else request.tools := by
  cases h with
  | refused offered hv => cases hr
  | closed hv h =>
    rw [close_outcome] at hr
    exact (h.succeeded r hr).2

namespace Progress

def Tallies (e : Engine) (j : Job) : Progress → Prop
  | .fresh => True
  | .between p rest r =>
    validate e.registry j.request.pluginId j.request.tools = .ok p ∧
      ∃ done, j.request.tools = done ++ rest ∧ r.Tallies (e.context j.runId p j.options) done done
  | .inside p tool rest r _ =>
    validate e.registry j.request.pluginId j.request.tools = .ok p ∧
      ∃ done, j.request.tools = done ++ tool :: rest ∧
        r.Tallies (e.context j.runId p j.options) (done ++ [tool]) done
  | .over ended => ∃ elapsed, e.Closes j.runId j.request j.options elapsed ended

variable {e : Engine} {j : Job} {offered : Nat} {v w : World} {p q : Progress}

theorem Tallies.step (h : p.Tallies e j) (hs : p.step? e j offered w = some (q, v)) :
    q.Tallies e j := by
  cases p with
  | «over» ended => cases hs
  | fresh =>
    obtain ⟨rfl, rfl⟩ := Prod.mk.inj (Option.some.inj hs)
    unfold begin
    dsimp only
    split
    · next error hv => exact ⟨0, .refused offered hv⟩
    · next plugin hv => exact ⟨hv, [], rfl, .start _ j.request.payload offered⟩
  | between plugin rest r =>
    obtain ⟨rfl, rfl⟩ := Prod.mk.inj (Option.some.inj hs)
    obtain ⟨hv, done, ht, hr⟩ := h
    cases rest with
    | nil =>
      rw [List.append_nil] at ht
      exact ⟨_, .closed hv (Run.Tallies.complete (ht ▸ hr))⟩
    | cons tool rest =>
      have henter := hr.enter j.request.tools tool w
      unfold enter
      dsimp only
      split
      · next ended he => exact ⟨_, .closed hv (henter.2 ended he)⟩
      · next r' he => exact ⟨hv, done, ht, henter.1 r' he⟩
  | inside plugin tool rest r call =>
    obtain ⟨rfl, rfl⟩ := Prod.mk.inj (Option.some.inj hs)
    obtain ⟨hv, done, ht, hr⟩ := h
    have hr' : Run.Tallies (e.context j.runId plugin j.options) (done ++ [tool]) done
        { r with offered } := ⟨hr.trace, hr.steps⟩
    have hleave := hr'.leave j.request.tools tool call
    unfold leave
    split
    · next ended he => exact ⟨_, .closed hv (hleave.2 ended he)⟩
    · next r' he => exact ⟨hv, done ++ [tool], by simpa using ht, hleave.1 r' he⟩

theorem tallies_after (e : Engine) (j : Job) (found : Nat → Nat × World) (n : Nat) :
    (after e j found n).Tallies e j := by
  induction n with
  | zero => trivial
  | succ n ih =>
    unfold after
    split
    · next next v hs => exact ih.step hs
    · exact ih

end Progress

end ToolPipeline
