import ToolPipeline.Proofs.Pipeline.AuditTrail
import ToolPipeline.Proofs.Pipeline.Steady

/-! Runs of deterministic tools. What a run has passed is the beginning of one chain, in whatever
worlds its tools were called; only what interrupts a run can make two of them end differently. -/

namespace ToolPipeline

def Stop.reason? : Stop → Option CancelReason
  | .interrupted _ reason => some reason
  | _ => none

def Outcome.halted? : Outcome → Option (Nat × CancelReason)
  | .error (.cancelled step reason) => some (step, reason)
  | _ => none

theorem Stop.outcome_halted? (p : Plugin) (step : Nat) (result : RunResult) (stop : Stop) :
    (stop.outcome p step result).halted? = stop.reason?.map (step, ·) := by
  cases stop <;> rfl

namespace Plugin

variable {p : Plugin} {payload : Payload} {tools rest : List String} {passed : List Passage}
  {tool : String} {occasion : Occasion} {stop : Stop} {output : Payload}

/-- Steps are passed, and the chain of the tools goes on with those that are left. -/
structure Partway (p : Plugin) (payload : Payload) (tools : List String) (passed : List Passage)
    (rest : List String) : Prop where
  inOrder : passed.map Passage.tool ++ rest = tools
  chain : p.chain payload tools =
    (passed.map Passage.stepOutput ++ (p.chain (handedOn payload passed) rest).1,
      (p.chain (handedOn payload passed) rest).2)

/-- A run comes to a halt where the chain of its tools ends, or before any tool on the way. -/
inductive Halts (p : Plugin) (payload : Payload) (tools : List String) (passed : List Passage) :
    Stop → Prop
  | atEnd {rest : List String} {stop : Stop} (h : p.Partway payload tools passed rest)
      (he : p.chain (handedOn payload passed) rest = ([], stop)) : Halts p payload tools passed stop
  | before {tool : String} {later : List String}
      (h : p.Partway payload tools passed (tool :: later)) (reason : CancelReason) :
      Halts p payload tools passed (.interrupted tool reason)

theorem Partway.start (p : Plugin) (payload : Payload) (tools : List String) :
    p.Partway payload tools [] tools := ⟨rfl, rfl⟩

theorem chain_of_error (hp : p.Deterministic) {input : Payload}
    (hv : (p.call tool occasion input).verdict tool = .error stop) :
    p.chain input (tool :: rest) = ([], stop) := by
  rw [hp.verdict_eq tool occasion .first input] at hv
  simp only [chain, hv]

theorem chain_of_ok (hp : p.Deterministic) {input : Payload}
    (hv : (p.call tool occasion input).verdict tool = .ok output) :
    p.chain input (tool :: rest) =
      (⟨tool, output⟩ :: (p.chain output rest).1, (p.chain output rest).2) := by
  rw [hp.verdict_eq tool occasion .first input] at hv
  simp only [chain, hv]

theorem Partway.pass (hp : p.Deterministic) (h : p.Partway payload tools passed (tool :: rest))
    (hv : (p.call tool occasion (handedOn payload passed)).verdict tool = .ok output)
    (took : Nat) :
    p.Partway payload tools (passed ++ [⟨tool, handedOn payload passed, took, output⟩]) rest where
  inOrder := by rw [← h.inOrder, List.map_append, List.append_assoc]; rfl
  chain := by
    have hc : p.chain (handedOn payload passed) (tool :: rest) = _ := chain_of_ok hp hv
    rw [h.chain, hc, handedOn_append, List.map_append, List.append_assoc]
    rfl

theorem Partway.halt (hp : p.Deterministic) (h : p.Partway payload tools passed (tool :: rest))
    (hv : (p.call tool occasion (handedOn payload passed)).verdict tool = .error stop) :
    p.Halts payload tools passed stop := .atEnd h (chain_of_error hp hv)

theorem Partway.finish (h : p.Partway payload tools passed []) :
    p.Halts payload tools passed .finished := .atEnd h rfl

theorem chain_reason? (p : Plugin) (input : Payload) (tools : List String) :
    (p.chain input tools).2.reason? = none := by
  induction tools generalizing input with
  | nil => rfl
  | cons tool rest ih =>
    cases hv : (p.call tool .first input).verdict tool with
    | error stop =>
      have hs : stop.called? = some tool := Call.called?_of_verdict hv
      simp only [chain, hv]
      cases stop with
      | interrupted => simp [Stop.called?] at hs
      | finished | failed | notAnObject | panicked => rfl
    | ok output =>
      simp only [chain, hv]
      exact ih output

theorem Halts.eq_chain (h : p.Halts payload tools passed stop) (hr : stop.reason? = none) :
    p.chain payload tools = (passed.map Passage.stepOutput, stop) := by
  cases h with
  | atEnd h he => rw [h.chain, he, List.append_nil]
  | before h reason => cases hr

theorem Halts.reason?_eq_some {reason : CancelReason} (h : p.Halts payload tools passed stop)
    (hr : stop.reason? = some reason) :
    ∃ tool later, stop = .interrupted tool reason ∧
      p.Partway payload tools passed (tool :: later) := by
  cases h with
  | @atEnd rest _ h he =>
    have hn := p.chain_reason? (handedOn payload passed) rest
    simp [he, hr] at hn
  | before h found =>
    cases hr
    exact ⟨_, _, rfl, h⟩

/-- Runs that come to a halt at the same step for the same reason, or both uninterrupted, have
passed the same steps and stop alike. -/
theorem Halts.unique {passed' : List Passage} {stop' : Stop}
    (h : p.Halts payload tools passed stop) (h' : p.Halts payload tools passed' stop')
    (he : stop.reason?.map (passed.length, ·) = stop'.reason?.map (passed'.length, ·)) :
    passed.map Passage.stepOutput = passed'.map Passage.stepOutput ∧ stop = stop' := by
  cases hr : stop.reason? with
  | none =>
    have hr' : stop'.reason? = none := by
      rw [hr, Option.map_none, eq_comm, Option.map_eq_none_iff] at he
      exact he
    have hc := (h.eq_chain hr).symm.trans (h'.eq_chain hr')
    exact ⟨congrArg Prod.fst hc, congrArg Prod.snd hc⟩
  | some reason =>
    obtain ⟨hlen, hr'⟩ : passed'.length = passed.length ∧ stop'.reason? = some reason := by
      cases hr' : stop'.reason? with
      | none => simp [hr, hr'] at he
      | some reason' =>
        simp only [hr, hr', Option.map_some, Option.some.injEq, Prod.mk.injEq] at he
        exact ⟨he.1.symm, congrArg some he.2.symm⟩
    obtain ⟨tool, later, rfl, hw⟩ := h.reason?_eq_some hr
    obtain ⟨tool', later', rfl, hw'⟩ := h'.reason?_eq_some hr'
    have hsteps := (hw.chain.symm.trans hw'.chain)
    have htools := hw.inOrder.trans hw'.inOrder.symm
    have hs := List.append_inj (congrArg Prod.fst hsteps) (by simp [hlen])
    have ht := List.append_inj htools (by simp [hlen])
    obtain ⟨rfl, -⟩ := List.cons.inj ht.2
    exact ⟨hs.1, rfl⟩

end Plugin

theorem Course.from_halts {p : Plugin} (hp : p.Deterministic) {o : Options} {drift : Drift}
    {payload : Payload} {tools rest : List String} {passed : List Passage}
    (h : p.Partway payload tools passed rest) (w : World) :
    let k := Course.from p o drift passed.length (handedOn payload passed) w rest
    p.Halts payload tools (passed ++ k.passed) k.stop := by
  induction rest generalizing passed w with
  | nil => simpa [Course.from] using h.finish
  | cons tool rest ih =>
    cases hi : o.interruption (drift passed.length w) with
    | some reason =>
      simp only [Course.from_interrupted hi, List.append_nil]
      exact .before h reason
    | none =>
      let call := p.call tool (drift passed.length w).occasion (handedOn payload passed)
      cases hv : call.verdict tool with
      | error stop =>
        simp only [Course.from_stopped hi hv, List.append_nil]
        exact h.halt hp hv
      | ok output =>
        have hh := ih (h.pass hp hv call.took) ((drift passed.length w).after call)
        simp only [handedOn_append, List.length_append, List.length_singleton, List.append_assoc,
          List.singleton_append] at hh
        simp only [Course.from_passed hi hv]
        exact hh

theorem handedOn_congr {payload : Payload} {passed passed' : List Passage}
    (h : passed.map Passage.stepOutput = passed'.map Passage.stepOutput) :
    handedOn payload passed = handedOn payload passed' := by
  rw [handedOn_eq, handedOn_eq, h]

theorem StepRecord.ofPassed_eq (runId pluginId : String) (passed : List Passage) :
    ofPassed runId pluginId passed = (passed.map Passage.stepOutput).zipIdx.map fun s =>
      ⟨runId, pluginId, s.1.tool, s.2, s.1.output.keys⟩ := by
  rw [List.zipIdx_map, List.map_map]
  rfl

/-- How a run of deterministic tools may end in any worlds: refused, or where it comes to a halt. -/
inductive Engine.Halts (e : Engine) (runId : String) (request : Request) (o : Options) :
    Ended → Prop
  | refused {error : ValidationError} (offered : Nat)
      (hv : validate e.registry request.pluginId request.tools = .error error) :
      Halts e runId request o (reject (.start request.payload offered) error)
  | closed {p : Plugin} {k : Course} (offers : Nat → Nat) (offered elapsed : Nat)
      (hv : validate e.registry request.pluginId request.tools = .ok p)
      (hk : p.Halts request.payload request.tools k.passed k.stop) :
      Halts e runId request o
        (k.closed (e.context runId p o) request.payload offers offered elapsed)

section
variable {e : Engine} {runId : String} {request : Request} {o : Options} {a b : Ended}

theorem Engine.Ends.halts (he : e.registry.Deterministic) {drift : Drift} {offers : Nat → Nat}
    {w : World} (h : e.Ends runId request o drift offers w a) : e.Halts runId request o a := by
  cases h with
  | refused offered hv => exact .refused offered hv
  | @closed p offered elapsed hv =>
    have hp : p.Deterministic := he _ p (lookup_of_validate hv)
    exact .closed offers offered elapsed hv (Course.from_halts hp (.start p _ _) w)

theorem Course.closed_halted? (c : RunContext) (payload : Payload) (offers : Nat → Nat)
    (offered elapsed : Nat) (k : Course) :
    (k.closed c payload offers offered elapsed).outcome.halted? =
      k.stop.reason?.map (k.passed.length, ·) := by
  rw [Course.closed_outcome]
  exact Stop.outcome_halted? _ _ _ _

theorem Engine.Halts.eq (hm : e.recorder = .memory) (ha : e.Halts runId request o a)
    (hb : e.Halts runId request o b) (hh : a.outcome.halted? = b.outcome.halted?) :
    a.outcome = b.outcome ∧ a.trace.records = b.trace.records := by
  cases ha with
  | refused offered hv =>
    cases hb with
    | refused offered' hv' =>
      cases hv.symm.trans hv'
      exact ⟨rfl, rfl⟩
    | closed offers' offered' elapsed' hv' hk' => cases hv.symm.trans hv'
  | @closed p k offers offered elapsed hv hk =>
    cases hb with
    | refused offered' hv' => cases hv.symm.trans hv'
    | @closed p' k' offers' offered' elapsed' hv' hk' =>
      cases hv.symm.trans hv'
      rw [Course.closed_halted?, Course.closed_halted?] at hh
      obtain ⟨hsteps, hstop⟩ := hk.unique hk' hh
      have hlen : k.passed.length = k'.passed.length := by
        simpa using congrArg List.length hsteps
      have hcalm (n : Nat) (r : StepRecord) :
          ((e.context runId p o).recorder.react n r).panic = none := by
        simp only [context, hm]
        rfl
      constructor
      · simp only [Course.closed_outcome, Course.outcome, Course.result, hstop, hlen, hsteps,
          handedOn_congr hsteps]
      · rw [Course.closed_records hcalm, Course.closed_records hcalm, StepRecord.ofPassed_eq,
          StepRecord.ofPassed_eq, hsteps]

end

end ToolPipeline
