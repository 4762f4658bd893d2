import ToolPipeline.Proofs.Json.Members
import ToolPipeline.Proofs.Pipeline.Interruption
import ToolPipeline.Tool.Debug

/-! Runs of tools that add their own names to the payload's trace. The trace tells the tools that
were called, in order, behind whatever it held before. -/

namespace ToolPipeline.DebugTools

open Json

/-- The trace that a payload begins with, unless something else stands in its place. -/
def traceOf? (payload : Payload) : Option (List Value) :=
  match payload.get? "trace" with
  | none => some []
  | some v => v.items?

def withTrace (payload : Payload) (items : List Value) : Payload :=
  payload.insert "trace" (.array items)

def names (tools : List String) : List Value := tools.map .string

def inputAt (payload : Payload) (items : List Value) (tools : List String) : (i : Nat) → Payload
  | 0 => payload
  | i + 1 => withTrace payload (items ++ names (tools.take (i + 1)))

section
variable {payload input : Payload} {items : List Value} {tool : String}

@[simp]
theorem traceOf?_withTrace : traceOf? (withTrace payload items) = some items := by
  simp [traceOf?, withTrace, Value.items?_array]

@[simp]
theorem withTrace_withTrace (others : List Value) :
    withTrace (withTrace payload items) others = withTrace payload others := by
  refine Object.ext_get? fun key => ?_
  simp only [withTrace, Object.get?_insert]
  split <;> rfl

theorem appendTrace_of_traced (h : traceOf? input = some items) :
    appendTrace tool input = .ok (withTrace input (items ++ [.string tool])) := by
  unfold traceOf? at h
  split at h
  · next hn =>
    cases h
    simp only [appendTrace, hn]
    rfl
  · next v hv => simp only [appendTrace, hv, h, withTrace]

theorem appendTrace_of_untraced (h : traceOf? input = none) :
    appendTrace tool input = .error (.invalidInput "trace must be an array") := by
  unfold traceOf? at h
  split at h
  · cases h
  · next v hv => simp only [appendTrace, hv, h]

theorem inputAt_cons (rest : List String) (i : Nat) :
    inputAt (withTrace input (items ++ [.string tool])) (items ++ [.string tool]) rest i =
      inputAt input items (tool :: rest) (i + 1) := by
  cases i with
  | zero => simp [inputAt, names]
  | succ i => simp [inputAt, names, List.append_assoc]

end

/-- A tool that adds its name to the trace, however long it takes for it. -/
def Traces (p : Plugin) (name : String) : Prop :=
  ∃ tool, p.tool? name = some tool ∧ ∀ occasion payload,
    (tool.run occasion payload).ending = (Call.ofExcept (appendTrace name payload)).ending

section
variable {p : Plugin} {o : Options} {drift : Drift} {payload input : Payload} {items : List Value}
  {tool : String} {tools : List String}

theorem Traces.verdict_eq (h : Traces p tool) (occasion : Occasion) (input : Payload) :
    (p.call tool occasion input).verdict tool =
      (Call.ofExcept (appendTrace tool input)).verdict tool := by
  obtain ⟨t, ht, hrun⟩ := h
  simp only [Plugin.call, ht, Call.verdict, hrun]

theorem Traces.verdict_of_traced (h : Traces p tool) (occasion : Occasion)
    (hinput : traceOf? input = some items) :
    (p.call tool occasion input).verdict tool =
      .ok (withTrace input (items ++ [.string tool])) := by
  rw [h.verdict_eq, appendTrace_of_traced hinput]
  rfl

theorem Traces.verdict_of_untraced (h : Traces p tool) (occasion : Occasion)
    (hinput : traceOf? input = none) :
    (p.call tool occasion input).verdict tool =
      .error (.failed tool (.invalidInput "trace must be an array")) := by
  rw [h.verdict_eq, appendTrace_of_untraced hinput]
  rfl

/-- From a payload with a trace on, nothing but an interruption stops a chain, and each step hands
on the trace with its name behind it. -/
theorem chain_from (htools : ∀ tool ∈ tools, Traces p tool) (n : Nat)
    (hinput : traceOf? input = some items) (w : World) :
    let k := Course.from p o drift n input w tools
    (k.stop = .finished ∨ ∃ tool reason, k.stop = .interrupted tool reason) ∧
      ∀ i s, k.passed[i]? = some s →
        s.input = inputAt input items tools i ∧ s.output = inputAt input items tools (i + 1) := by
  induction tools generalizing n input items w with
  | nil => exact ⟨.inl rfl, nofun⟩
  | cons tool rest ih =>
    cases hi : o.interruption (drift n w) with
    | some reason =>
      rw [Course.from_interrupted hi]
      exact ⟨.inr ⟨tool, reason, rfl⟩, nofun⟩
    | none =>
      obtain ⟨htool, hrest⟩ := List.forall_mem_cons.mp htools
      have hv := htool.verdict_of_traced (drift n w).occasion hinput
      have hnext : traceOf? (withTrace input (items ++ [.string tool])) = _ := traceOf?_withTrace
      obtain ⟨hstop, hpassed⟩ :=
        ih hrest (n + 1) hnext ((drift n w).after (p.call tool (drift n w).occasion input))
      rw [Course.from_passed hi hv]
      refine ⟨hstop, fun i s hs => ?_⟩
      cases i with
      | zero =>
        cases hs
        exact ⟨rfl, rfl⟩
      | succ i =>
        rw [← inputAt_cons, ← inputAt_cons]
        exact hpassed i s hs

theorem handedOn_chain {passed : List Passage}
    (h : ∀ i s, passed[i]? = some s → s.output = inputAt payload items tools (i + 1)) :
    handedOn payload passed = inputAt payload items tools passed.length := by
  rcases List.eq_nil_or_concat passed with rfl | ⟨before, s, rfl⟩
  · rfl
  · have hs := h before.length s (by simp)
    rw [List.concat_eq_append, handedOn_append, hs, List.length_append, List.length_singleton]

theorem map_zipIdx_passed {α : Type} {f : Passage × Nat → α} {g : String → Nat → α}
    {passed : List Passage} (ht : passed.map Passage.tool = tools)
    (h : ∀ i s, passed[i]? = some s → f (s, i) = g s.tool i) :
    passed.zipIdx.map f = tools.zipIdx.map fun s => g s.1 s.2 := by
  refine List.ext_getElem? fun i => ?_
  rw [← ht]
  simp only [List.getElem?_map, List.getElem?_zipIdx, Nat.zero_add]
  cases hs : passed[i]? with
  | none => rfl
  | some s => exact congrArg some (h i s hs)

/-- What a run of tools that trace shows: their names behind the trace of the payload, step by step
as well as in the end, or the refusal of the first of them. -/
structure Traced (payload : Payload) (tools : List String) (o : Options) (pluginId : String)
    (outcome : Outcome) (calls : List Invocation) : Prop where
  told : ∀ items, traceOf? payload = some items →
    outcome = .ok ⟨withTrace payload (items ++ names tools),
      if o.discardSteps then []
      else tools.zipIdx.map fun s =>
        ⟨s.1, withTrace payload (items ++ names (tools.take (s.2 + 1)))⟩⟩ ∧
    calls = tools.zipIdx.map fun s => ⟨s.2, s.1, inputAt payload items tools s.2⟩
  refused : traceOf? payload = none → ∃ tool, tools.head? = some tool ∧
    outcome = .error (.toolFailed pluginId tool 0 (.invalidInput "trace must be an array")) ∧
    calls = [⟨0, tool, payload⟩]

theorem shows_of_finished {k : Course} (hne : tools ≠ []) (hs : k.stop = .finished)
    (ht : k.passed.map Passage.tool = tools)
    (h : ∀ i s, k.passed[i]? = some s →
      s.input = inputAt payload items tools i ∧ s.output = inputAt payload items tools (i + 1)) :
    k.outcome p o payload = .ok ⟨withTrace payload (items ++ names tools),
      if o.discardSteps then []
      else tools.zipIdx.map fun s =>
        ⟨s.1, withTrace payload (items ++ names (tools.take (s.2 + 1)))⟩⟩ ∧
    k.invocations payload =
      tools.zipIdx.map fun s => ⟨s.2, s.1, inputAt payload items tools s.2⟩ := by
  constructor
  · have hresult : handedOn payload k.passed = withTrace payload (items ++ names tools) := by
      have hlen : k.passed.length = tools.length := by rw [← ht, List.length_map]
      rw [handedOn_chain fun i s hi => (h i s hi).2, hlen]
      obtain ⟨tool, rest, rfl⟩ := List.exists_cons_of_ne_nil hne
      rw [List.length_cons, inputAt, ← List.length_cons, List.take_length]
    have hsteps : k.passed.map Passage.stepOutput = tools.zipIdx.map fun s =>
        ⟨s.1, withTrace payload (items ++ names (tools.take (s.2 + 1)))⟩ := by
      rw [← map_fst_zipIdx]
      exact map_zipIdx_passed
        (g := fun tool i => StepOutput.mk tool (inputAt payload items tools (i + 1))) ht
        fun i s hi => by rw [Passage.stepOutput, (h i s hi).2]
    rw [Course.outcome, hs, Stop.outcome, Course.result, hresult, hsteps]
  · rw [Course.invocations, hs,
      map_zipIdx_passed (g := fun tool i => Invocation.mk i tool (inputAt payload items tools i)) ht
        fun i s hi => by rw [(h i s hi).1]]
    exact List.append_nil _

theorem traced_of_course (hne : tools ≠ []) (htools : ∀ tool ∈ tools, Traces p tool) (w : World)
    (hu : ∀ step reason, (Course.of p o drift payload w tools).outcome p o payload ≠
      .error (.cancelled step reason)) :
    Traced payload tools o p.id ((Course.of p o drift payload w tools).outcome p o payload)
      ((Course.of p o drift payload w tools).invocations payload) := by
  have hgo (tool : String) (reason : CancelReason) :
      (Course.of p o drift payload w tools).stop ≠ .interrupted tool reason := by
    intro hs
    refine hu (Course.of p o drift payload w tools).passed.length reason ?_
    rw [Course.outcome, hs]
    rfl
  refine ⟨fun items hitems => ?_, fun hnone => ?_⟩
  · obtain ⟨hstop, hpassed⟩ := chain_from htools 0 hitems w
    have hs : (Course.of p o drift payload w tools).stop = .finished := by
      refine hstop.resolve_right ?_
      rintro ⟨tool, reason, he⟩
      exact hgo tool reason he
    exact shows_of_finished hne hs ((Course.from_tools p o drift 0 payload w tools).2 hs) hpassed
  · obtain ⟨tool, rest, rfl⟩ := List.exists_cons_of_ne_nil hne
    have htool := htools tool List.mem_cons_self
    cases hi : o.interruption (drift 0 w) with
    | some reason =>
      refine absurd ?_ (hgo tool reason)
      rw [Course.of, Course.from_interrupted hi]
    | none =>
      have hv := htool.verdict_of_untraced (drift 0 w).occasion hnone
      rw [Course.of, Course.from_stopped hi hv]
      exact ⟨tool, rfl, rfl, rfl⟩

end

theorem validate_traces {r : Registry} {p : Plugin} {pluginId : String} {tools : List String}
    (hid : pluginId ≠ "") (hr : r.lookup pluginId = some p) (hne : tools ≠ [])
    (htools : ∀ tool ∈ tools, Traces p tool) : validate r pluginId tools = .ok p :=
  validate_eq_ok hid hr hne fun tool ht => by
    obtain ⟨t, hp, -⟩ := htools tool ht
    rw [Plugin.hasTool, hp]
    rfl

/-- A run of tools that trace, unless it is interrupted, tells the tools that it called in the order
of their calls, behind a trace that the payload has already; it is refused at its first step if the
payload has something else in its place. It does not matter who runs it: the executor alone, an
engine, or an engine step by step while other things happen. -/
theorem traces_tell_order :
    (∀ (c : RunContext) (payload : Payload) (tools : List String) (offered : Nat) (w : World),
      tools ≠ [] → Indexable tools → (∀ tool ∈ tools, Traces c.plugin tool) →
      let ended := (Run.execute c tools (.start payload offered) w).1
      (∀ step reason, ended.outcome ≠ .error (.cancelled step reason)) →
      Traced payload tools c.options c.plugin.id ended.outcome ended.trace.invocations) ∧
    (∀ (e : Engine) (p : Plugin) (request : Request) (o : Options) (runId : String)
      (offered : Nat) (w : World),
      request.pluginId ≠ "" → e.registry.lookup request.pluginId = some p →
      request.tools ≠ [] → Indexable request.tools → (∀ tool ∈ request.tools, Traces p tool) →
      let ended := (e.run runId request o offered w).1
      (∀ step reason, ended.outcome ≠ .error (.cancelled step reason)) →
      Traced request.payload request.tools o p.id ended.outcome ended.trace.invocations) ∧
    (∀ (e : Engine) (p : Plugin) (j : Job) (found : Nat → Nat × World) (n : Nat) (ended : Ended),
      j.request.pluginId ≠ "" → e.registry.lookup j.request.pluginId = some p →
      j.request.tools ≠ [] → Indexable j.request.tools →
      (∀ tool ∈ j.request.tools, Traces p tool) → Progress.after e j found n = .over ended →
      (∀ step reason, ended.outcome ≠ .error (.cancelled step reason)) →
      Traced j.request.payload j.request.tools j.options p.id ended.outcome
        ended.trace.invocations) := by
  refine ⟨?_, ?_, ?_⟩
  · intro c payload tools offered w hne hlen htools ended hu
    let k := Course.of c.plugin c.options .still payload w tools
    have he : ended = k.ended c payload offered :=
      congrArg Prod.fst (Run.execute_eq c payload hne hlen offered w)
    obtain ⟨ho, hc⟩ := Stop.ended_past c payload (offered + ·) (offered + k.passed.length) k
    rw [he] at hu ⊢
    rw [show (k.ended c payload offered).outcome = _ from ho] at hu ⊢
    rw [show (k.ended c payload offered).trace.invocations = _ from hc]
    exact traced_of_course hne htools w hu
  · intro e p request o runId offered w hid hr hne hlen htools ended hu
    obtain ⟨ho, hc⟩ :=
      Engine.run_shows (validate_traces hid hr hne htools) hlen runId o offered w
    rw [show ended.outcome = _ from ho] at hu ⊢
    rw [show ended.trace.invocations = _ from hc]
    exact traced_of_course hne htools w hu
  · intro e p j found n ended hid hr hne hlen htools hn hu
    obtain ⟨last, hlast, ho, hc⟩ :=
      Progress.over_of_validate found (validate_traces hid hr hne htools) hlen .initial
    obtain rfl := Progress.ended_unique (hlast _ Nat.le.refl) hn
    rw [ho] at hu ⊢
    rw [hc]
    exact traced_of_course hne htools .initial hu

def relay : Plugin :=
  .ofTools "relay" [("a", .pure "" (appendTrace "a")), ("b", .pure "" (appendTrace "b"))]

theorem traces_relay : ∀ tool ∈ ["b", "a", "b"], Traces relay tool := by
  have ha : Traces relay "a" := ⟨_, rfl, fun _ _ => rfl⟩
  have hb : Traces relay "b" := ⟨_, rfl, fun _ _ => rfl⟩
  simp [ha, hb]

theorem traces_tell_order_relay :
    let e : Engine := ⟨Registry.empty.register relay, .memory⟩
    let c : RunContext := ⟨"r", relay, .default, .memory⟩
    let traced := withTrace (Object.empty.insert "k" (.bool true)) [.bool true]
    let untraced := Object.empty.insert "trace" (.bool true)
    let found : Nat → Nat × World := fun n => (0, { World.initial with now := n })
    (Run.execute c ["b", "a", "b"] (.start traced 0) .initial).1.outcome =
      .ok ⟨withTrace traced [.bool true, .string "b", .string "a", .string "b"],
        [⟨"b", withTrace traced [.bool true, .string "b"]⟩,
          ⟨"a", withTrace traced [.bool true, .string "b", .string "a"]⟩,
          ⟨"b", withTrace traced [.bool true, .string "b", .string "a", .string "b"]⟩]⟩ ∧
    (e.run "r" ⟨"relay", ["b", "a", "b"], untraced⟩ .default 0 .initial).1.trace.invocations =
      [⟨0, "b", untraced⟩] ∧
    ∃ ended, Progress.after e ⟨"r", ⟨"relay", ["b", "a", "b"], untraced⟩, .default, 0⟩ found 8 =
        .over ended ∧ ended.trace.invocations = [⟨0, "b", untraced⟩] := by
  intro e c traced untraced found
  obtain ⟨hexecute, hrun, hstep⟩ := traces_tell_order
  have ht : traceOf? traced = some [.bool true] := traceOf?_withTrace
  have hn : traceOf? untraced = none := by
    simp only [traceOf?, untraced, Object.get?_insert_self]
    rfl
  let request : Request := ⟨"relay", ["b", "a", "b"], untraced⟩
  obtain ⟨r, hr⟩ :
      ∃ r, (Run.execute c ["b", "a", "b"] (.start traced 0) .initial).1.outcome = .ok r :=
    Outcome.exists_of_isOk (by decide +kernel)
  have hrefused : (e.run "r" request .default 0 .initial).1.outcome =
      .error (.toolFailed "relay" "b" 0 (.invalidInput "trace must be an array")) := rfl
  obtain ⟨ended, hended, ho⟩ : ∃ ended,
      Progress.after e ⟨"r", request, .default, 0⟩ found 8 = .over ended ∧ ended.outcome =
        .error (.toolFailed "relay" "b" 0 (.invalidInput "trace must be an array")) :=
    ⟨_, rfl, rfl⟩
  have h₁ := hexecute c traced ["b", "a", "b"] 0 .initial (by decide) (by decide) traces_relay
    fun _ _ he => by cases hr.symm.trans he
  have h₂ := hrun e relay request .default "r" 0 .initial (by decide) rfl (by decide) (by decide)
    traces_relay fun _ _ he => by cases hrefused.symm.trans he
  have h₃ := hstep e relay ⟨"r", request, .default, 0⟩ found 8 ended (by decide) rfl (by decide)
    (by decide) traces_relay hended (by simp [ho])
  obtain ⟨tool, htool, -, hcalls⟩ := h₂.refused hn
  obtain ⟨tool', htool', -, hcalls'⟩ := h₃.refused hn
  cases htool
  cases htool'
  exact ⟨(h₁.told _ ht).1, hcalls, ended, hended, hcalls'⟩

end ToolPipeline.DebugTools
