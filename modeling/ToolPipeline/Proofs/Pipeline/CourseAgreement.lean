import ToolPipeline.Proofs.Pipeline.Stepwise

/-! Runs and their courses agree: executed as a whole, run by an engine, or taken step by step among
other things that happen. -/

namespace ToolPipeline

structure Course.ShownBy (k : Course) (p : Plugin) (o : Options) (payload : Payload)
    (ended : Ended) : Prop where
  outcome : ended.outcome = k.outcome p o payload
  invocations : ended.trace.invocations = k.invocations payload

/-- The calls of a course are numbered and follow the list of tools. Each is made on exactly what
the call before it gave, the first one on the payload. -/
structure Course.InOrder (k : Course) (payload : Payload) (tools : List String) : Prop where
  numbered : (k.invocations payload).map Invocation.step =
    List.range (k.invocations payload).length
  named : (k.invocations payload).map Invocation.tool <+: tools
  chained : (k.invocations payload).map Invocation.input <+:
    payload :: k.passed.map Passage.output
  complete : k.stop = .finished → k.passed.map Passage.tool = tools

theorem Course.of_inOrder (p : Plugin) (o : Options) (drift : Drift) (payload : Payload)
    (w : World) (tools : List String) :
    (Course.of p o drift payload w tools).InOrder payload tools where
  numbered := Course.invocations_steps payload _
  named := by
    rw [Course.invocations_tools]
    exact (Course.from_tools p o drift 0 payload w tools).1
  chained := by
    have hh := Course.invocations_inputs payload (Course.of p o drift payload w tools)
    rwa [Course.of, Course.from_inputs] at hh
  complete := (Course.from_tools p o drift 0 payload w tools).2

theorem Course.toolError_of_failed {k : Course} {tool : String} {error : ToolError}
    (h : k.stop = .failed tool error) (p : Plugin) (o : Options) (payload : Payload) :
    ∃ e, k.outcome p o payload = .error e ∧ e.toolError? = some error := by
  rw [Course.outcome, h]
  exact ⟨_, rfl, rfl⟩

/-- Every run of a valid list of tools has the outcome, the calls and the world of its course,
whatever its recorder does and however tokens are cancelled and time goes by. -/
theorem runs_agree_with_course :
    (∀ (c : RunContext) (tools : List String) (payload : Payload) (offered : Nat) (w : World),
      tools ≠ [] → Indexable tools →
      let k := Course.of c.plugin c.options .still payload w tools
      let run := Run.execute c tools (.start payload offered) w
      k.ShownBy c.plugin c.options payload run.1 ∧ run.2 = k.world) ∧
    (∀ (e : Engine) (request : Request) (p : Plugin) (o : Options) (runId : String)
      (offered : Nat) (w : World),
      validate e.registry request.pluginId request.tools = .ok p → Indexable request.tools →
      let k := Course.of p o .still request.payload w request.tools
      let run := e.run runId request o offered w
      k.ShownBy p o request.payload run.1 ∧ run.2 = k.world) ∧
    (∀ (e : Engine) (j : Job) (p : Plugin) (found : Nat → Nat × World) (w : World),
      validate e.registry j.request.pluginId j.request.tools = .ok p → Indexable j.request.tools →
      let k := Course.of p j.options (Progress.drift found) j.request.payload w j.request.tools
      ∃ ended, (∀ n, 2 * j.request.tools.length + 2 ≤ n →
        Progress.after e j found n = .over ended) ∧ k.ShownBy p j.options j.request.payload ended) ∧
    (∀ (p : Plugin) (o : Options) (drift : Drift) (payload : Payload) (w : World)
      (tools : List String),
      let k := Course.of p o drift payload w tools
      k.InOrder payload tools ∧
      ∀ tool error, k.stop = .failed tool error →
        ∃ e, k.outcome p o payload = .error e ∧ e.toolError? = some error) := by
  refine ⟨?_, ?_, ?_, ?_⟩
  · intro c tools payload offered w hne hlen k run
    have hr : run = (k.ended c payload offered, k.world) :=
      Run.execute_eq c payload hne hlen offered w
    have hs := Stop.ended_past c payload (offered + ·) (offered + k.passed.length) k
    rw [hr]
    exact ⟨⟨hs.1, hs.2⟩, rfl⟩
  · intro e request p o runId offered w hv hlen k run
    have hs := Engine.run_shows hv hlen runId o offered w
    exact ⟨⟨hs.1, hs.2⟩, congrArg Prod.snd (Engine.run_eq hv hlen runId o offered w)⟩
  · intro e j p found w hv hlen k
    obtain ⟨ended, hn, ho, hi⟩ := Progress.over_of_validate found hv hlen w
    exact ⟨ended, hn, ho, hi⟩
  · intro p o drift payload w tools k
    exact ⟨Course.of_inOrder p o drift payload w tools,
      fun tool error h => Course.toolError_of_failed h p o payload⟩

def haltPlugin : Plugin :=
  .ofTools "p" [("halt", ⟨"", fun _ payload => ⟨.returned payload.toValue, 5, [[7]]⟩⟩)]

/-- Once its token is cancelled from inside the first call, or its deadline has come meanwhile, a
run calls no further tool. -/
theorem runs_agree_with_course_halted :
    let e : Engine := ⟨Registry.empty.register haltPlugin, .memory⟩
    let o := (Options.default.withCancel [7]).withDeadline 5
    let j : Job := ⟨"r", ⟨"p", ["halt", "halt"], .empty⟩, o, 0⟩
    let c := e.context j.runId haltPlugin o
    let found : Nat → Nat × World := fun n => (0, { World.initial with now := 2 * n })
    let executed := (Run.execute c j.request.tools (.start .empty 0) .initial).1
    let ran := (e.run j.runId j.request o 0 .initial).1
    validate e.registry j.request.pluginId j.request.tools = .ok haltPlugin ∧
    j.request.tools ≠ [] ∧ Indexable j.request.tools ∧
    executed.outcome = .error (.cancelled 1 .signal) ∧
    ran.outcome = .error (.cancelled 1 .signal) ∧
    ran.trace.invocations = [⟨0, "halt", .empty⟩] ∧
    ∃ ended, Progress.after e j found 6 = .over ended ∧
      ended.outcome = .error (.cancelled 1 .deadline) := by
  intro e o j c found executed ran
  have hv : validate e.registry j.request.pluginId j.request.tools = .ok haltPlugin := rfl
  have hne : j.request.tools ≠ [] := by decide
  have hlen : Indexable j.request.tools := by decide
  obtain ⟨hexecute, hrun, hstep, -⟩ := runs_agree_with_course
  have hx := (hexecute c j.request.tools .empty 0 .initial hne hlen).1
  have hr := (hrun e j.request haltPlugin o j.runId 0 .initial hv hlen).1
  obtain ⟨ended, hn, hs⟩ := hstep e j haltPlugin found .initial hv hlen
  exact ⟨hv, hne, hlen, hx.outcome, hr.outcome, hr.invocations, ended, hn 6 (Nat.le_refl _),
    hs.outcome⟩

end ToolPipeline
