import ToolPipeline.Proofs.NamedEntries
import ToolPipeline.Proofs.Pipeline.RunCourse

/-! Plugins whose tools look at nothing but their payload. A run of them that nothing interrupts is
the same in every world. -/

namespace ToolPipeline

/-- The tool ends the same way whenever it is given the same payload, does not break down, and
cancels nothing. How long it takes may vary. -/
structure Tool.Steady (t : Tool) : Prop where
  same : ∀ occasion occasion' payload,
    (t.run occasion payload).ending = (t.run occasion' payload).ending
  calm : ∀ occasion payload p, (t.run occasion payload).ending ≠ .panicked p
  apart : ∀ occasion payload, (t.run occasion payload).cancels = []

def Plugin.Steady (p : Plugin) : Prop := ∀ name t, p.tool? name = some t → t.Steady

def Registry.Steady (r : Registry) : Prop := ∀ id p, r.lookup id = some p → p.Steady

/-- Calls of a tool on the same payload end the same way. -/
def Plugin.Deterministic (p : Plugin) : Prop :=
  ∀ name occasion occasion' input,
    (p.call name occasion input).ending = (p.call name occasion' input).ending

def Registry.Deterministic (r : Registry) : Prop := ∀ id p, r.lookup id = some p → p.Deterministic

theorem Tool.pure_steady (description : String) (f : Payload → Except ToolError Json.Object) :
    (Tool.pure description f).Steady where
  same _ _ _ := rfl
  calm occasion payload p h := by
    simp only [Tool.pure] at h
    cases hf : f payload <;> simp [hf, Call.ofExcept, Call.ok, Call.plain] at h
  apart occasion payload := by
    simp only [Tool.pure]
    cases f payload <;> rfl

theorem Plugin.Steady.register {p : Plugin} (hp : p.Steady) {tool : Tool} (ht : tool.Steady)
    (name : String) : (p.register name tool).Steady := by
  intro n t h
  rw [Plugin.tool?, Plugin.register, lookup_insertNamed] at h
  split at h
  · cases h
    exact ht
  · exact hp n t h

theorem Plugin.ofTools_steady (id : String) {tools : List (String × Tool)}
    (h : ∀ t ∈ tools, t.2.Steady) : (Plugin.ofTools id tools).Steady := by
  have hs (p : Plugin) (hp : p.Steady) :
      (tools.foldl (fun p t => p.register t.1 t.2) p).Steady := by
    induction tools generalizing p with
    | nil => exact hp
    | cons t rest ih =>
      obtain ⟨ht, hr⟩ := List.forall_mem_cons.mp h
      exact ih hr _ (hp.register ht t.1)
  exact hs _ fun n t hn => by simp [Plugin.tool?, Plugin.empty] at hn

theorem Registry.Steady.register {r : Registry} (hr : r.Steady) {p : Plugin} (hp : p.Steady) :
    (r.register p).Steady := by
  intro id q h
  rw [Registry.lookup, Registry.register, lookup_insertNamed] at h
  split at h
  · cases h
    exact hp
  · exact hr id q h

theorem Registry.empty_steady : Registry.empty.Steady :=
  fun id p h => by simp [Registry.lookup, Registry.empty] at h

theorem DebugTools.plugin_steady : DebugTools.plugin.Steady := by
  refine Plugin.ofTools_steady "debug" fun t ht => ?_
  simp only [DebugTools.tools, List.mem_cons, List.not_mem_nil, or_false] at ht
  rcases ht with rfl | rfl | rfl <;> exact Tool.pure_steady _ _

def Occasion.first : Occasion := World.initial.occasion

/-- The outputs and the stop of tools that are called one after the other. -/
def Plugin.chain (p : Plugin) : (input : Payload) → List String → List StepOutput × Stop
  | _, [] => ([], .finished)
  | input, tool :: rest =>
    match (p.call tool .first input).verdict tool with
    | .error stop => ([], stop)
    | .ok output =>
      let later := p.chain output rest
      (⟨tool, output⟩ :: later.1, later.2)

theorem Plugin.Deterministic.verdict_eq {p : Plugin} (hp : p.Deterministic) (tool : String)
    (occasion occasion' : Occasion) (input : Payload) :
    (p.call tool occasion input).verdict tool = (p.call tool occasion' input).verdict tool := by
  simp only [Call.verdict, hp tool occasion occasion' input]

namespace Plugin.Steady

variable {p : Plugin}

theorem deterministic (hp : p.Steady) : p.Deterministic := by
  intro name occasion occasion' input
  unfold Plugin.call
  cases ht : p.tool? name with
  | none => rfl
  | some t => exact (hp name t ht).same occasion occasion' input

theorem cancels_eq (hp : p.Steady) (tool : String) (occasion : Occasion) (input : Payload) :
    (p.call tool occasion input).cancels = [] := by
  unfold Plugin.call
  cases ht : p.tool? tool with
  | none => rfl
  | some t => exact (hp tool t ht).apart occasion input

theorem verdict_ne_panicked (hp : p.Steady) (tool name : String) (occasion : Occasion)
    (input : Payload) (q : Panic) :
    (p.call tool occasion input).verdict tool ≠ .error (.panicked name q) := by
  have hn : (p.call tool occasion input).ending ≠ .panicked q := by
    unfold Plugin.call
    cases ht : p.tool? tool with
    | none => simp [Call.plain]
    | some t => exact (hp tool t ht).calm occasion input q
  intro h
  unfold Call.verdict at h
  split at h
  · next hq =>
    cases h
    exact hn hq
  · cases h
  · split at h <;> cases h

end Plugin.Steady

section
variable {p : Plugin} {o : Options} {drift : Drift} {w : World}

theorem Course.from_eq_chain (hp : p.Deterministic) (step : Nat) (input : Payload) (w : World)
    (tools : List String) :
    let k := Course.from p o drift step input w tools
    (∀ tool reason, k.stop ≠ .interrupted tool reason) →
      (k.passed.map Passage.stepOutput, k.stop) = p.chain input tools := by
  induction tools generalizing step input w with
  | nil => simp [Course.from, Plugin.chain]
  | cons tool rest ih =>
    intro k hu
    cases hi : o.interruption (drift step w) with
    | some reason =>
      have hk : k = _ := Course.from_interrupted hi
      exact absurd (by rw [hk]) (hu tool reason)
    | none =>
      have hc := hp.verdict_eq tool (drift step w).occasion .first input
      cases hv : (p.call tool (drift step w).occasion input).verdict tool with
      | error stop =>
        have hk : k = _ := Course.from_stopped hi hv
        rw [hk, Plugin.chain, ← hc, hv]
        rfl
      | ok output =>
        have hk : k = _ := Course.from_passed hi hv
        have hh := ih (step + 1) output
          ((drift step w).after (p.call tool (drift step w).occasion input))
          (by simpa [hk] using hu)
        rw [hk, Plugin.chain, ← hc, hv]
        simp [Passage.stepOutput, ← hh]

/-- The token is neither cancelled nor due to be. -/
def World.Spares (w : World) (t : Token) : Prop :=
  Token.isCancelled (w.fired ++ w.due.map Prod.snd) t = false

/-- There is no deadline, and the token will not be cancelled but by a tool. -/
def Options.Free (o : Options) (w : World) : Prop :=
  o.deadline = none ∧ ∀ t, o.cancel = some t → w.Spares t

theorem Options.Free.interruption (h : o.Free w) : o.interruption w = none := by
  have hc : o.cancel.any (Token.isCancelled w.cancelled) = false := by
    cases ht : o.cancel with
    | none => rfl
    | some t =>
      have hn := h.2 t ht
      simp only [World.Spares, Token.isCancelled, List.any_eq_false, List.mem_append] at hn
      simp only [Option.any_some, Token.isCancelled, List.any_eq_false, World.cancelled,
        List.mem_append, List.mem_map, List.mem_filter]
      rintro f (hf | ⟨d, ⟨hd, -⟩, rfl⟩)
      · exact hn f (.inl hf)
      · exact hn d.2 (.inr (List.mem_map_of_mem hd))
  simp [Options.interruption, hc, h.1]

theorem Options.Free.after (h : o.Free w) {call : Call} (hc : call.cancels = []) :
    o.Free (w.after call) := by
  simpa [Options.Free, World.Spares, World.after, hc] using h

theorem Course.not_interrupted_of_free (hp : p.Steady) (h : o.Free w) (step : Nat)
    (input : Payload) (tools : List String) (tool : String) (reason : CancelReason) :
    (Course.from p o .still step input w tools).stop ≠ .interrupted tool reason := by
  induction tools generalizing step input w with
  | nil => simp [Course.from]
  | cons name rest ih =>
    have hi : o.interruption (Drift.still step w) = none := h.interruption
    have hf : o.Free (w.after (p.call name w.occasion input)) :=
      h.after (hp.cancels_eq name w.occasion input)
    cases hv : (p.call name (Drift.still step w).occasion input).verdict name with
    | error stop =>
      rw [Course.from_stopped hi hv]
      intro he
      have hs : stop.called? = some name := Call.called?_of_verdict hv
      simp only at he
      simp [he, Stop.called?] at hs
    | ok output =>
      rw [Course.from_passed hi hv]
      exact ih hf (step + 1) output

end

theorem handedOn_eq (payload : Payload) (passed : List Passage) : handedOn payload passed =
    (((passed.map Passage.stepOutput).getLast?).map StepOutput.output).getD payload := by
  simp [handedOn, List.getLast?_map, Option.map_map, Function.comp_def, Passage.stepOutput]

/-- The outcome of a request for deterministic tools, when nothing interrupts its run. -/
def Engine.settled (e : Engine) (r : Request) (discard : Bool) : Outcome :=
  match validate e.registry r.pluginId r.tools with
  | .error error => .error (.invalid error)
  | .ok p =>
    let (steps, stop) := p.chain r.payload r.tools
    stop.outcome p steps.length ⟨((steps.getLast?).map StepOutput.output).getD r.payload,
      if discard then [] else steps⟩

section
variable {e : Engine} {r : Request}

theorem Course.outcome_eq_settled {p : Plugin} {o : Options} {drift : Drift} {w : World}
    (hv : validate e.registry r.pluginId r.tools = .ok p) (hp : p.Deterministic)
    (hu : ∀ tool reason, (Course.of p o drift r.payload w r.tools).stop ≠
      .interrupted tool reason) :
    (Course.of p o drift r.payload w r.tools).outcome p o r.payload =
      e.settled r o.discardSteps := by
  have hc : ((Course.of p o drift r.payload w r.tools).passed.map Passage.stepOutput,
      (Course.of p o drift r.payload w r.tools).stop) = p.chain r.payload r.tools :=
    Course.from_eq_chain hp 0 r.payload w r.tools hu
  simp only [Engine.settled, hv, ← hc, Course.outcome, Course.result, handedOn_eq,
    List.length_map]

theorem Engine.settled_of_invalid {error : ValidationError}
    (h : validate e.registry r.pluginId r.tools = .error error) (discard : Bool) :
    e.settled r discard = .error (.invalid error) := by
  simp only [Engine.settled, h]

theorem Engine.run_settled (he : e.registry.Steady) (hlen : Indexable r.tools) {o : Options}
    {w : World} (h : o.Free w) (runId : String) (offered : Nat) :
    (e.run runId r o offered w).1.outcome = e.settled r o.discardSteps := by
  cases hv : validate e.registry r.pluginId r.tools with
  | error error =>
    rw [Engine.run_rejected hv runId o offered w, Engine.settled_of_invalid hv]
  | ok p =>
    have hp : p.Steady := he r.pluginId p (lookup_of_validate hv)
    rw [(Engine.run_shows hv hlen runId o offered w).1]
    exact Course.outcome_eq_settled hv hp.deterministic
      (Course.not_interrupted_of_free hp h 0 r.payload r.tools)

theorem Plugin.chain_tools {p : Plugin} {input : Payload} {tools : List String}
    (h : (p.chain input tools).2 = .finished) :
    (p.chain input tools).1.map StepOutput.tool = tools := by
  induction tools generalizing input with
  | nil => rfl
  | cons tool rest ih =>
    unfold Plugin.chain at h ⊢
    cases hv : (p.call tool .first input).verdict tool with
    | error stop =>
      have hs := Call.called?_of_verdict hv
      simp only [hv] at h
      simp [h, Stop.called?] at hs
    | ok output =>
      simp only [hv] at h
      simp [ih h]

theorem Plugin.Steady.chain_ne_panicked {p : Plugin} (hp : p.Steady) (input : Payload)
    (tools : List String) (tool : String) (q : Panic) :
    (p.chain input tools).2 ≠ .panicked tool q := by
  induction tools generalizing input with
  | nil => simp [Plugin.chain]
  | cons name rest ih =>
    unfold Plugin.chain
    cases hv : (p.call name .first input).verdict name with
    | error stop =>
      rintro rfl
      exact hp.verdict_ne_panicked name tool .first input q hv
    | ok output => exact ih output

theorem Engine.settled_cases (he : e.registry.Steady) (r : Request) :
    (∃ result steps, steps.map StepOutput.tool = r.tools ∧
      ∀ discard, e.settled r discard = .ok ⟨result, if discard then [] else steps⟩) ∨
    ∃ error, ∀ discard, e.settled r discard = .error error := by
  unfold Engine.settled
  cases hv : validate e.registry r.pluginId r.tools with
  | error error => exact .inr ⟨_, fun _ => rfl⟩
  | ok p =>
    have hp : p.Steady := he r.pluginId p (lookup_of_validate hv)
    cases hs : (p.chain r.payload r.tools).2 with
    | finished => exact .inl ⟨_, _, Plugin.chain_tools hs, fun _ => by simp only [hs]; rfl⟩
    | interrupted tool reason => exact .inr ⟨_, fun _ => by simp only [hs]; rfl⟩
    | failed tool error => exact .inr ⟨_, fun _ => by simp only [hs]; rfl⟩
    | notAnObject tool found => exact .inr ⟨_, fun _ => by simp only [hs]; rfl⟩
    | panicked tool q => exact absurd hs (hp.chain_ne_panicked r.payload r.tools tool q)

end

end ToolPipeline
