import ToolPipeline.Proofs.NamedEntries
import ToolPipeline.Proofs.Json.Members
import ToolPipeline.Proofs.Pipeline.Admission

/-! The records in memory. Every run adds the records of the steps that it has passed, in order, and
its outcome tells how many these are. -/

namespace ToolPipeline

def Registry.ofPlugins (plugins : List Plugin) : Registry := plugins.foldl register .empty

theorem Registry.id_of_lookup {r : Registry} {id : String} {p : Plugin}
    (h : r.lookup id = some p) : p.id = id :=
  r.keyed (id, p) ((mem_iff_lookup r.sorted).mpr h)

theorem Json.Object.mem_keys_iff {o : Json.Object} {key : String} :
    key ∈ o.keys ↔ (o.get? key).isSome = true := by
  rw [← toList_map_fst, List.mem_map, Option.isSome_iff_exists]
  constructor
  · rintro ⟨⟨k, v⟩, hm, rfl⟩
    exact ⟨v, mem_toList.mp hm⟩
  · rintro ⟨v, hv⟩
    exact ⟨(key, v), mem_toList.mpr hv, rfl⟩

theorem Call.ending_of_verdict_ok {call : Call} {tool : String} {output : Payload}
    (h : call.verdict tool = .ok output) : call.ending = .returned output.toValue := by
  unfold Call.verdict at h
  split at h
  · cases h
  · cases h
  · next v hv =>
    split at h
    · cases h
    · next found hfound =>
      cases h
      rw [hv, Json.Value.asObject?_eq_some_iff.mp hfound]
      rfl

theorem Course.call_of_passed {p : Plugin} {o : Options} {drift : Drift} {step : Nat}
    {input : Payload} {w : World} {tools : List String} {n : Nat} {s : Passage}
    (h : (Course.from p o drift step input w tools).passed[n]? = some s) :
    ∃ occasion, (p.call s.tool occasion s.input).ending = .returned s.output.toValue := by
  induction tools generalizing step input w n with
  | nil => simp [Course.from] at h
  | cons tool rest ih =>
    cases hi : o.interruption (drift step w) with
    | some reason => simp [Course.from_interrupted hi] at h
    | none =>
      cases hv : (p.call tool (drift step w).occasion input).verdict tool with
      | error stop => simp [Course.from_stopped hi hv] at h
      | ok output =>
        rw [Course.from_passed hi hv] at h
        cases n with
        | zero =>
          obtain rfl := Option.some.inj h
          exact ⟨_, Call.ending_of_verdict_ok hv⟩
        | succ n => exact ih h

theorem Course.invocations_of_passed {k : Course} {n : Nat} {s : Passage}
    (h : k.passed[n]? = some s) (payload : Payload) :
    (k.invocations payload)[n]? = some ⟨n, s.tool, s.input⟩ := by
  obtain ⟨hn, -⟩ := List.getElem?_eq_some_iff.mp h
  rw [Course.invocations, List.getElem?_append_left (by simpa using hn)]
  simp [List.getElem?_zipIdx, h]

/-- How many steps of a run of so many tools have succeeded, if it returns with this outcome. -/
def Outcome.passed? (tools : Nat) : Outcome → Option Nat
  | .ok _ => some tools
  | .error (.invalid _) => some 0
  | .error (.toolFailed _ _ step _) => some step
  | .error (.notAnObject _ _ step _) => some step
  | .error (.cancelled step _) => some step
  | .panicked _ => none

/-- The steps of a run that have succeeded: as many as its outcome tells, or those before the tool
with which it broke. They are its first calls, each of which returned the output of the step. -/
structure Ended.Passes (ended : Ended) (registry : Registry) (request : Request) (o : Options)
    (passed : List Passage) : Prop where
  count : ∀ m, ended.outcome.passed? request.tools.length = some m → passed.length = m
  broken : ∀ q, ended.outcome = .panicked q →
    ∃ i p occasion, ended.trace.invocations.getLast? = some i ∧ i.step = passed.length ∧
      validate registry request.pluginId request.tools = .ok p ∧
      (p.call i.tool occasion i.input).ending = .panicked q
  tools : passed.map Passage.tool <+: request.tools
  called : ∀ (n : Nat) s, passed[n]? = some s →
    ended.trace.invocations[n]? = some ⟨n, s.tool, s.input⟩ ∧
      ∃ p occasion, validate registry request.pluginId request.tools = .ok p ∧
        (p.call s.tool occasion s.input).ending = .returned s.output.toValue
  shown : ∀ r, ended.outcome = .ok r → o.discardSteps = false →
    r.steps = passed.map Passage.stepOutput

section
variable {registry : Registry} {request : Request} {o : Options}

theorem Ended.Passes.of_reject (error : ValidationError) (offered : Nat) :
    (Engine.reject (.start request.payload offered) error).Passes registry request o [] where
  count m hm := Option.some.inj hm
  broken q hq := by cases hq
  tools := List.nil_prefix
  called n s hs := by simp at hs
  shown r hr := by cases hr

section
variable {p : Plugin} {drift : Drift} {w : World} {payload : Payload} {tools : List String}
  {k : Course}

theorem Course.length_of_outcome (hk : k = .of p o drift payload w tools) {m : Nat}
    (hm : (k.outcome p o payload).passed? tools.length = some m) : k.passed.length = m := by
  rw [Course.outcome] at hm
  cases hs : k.stop with
  | finished =>
    have htools : k.passed.map Passage.tool = tools := by
      rw [hk] at hs ⊢
      exact (Course.from_tools p o drift 0 payload w tools).2 hs
    have hlen := congrArg List.length htools
    rw [List.length_map] at hlen
    rw [hs] at hm
    exact hlen.trans (Option.some.inj hm)
  | interrupted | failed | notAnObject =>
    rw [hs] at hm
    exact Option.some.inj hm
  | panicked tool q =>
    rw [hs] at hm
    cases hm

theorem Course.result_of_outcome {r : RunResult} (h : k.outcome p o payload = .ok r) :
    r = k.result o payload := by
  rw [Course.outcome] at h
  cases hs : k.stop with
  | finished =>
    rw [hs] at h
    exact (Outcome.ok.inj h).symm
  | interrupted | failed | notAnObject | panicked =>
    rw [hs] at h
    cases h

end

theorem Course.closed_passes {p : Plugin} {drift : Drift} {w : World} {c : RunContext}
    (hv : validate registry request.pluginId request.tools = .ok p) (hp : c.plugin = p)
    (ho : c.options = o) (offers : Nat → Nat) (offered elapsed : Nat) :
    let k := Course.of p o drift request.payload w request.tools
    (k.closed c request.payload offers offered elapsed).Passes registry request o k.passed := by
  intro k
  have hout : (k.closed c request.payload offers offered elapsed).outcome =
      k.outcome p o request.payload := by
    rw [Course.closed_outcome, hp, ho]
  have hinv := Course.closed_invocations c request.payload offers offered elapsed k
  refine ⟨fun m hm => ?_, fun q hq => ?_, ?_, fun n s hs => ⟨?_, ?_⟩, fun r hr hd => ?_⟩
  · rw [hout] at hm
    exact Course.length_of_outcome rfl hm
  · rw [hout] at hq
    obtain ⟨i, occasion, hlast, hstep, -, hcall⟩ := Course.last_of_panicked hq
    exact ⟨i, p, occasion, hinv ▸ hlast, hstep, hv, hcall⟩
  · exact (List.prefix_append _ _).trans
      (Course.from_tools p o drift 0 request.payload w request.tools).1
  · rw [hinv]
    exact Course.invocations_of_passed hs request.payload
  · obtain ⟨occasion, hcall⟩ := Course.call_of_passed hs
    exact ⟨p, occasion, hv, hcall⟩
  · rw [hout] at hr
    obtain rfl := Course.result_of_outcome hr
    simp [Course.result, hd]

end

def StepRecord.ofPassed (runId pluginId : String) (passed : List Passage) : List StepRecord :=
  passed.zipIdx.map fun s => ⟨runId, pluginId, s.1.tool, s.2, s.1.output.keys⟩

/-- A recorder that never breaks down has all records that it was offered. -/
theorem Course.closed_records {c : RunContext}
    (hc : ∀ n r, (c.recorder.react n r).panic = none) (payload : Payload) (offers : Nat → Nat)
    (offered elapsed : Nat) (k : Course) :
    (k.closed c payload offers offered elapsed).trace.records =
      StepRecord.ofPassed c.runId c.plugin.id k.passed := by
  rw [Trace.records_eq_offers, Course.closed_offers, List.filterMap_map]
  simp only [Function.comp_def, hc, Option.isNone_none, if_true]
  exact congrFun List.filterMap_eq_map _

theorem Engine.Ends.recorded {e : Engine} (hm : e.recorder = .memory) {runId : String}
    {request : Request} {o : Options} {drift : Drift} {offers : Nat → Nat} {w : World}
    {ended : Ended} (h : e.Ends runId request o drift offers w ended) :
    let passed := e.passed request o drift w
    ended.trace.records = StepRecord.ofPassed runId request.pluginId passed ∧
      ended.Passes e.registry request o passed := by
  intro passed
  cases h with
  | refused offered hv =>
    have hnone : passed = [] := passed_of_invalid hv o drift w
    rw [hnone]
    exact ⟨rfl, .of_reject _ offered⟩
  | @closed p offered elapsed hv =>
    have hpassed : passed = _ := passed_of_valid hv o drift w
    have hid : p.id = request.pluginId := Registry.id_of_lookup (lookup_of_validate hv)
    have hcalm (n : Nat) (r : StepRecord) :
        ((e.context runId p o).recorder.react n r).panic = none := by
      simp only [context, hm]
      rfl
    rw [hpassed, Course.closed_records hcalm]
    exact ⟨congrArg (StepRecord.ofPassed runId · _) hid,
      Course.closed_passes hv rfl rfl offers offered elapsed⟩

/-- A run to come, with the world that it finds. -/
structure Turn where
  runId : String
  request : Request
  options : Options
  world : World

namespace Engine

/-- The steps that a run passes to which nothing happens but by its own tools. -/
def passedIn (e : Engine) (u : Turn) : List Passage :=
  e.passed u.request u.options .still u.world

def recordsOf (e : Engine) (u : Turn) : List StepRecord :=
  StepRecord.ofPassed u.runId u.request.pluginId (e.passedIn u)

def take (e : Engine) (u : Turn) (t : Trail) : Ended × Trail :=
  e.runNext u.runId u.request u.options { t with world := u.world }

def takeAll (e : Engine) : List Turn → Trail → List Ended × Trail
  | [], t => ([], t)
  | u :: rest, t =>
    let first := e.take u t
    let later := e.takeAll rest first.2
    (first.1 :: later.1, later.2)

variable {e : Engine}

theorem take_eq (hm : e.recorder = .memory) {u : Turn} (hlen : Indexable u.request.tools)
    (t : Trail) :
    (e.take u t).2.kept = t.kept ++ e.recordsOf u ∧
      (e.take u t).1.Passes e.registry u.request u.options (e.passedIn u) := by
  have hends : e.Ends u.runId u.request u.options .still (t.offered + ·) u.world (e.take u t).1 :=
    e.run_ends hlen u.runId u.options t.offered u.world
  obtain ⟨hrecords, hpasses⟩ := hends.recorded hm
  have hkept : (e.take u t).2.kept = t.kept ++ e.keptOf (e.take u t).1 := rfl
  rw [hkept, keptOf, hm]
  exact ⟨congrArg (t.kept ++ ·) hrecords, hpasses⟩

theorem takeAll_eq (hm : e.recorder = .memory) {turns : List Turn}
    (hlen : ∀ u ∈ turns, Indexable u.request.tools) (t : Trail) :
    (e.takeAll turns t).2.kept = t.kept ++ turns.flatMap e.recordsOf ∧
      (e.takeAll turns t).1.length = turns.length ∧
      ∀ x ∈ turns.zip (e.takeAll turns t).1,
        x.2.Passes e.registry x.1.request x.1.options (e.passedIn x.1) := by
  induction turns generalizing t with
  | nil => simp [takeAll]
  | cons u rest ih =>
    obtain ⟨hu, hrest⟩ := List.forall_mem_cons.mp hlen
    obtain ⟨hkept, hpasses⟩ := take_eq hm hu t
    obtain ⟨ihkept, ihlen, ihpasses⟩ := ih hrest (e.take u t).2
    refine ⟨?_, congrArg (· + 1) ihlen, List.forall_mem_cons.mpr ⟨hpasses, ihpasses⟩⟩
    rw [List.flatMap_cons, ← List.append_assoc, ← hkept]
    exact ihkept

end Engine

theorem Course.from_keepSteps (p : Plugin) (o : Options) (b : Bool) (drift : Drift) (step : Nat)
    (input : Payload) (w : World) (tools : List String) :
    Course.from p { o with discardSteps := b } drift step input w tools =
      Course.from p o drift step input w tools := by
  induction tools generalizing step input w with
  | nil => rfl
  | cons tool rest ih =>
    simp only [Course.from, ih]
    rfl

theorem Engine.passed_keepSteps (e : Engine) (request : Request) (o : Options) (b : Bool)
    (drift : Drift) (w : World) :
    e.passed request { o with discardSteps := b } drift w = e.passed request o drift w := by
  simp only [Engine.passed, Course.of, Course.from_keepSteps]

theorem StepRecord.ofPassed_getElem? {passed : List Passage} {n : Nat} {s : Passage}
    (h : passed[n]? = some s) (runId pluginId : String) :
    (ofPassed runId pluginId passed)[n]? = some ⟨runId, pluginId, s.tool, n, s.output.keys⟩ := by
  simp [ofPassed, List.getElem?_zipIdx, h]

/-- One after the other, runs add the records of the steps that they have passed to those that a
recorder in memory has, and so does a run among other things that happen. -/
theorem audit_trail_exact :
    (∀ (plugins : List Plugin) (turns : List Turn) (t : Trail),
      (∀ u ∈ turns, Indexable u.request.tools) →
      let e : Engine := ⟨.ofPlugins plugins, .memory⟩
      let ran := e.takeAll turns t
      ran.2.kept = t.kept ++ turns.flatMap e.recordsOf ∧ ran.1.length = turns.length ∧
      ∀ x ∈ turns.zip ran.1, x.2.Passes e.registry x.1.request x.1.options (e.passedIn x.1)) ∧
    (∀ (plugins : List Plugin) (j : Job) (found : Nat → Nat × World) (w : World),
      Indexable j.request.tools →
      let e : Engine := ⟨.ofPlugins plugins, .memory⟩
      let passed := e.passed j.request j.options (Progress.drift found) w
      ∃ ended, (∀ n, 2 * j.request.tools.length + 2 ≤ n →
          Progress.after e j found n = .over ended) ∧
        ended.trace.records = StepRecord.ofPassed j.runId j.request.pluginId passed ∧
        ended.Passes e.registry j.request j.options passed) ∧
    (∀ (e : Engine) (request : Request) (o : Options) (b : Bool) (drift : Drift) (w : World),
      e.passed request { o with discardSteps := b } drift w = e.passed request o drift w) ∧
    ∀ (runId pluginId : String) (passed : List Passage),
      let records := StepRecord.ofPassed runId pluginId passed
      records.length = passed.length ∧
      ∀ (n : Nat) s, passed[n]? = some s →
        ∃ keys, records[n]? = some ⟨runId, pluginId, s.tool, n, keys⟩ ∧
          keys.Pairwise (· < ·) ∧ ∀ key, key ∈ keys ↔ (s.output.get? key).isSome = true := by
  refine ⟨?_, ?_, Engine.passed_keepSteps, ?_⟩
  · intro plugins turns t hlen e ran
    exact Engine.takeAll_eq rfl hlen t
  · intro plugins j found w hlen e passed
    obtain ⟨ended, hover, hends⟩ := Progress.over_ends e hlen found w
    exact ⟨ended, hover, hends.recorded rfl⟩
  · intro runId pluginId passed records
    refine ⟨by simp [records, StepRecord.ofPassed], fun n s hs => ?_⟩
    exact ⟨s.output.keys, StepRecord.ofPassed_getElem? hs runId pluginId, s.output.sorted,
      fun key => Json.Object.mem_keys_iff⟩

/-- A run breaks at its second step, one is refused, and one keeps no outputs: records of the first
and of the last are added to an earlier one. -/
theorem audit_trail_exact_worn :
    let payload : Payload := (Json.Object.empty.insert "b" .null).insert "a" .null
    let turns : List Turn :=
      [⟨"r1", ⟨"p", ["use", "use"], payload⟩, .default, .initial⟩,
        ⟨"r2", ⟨"p", ["use", "lost"], payload⟩, .default, .initial⟩,
        ⟨"r3", ⟨"p", ["use"], .empty⟩, Options.default.withoutSteps, .initial⟩]
    let e : Engine := ⟨.ofPlugins [brittlePlugin], .memory⟩
    let t : Trail := ⟨.initial, 1, [⟨"r0", "p", "use", 0, []⟩]⟩
    let ran := e.takeAll turns t
    (∀ u ∈ turns, Indexable u.request.tools) ∧
    ran.1.map Ended.outcome = [.panicked (.text "worn"),
      .error (.invalid (.unknownTool "p" "lost" 1)), .ok ⟨.empty, []⟩] ∧
    ran.2.kept = [⟨"r0", "p", "use", 0, []⟩, ⟨"r1", "p", "use", 0, ["a", "b"]⟩,
      ⟨"r3", "p", "use", 0, []⟩] := by
  intro payload turns e t ran
  have hlen : ∀ u ∈ turns, Indexable u.request.tools := by
    simp only [turns, List.forall_mem_cons, List.not_mem_nil, false_implies, implies_true, and_true]
    decide
  obtain ⟨hkept, -⟩ := audit_trail_exact.1 [brittlePlugin] turns t hlen
  exact ⟨hlen, rfl, hkept⟩

end ToolPipeline
