import Mathlib.Data.List.Sort
import ToolPipeline.Proofs.Pipeline.AuditTrail
import ToolPipeline.Proofs.Pipeline.CourseAgreement
import ToolPipeline.Proofs.Pipeline.Interruption
import ToolPipeline.Proofs.NumberedEntries

/-! The values in its payloads do not show in what is recorded and logged of a run. Runs that pass
the same steps, with the same keys in their outputs, and end in the same way, leave the same records
and the same log. -/

namespace ToolPipeline

def Log.aside (runId : String) : String × Log.Field → String × Log.Field
  | (name, .text s) => (name, .text (if name = "run_id" ∧ s = runId then "" else s))
  | (name, .int n) => (name, .int (if name = "elapsed_ms" then 0 else n))
  | f => f

/-- An event without the id of its run and the time that something took. -/
def Log.Event.aside (runId : String) (e : Log.Event) : Log.Event :=
  { e with fields := e.fields.map (Log.aside runId) }

def Trace.told (runId : String) (t : Trace) : List Log.Event :=
  t.events.map (Log.Event.aside runId)

theorem Trace.told_append (runId : String) (t u : Trace) :
    told runId (t ++ u) = t.told runId ++ u.told runId := by
  simp only [told, events, List.flatMap_append, List.map_append]

theorem Trace.told_append_congr {id id' : String} {t t' u u' : Trace}
    (ht : t.told id = t'.told id') (hu : u.told id = u'.told id') :
    told id (t ++ u) = told id' (t' ++ u') := by
  rw [told_append, told_append, ht, hu]

theorem Trace.told_flatMap {α : Type} (runId : String) (l : List α) (f : α → Trace) :
    told runId (l.flatMap f) = l.flatMap fun a => (f a).told runId := by
  simp only [told, events, List.flatMap_assoc, List.map_flatMap]

/-- A recorder that makes no difference between records of two runs, but for their ids. `offers` and
`offers'` tell how many records it had been offered before that of each step. -/
def Recorder.Indifferent (recorder : Recorder) (id id' : String) (offers offers' : Nat → Nat) :
    Prop :=
  ∀ r : StepRecord, r.runId = id →
    let x := recorder.react (offers r.step) r
    let y := recorder.react (offers' r.step) { r with runId := id' }
    x.events.map (Log.Event.aside id) = y.events.map (Log.Event.aside id') ∧ x.panic = y.panic

theorem Recorder.Indifferent.refl (recorder : Recorder) (id : String) (offers : Nat → Nat) :
    recorder.Indifferent id id offers offers := by
  rintro r rfl
  exact ⟨rfl, rfl⟩

theorem Recorder.Indifferent.log (id id' : String) (offers offers' : Nat → Nat) :
    Recorder.log.Indifferent id id' offers offers' := by
  rintro r rfl
  simp [Recorder.log, logged, Log.Event.aside, Log.aside, Log.Field.nat]

/-- Two lists of steps whose outputs have the same keys, as far as both go. -/
def SameKeys (l m : List Passage) : Prop :=
  ∀ (n : Nat) s t, l[n]? = some s → m[n]? = some t →
    ∀ key, (s.output.get? key).isSome = (t.output.get? key).isSome

/-- Both without an error, or both with the same one. -/
def Outcome.EndsLike : Outcome → Outcome → Prop
  | .ok _, .ok _ => True
  | .error e, .error e' => e = e'
  | _, _ => False

theorem Outcome.EndsLike.symm {a b : Outcome} (h : a.EndsLike b) : b.EndsLike a := by
  cases a <;> cases b <;> first | exact h | exact Eq.symm h

structure Course.Like (k k' : Course) : Prop where
  tools : k.passed.map Passage.tool = k'.passed.map Passage.tool
  keys : k.passed.map (·.output.keys) = k'.passed.map (·.output.keys)
  stop : k.stop = k'.stop

theorem Json.Object.keys_eq_of_same {o p : Json.Object}
    (h : ∀ key, (o.get? key).isSome = (p.get? key).isSome) : o.keys = p.keys := by
  refine List.Pairwise.eq_of_mem_iff o.sorted p.sorted fun key => ?_
  exact mem_keys_iff.trans (by rw [h key, mem_keys_iff])

def Stop.tool? : Stop → Option String
  | .finished => none
  | .interrupted tool _ | .failed tool _ | .notAnObject tool _ | .panicked tool _ => some tool

theorem Call.tool?_of_verdict {call : Call} {tool : String} {stop : Stop}
    (h : call.verdict tool = .error stop) : stop.tool? = some tool := by
  have hc := called?_of_verdict h
  cases stop with
  | finished | interrupted => cases hc
  | failed | notAnObject | panicked => exact hc

section
variable {p q : Plugin} {o : Options} {drift drift' : Drift} {step : Nat} {input : Payload}
  {w w' : World} {tools : List String} {k k' : Course}

theorem Course.from_stop_tool {tool : String}
    (h : (Course.from p o drift step input w tools).stop.tool? = some tool) :
    tools[(Course.from p o drift step input w tools).passed.length]? = some tool := by
  induction tools generalizing step input w with
  | nil => simp [Course.from, Stop.tool?] at h
  | cons name rest ih =>
    cases hi : o.interruption (drift step w) with
    | some reason =>
      rw [Course.from_interrupted hi] at h ⊢
      exact h
    | none =>
      cases hv : (p.call name (drift step w).occasion input).verdict name with
      | error stop =>
        rw [Course.from_stopped hi hv] at h ⊢
        exact (Call.tool?_of_verdict hv).symm.trans h
      | ok output =>
        rw [Course.from_passed hi hv] at h ⊢
        exact ih h

/-- An outcome tells the stop of a run of given tools, and the step at which it stops. -/
theorem Stop.eq_of_endsLike {m n : Nat} {result result' : RunResult} {stop stop' : Stop}
    (ht : ∀ tool, stop.tool? = some tool → tools[m]? = some tool)
    (ht' : ∀ tool, stop'.tool? = some tool → tools[n]? = some tool)
    (h : (stop.outcome p m result).EndsLike (stop'.outcome q n result')) :
    stop = stop' ∧ (stop ≠ .finished → m = n) := by
  cases stop <;> cases stop' <;>
    simp only [Stop.outcome, Outcome.EndsLike, reduceCtorEq, PipelineError.cancelled.injEq,
      PipelineError.toolFailed.injEq, PipelineError.notAnObject.injEq] at h
  case finished.finished => exact ⟨rfl, fun hne => absurd rfl hne⟩
  case interrupted.interrupted tool reason tool' reason' =>
    obtain ⟨rfl, rfl⟩ := h
    have he := (ht tool rfl).symm.trans (ht' tool' rfl)
    exact ⟨by rw [Option.some.inj he], fun _ => rfl⟩
  case failed.failed =>
    obtain ⟨-, rfl, rfl, rfl⟩ := h
    exact ⟨rfl, fun _ => rfl⟩
  case notAnObject.notAnObject =>
    obtain ⟨-, rfl, rfl, rfl⟩ := h
    exact ⟨rfl, fun _ => rfl⟩

theorem Course.like_of_endsLike {payload payload' : Payload}
    (hk : k = .of p o drift payload w tools) (hk' : k' = .of q o drift' payload' w' tools)
    (hkeys : SameKeys k.passed k'.passed)
    (hends : (k.outcome p o payload).EndsLike (k'.outcome q o payload')) : k.Like k' := by
  have ht := Course.from_tools p o drift 0 payload w tools
  have ht' := Course.from_tools q o drift' 0 payload' w' tools
  rw [← Course.of, ← hk] at ht
  rw [← Course.of, ← hk'] at ht'
  have hstand : ∀ tool, k.stop.tool? = some tool → tools[k.passed.length]? = some tool := by
    rw [hk]
    exact fun tool h => Course.from_stop_tool h
  have hstand' : ∀ tool, k'.stop.tool? = some tool → tools[k'.passed.length]? = some tool := by
    rw [hk']
    exact fun tool h => Course.from_stop_tool h
  obtain ⟨hstop, hstep⟩ := Stop.eq_of_endsLike hstand hstand' hends
  have htools : k.passed.map Passage.tool = k'.passed.map Passage.tool := by
    by_cases hf : k.stop = .finished
    · exact (ht.2 hf).trans (ht'.2 (hstop ▸ hf)).symm
    · have hlen : (k.passed.map Passage.tool).length = (k'.passed.map Passage.tool).length := by
        simpa using hstep hf
      have hp := List.prefix_iff_eq_take.mp ((List.prefix_append _ _).trans ht.1)
      have hp' := List.prefix_iff_eq_take.mp ((List.prefix_append _ _).trans ht'.1)
      rw [hp, hlen, ← hp']
  refine ⟨htools, ?_, hstop⟩
  have hlen : k.passed.length = k'.passed.length := by simpa using congrArg List.length htools
  refine List.ext_getElem (by simpa using hlen) fun n hn hn' => ?_
  simp only [List.getElem_map]
  simp only [List.length_map] at hn hn'
  exact Json.Object.keys_eq_of_same
    (hkeys n _ _ (List.getElem?_eq_getElem hn) (List.getElem?_eq_getElem hn'))

end

section
variable {c d : RunContext} {k k' : Course}

theorem Course.Like.length_eq (h : k.Like k') : k.passed.length = k'.passed.length := by
  simpa using congrArg List.length h.tools

theorem Course.Like.tool_eq (h : k.Like k') {n : Nat} (hn : n < k.passed.length)
    (hn' : n < k'.passed.length) : k.passed[n].tool = k'.passed[n].tool := by
  have he := List.getElem_of_eq h.tools (i := n) (by simpa using hn)
  simpa using he

theorem Course.Like.keys_eq (h : k.Like k') {n : Nat} (hn : n < k.passed.length)
    (hn' : n < k'.passed.length) : k.passed[n].output.keys = k'.passed[n].output.keys := by
  have he := List.getElem_of_eq h.keys (i := n) (by simpa using hn)
  simpa using he

theorem Passage.record_like {s t : Passage} (hp : c.plugin.id = d.plugin.id) (ht : s.tool = t.tool)
    (hkeys : s.output.keys = t.output.keys) (n : Nat) :
    { s.record c n with runId := d.runId } = t.record d n := by
  simp only [Passage.record, hp, ht, hkeys]

theorem Happening.told_offered {id id' : String} {r : StepRecord} {x y : Reaction}
    (hr : r.runId = id) (hevents : x.events.map (Log.Event.aside id) =
      y.events.map (Log.Event.aside id')) (hpanic : x.panic = y.panic) :
    Trace.told id [.offered r x] = Trace.told id' [.offered { r with runId := id' } y] := by
  subst hr
  have hbroken (q : Panic) : (Recorder.brokeDown r q).aside r.runId =
      (Recorder.brokeDown { r with runId := id' } q).aside id' := by
    simp [Recorder.brokeDown, Log.Event.aside, Log.aside, Log.Field.nat]
  simp only [Trace.told, Trace.events, List.flatMap_cons, List.flatMap_nil, events,
    List.append_nil, List.map_append, hevents, hpanic]
  cases y.panic with
  | none => rfl
  | some q => simp only [Option.map_some, Option.toList_some, List.map_cons, List.map_nil, hbroken]

theorem Passage.told_like {s t : Passage} {offers offers' : Nat → Nat} {n : Nat}
    (hp : c.plugin.id = d.plugin.id) (hr : c.recorder = d.recorder)
    (hi : c.recorder.Indifferent c.runId d.runId offers offers') (ht : s.tool = t.tool)
    (hkeys : s.output.keys = t.output.keys) :
    Trace.told c.runId (s.happenings c n (offers n)) =
      Trace.told d.runId (t.happenings d n (offers' n)) := by
  have hrecord := Passage.record_like hp ht hkeys n
  have hreact : (c.recorder.react (offers n) (s.record c n)).events.map (Log.Event.aside c.runId) =
      (d.recorder.react (offers' n) (t.record d n)).events.map (Log.Event.aside d.runId) ∧
      (c.recorder.react (offers n) (s.record c n)).panic =
        (d.recorder.react (offers' n) (t.record d n)).panic := by
    rw [← hr, ← hrecord]
    exact hi (s.record c n) rfl
  have hoffered := Happening.told_offered (r := s.record c n) rfl hreact.1 hreact.2
  rw [hrecord] at hoffered
  have hbefore : Trace.told c.runId
      [.moved (.before n) (.executing n), .invoked ⟨n, s.tool, s.input⟩,
        .finished n s.tool s.took] =
      Trace.told d.runId
      [.moved (.before n) (.executing n), .invoked ⟨n, t.tool, t.input⟩,
        .finished n t.tool t.took] := by
    simp [Trace.told, Trace.events, Happening.events, State.moved, Log.Event.aside, Log.aside,
      Log.Field.nat, ht]
  exact Trace.told_append_congr hbefore hoffered

theorem Stop.told_like (id id' : String) (step : Nat) (input input' : Payload) (stop : Stop) :
    Trace.told id (stop.happenings step input) = Trace.told id' (stop.happenings step input') := by
  cases stop <;>
    simp [Stop.happenings, Trace.told, Trace.events, Happening.events, State.moved, Log.Event.aside,
      Log.aside, Log.Field.nat]

theorem Engine.close_told {id id' : String} {a b : Ended} (h : a.trace.told id = b.trace.told id')
    (hends : a.outcome.EndsLike b.outcome)
    (hsteps : ∀ r r', a.outcome = .ok r → b.outcome = .ok r' → r.steps.length = r'.steps.length)
    (elapsed elapsed' : Nat) :
    (close elapsed a).trace.told id = (close elapsed' b).trace.told id' := by
  unfold close
  cases ha : a.outcome with
  | ok r =>
    cases hb : b.outcome with
    | ok r' =>
      refine Trace.told_append_congr h ?_
      rw [hsteps r r' ha hb]
      rfl
    | error | panicked =>
      rw [ha, hb] at hends
      cases hends
  | error e =>
    cases hb : b.outcome with
    | error e' =>
      rw [ha, hb] at hends
      obtain rfl : e = e' := hends
      refine Trace.told_append_congr h ?_
      simp [Trace.told, Trace.events, Happening.events, Log.Event.aside, Log.aside, Log.Field.nat]
    | ok | panicked =>
      rw [ha, hb] at hends
      cases hends
  | panicked q =>
    rw [ha] at hends
    cases hends

theorem Course.closed_told (hl : k.Like k') (hp : c.plugin.id = d.plugin.id)
    (hr : c.recorder = d.recorder) (ho : c.options = d.options) {payload payload' : Payload}
    {offers offers' : Nat → Nat} (hi : c.recorder.Indifferent c.runId d.runId offers offers')
    (hends : (k.outcome c.plugin c.options payload).EndsLike
      (k'.outcome d.plugin d.options payload')) (offered offered' elapsed elapsed' : Nat) :
    (k.closed c payload offers offered elapsed).trace.told c.runId =
      (k'.closed d payload' offers' offered' elapsed').trace.told d.runId := by
  have hlen := hl.length_eq
  have hpast : Trace.told c.runId (Run.past c payload offers offered k.passed).trace =
      Trace.told d.runId (Run.past d payload' offers' offered' k'.passed).trace := by
    refine (Trace.told_flatMap ..).trans (.trans ?_ (Trace.told_flatMap ..).symm)
    refine flatMap_zipIdx_congr hlen fun n hn hn' => ?_
    exact Passage.told_like hp hr hi (hl.tool_eq hn hn') (hl.keys_eq hn hn')
  refine Engine.close_told ?_ hends ?_ elapsed elapsed'
  · have hstop : Trace.told c.runId
        (k.stop.happenings k.passed.length (handedOn payload k.passed)) = Trace.told d.runId
        (k'.stop.happenings k'.passed.length (handedOn payload' k'.passed)) := by
      rw [← hl.stop, ← hlen]
      exact Stop.told_like ..
    exact Trace.told_append_congr hpast hstop
  · intro r r' ha hb
    have hstop := hl.stop
    cases hs : k.stop with
    | finished =>
      simp only [Stop.ended, hs, ← hstop, Stop.outcome, Outcome.ok.injEq] at ha hb
      rw [← ha, ← hb]
      simp only [Run.past, ho]
      split
      · rfl
      · simpa using hlen
    | interrupted | failed | notAnObject | panicked =>
      simp only [Stop.ended, hs, Stop.outcome, reduceCtorEq] at ha

/-- What recorders and the log are told of two runs is the same but for run ids and times; for the
log this takes a recorder that makes no difference between the runs. -/
structure Ended.ToldLike (a b : Ended) (recorder : Recorder) (id id' : String)
    (offers offers' : Nat → Nat) : Prop where
  records : b.trace.offers.map Prod.fst = a.trace.offers.map fun o => { o.1 with runId := id' }
  events : recorder.Indifferent id id' offers offers' → a.trace.told id = b.trace.told id'

theorem Course.closed_toldLike (hl : k.Like k') (hp : c.plugin.id = d.plugin.id)
    (hr : c.recorder = d.recorder) (ho : c.options = d.options) {payload payload' : Payload}
    (hends : (k.outcome c.plugin c.options payload).EndsLike
      (k'.outcome d.plugin d.options payload')) (offers offers' : Nat → Nat)
    (offered offered' elapsed elapsed' : Nat) :
    (k.closed c payload offers offered elapsed).ToldLike
      (k'.closed d payload' offers' offered' elapsed')
      c.recorder c.runId d.runId offers offers' := by
  refine ⟨?_, fun hi => Course.closed_told hl hp hr ho hi hends offered offered' elapsed elapsed'⟩
  have hlen := hl.length_eq
  rw [Course.closed_offers, Course.closed_offers, List.map_map, List.map_map]
  refine List.ext_getElem (by simpa using hlen.symm) fun n hn' hn => ?_
  simp only [List.length_map, List.length_zipIdx] at hn hn'
  simp only [List.getElem_map, List.getElem_zipIdx, Nat.zero_add, Function.comp_apply]
  exact (Passage.record_like hp (hl.tool_eq hn hn') (hl.keys_eq hn hn') n).symm

end

/-- Plugins that two registries have under this id go by the same id themselves. -/
def Registry.AgreeOn (r r' : Registry) (pluginId : String) : Prop :=
  ∀ p q, r.lookup pluginId = some p → r'.lookup pluginId = some q → p.id = q.id

theorem Registry.agreeOn (r r' : Registry) (pluginId : String) : r.AgreeOn r' pluginId :=
  fun _ _ hp hq => (id_of_lookup hp).trans (id_of_lookup hq).symm

theorem Progress.ends_of_over {e : Engine} {j : Job} {found : Nat → Nat × World} {n : Nat}
    {ended : Ended} (hlen : Indexable j.request.tools) (h : after e j found n = .over ended)
    (w : World) : e.Ends j.runId j.request j.options (drift found) (offers found) w ended := by
  obtain ⟨last, hover, hends⟩ := over_ends e hlen found w
  exact ended_unique (hover _ (Nat.le_refl _)) h ▸ hends

theorem Course.not_endsLike_invalid (p : Plugin) (o : Options) (payload : Payload) (k : Course)
    (error : ValidationError) : ¬ (k.outcome p o payload).EndsLike (.error (.invalid error)) := by
  rw [Course.outcome]
  cases k.stop <;> simp [Stop.outcome, Outcome.EndsLike]

theorem Engine.Ends.toldLike {e f : Engine} {pluginId : String}
    (hid : e.registry.AgreeOn f.registry pluginId) (hr : e.recorder = f.recorder)
    {id id' : String} {tools : List String} {payload payload' : Payload} {o : Options}
    {drift drift' : Drift} {offers offers' : Nat → Nat} {w w' : World} {a b : Ended}
    (ha : e.Ends id ⟨pluginId, tools, payload⟩ o drift offers w a)
    (hb : f.Ends id' ⟨pluginId, tools, payload'⟩ o drift' offers' w' b)
    (hkeys : SameKeys (e.passed ⟨pluginId, tools, payload⟩ o drift w)
      (f.passed ⟨pluginId, tools, payload'⟩ o drift' w'))
    (hends : a.outcome.EndsLike b.outcome) : a.ToldLike b e.recorder id id' offers offers' := by
  cases ha with
  | @refused error offered hv =>
    cases hb with
    | @refused error' offered' hv' =>
      simp only [reject_start, Outcome.EndsLike, PipelineError.invalid.injEq] at hends
      subst hends
      rw [reject_start, reject_start]
      refine ⟨rfl, fun _ => ?_⟩
      simp [Trace.told, Trace.events, Happening.events, State.moved, Log.Event.aside, Log.aside]
    | @closed q offered' elapsed' hv' =>
      rw [reject_start, Course.closed_outcome] at hends
      exact (Course.not_endsLike_invalid _ _ _ _ _ hends.symm).elim
  | @closed p offered elapsed hv =>
    cases hb with
    | @refused error' offered' hv' =>
      rw [reject_start, Course.closed_outcome] at hends
      exact (Course.not_endsLike_invalid _ _ _ _ _ hends).elim
    | @closed q offered' elapsed' hv' =>
      rw [passed_of_valid hv, passed_of_valid hv'] at hkeys
      rw [Course.closed_outcome, Course.closed_outcome] at hends
      exact Course.closed_toldLike (c := e.context id p o) (d := f.context id' q o)
        (Course.like_of_endsLike rfl rfl hkeys hends)
        (hid p q (lookup_of_validate hv) (lookup_of_validate hv')) hr rfl hends _ _ _ _ _ _

/-- Run ids and times aside, recorders and the log are told the same of two runs of the same tools
whose outputs have the same keys and that end in the same way, whatever their payloads hold. Each of
the recorders at hand makes no difference between runs, and any recorder makes none between runs of
one id that find it in the same condition. -/
theorem payload_values_stay_untold :
    (∀ (e f : Engine) (pluginId : String) (tools : List String) (payload payload' : Payload)
      (o : Options) (id id' : String) (m n : Nat) (w w' : World),
      e.registry.AgreeOn f.registry pluginId → e.recorder = f.recorder → Indexable tools →
      let x : Request := ⟨pluginId, tools, payload⟩
      let y : Request := ⟨pluginId, tools, payload'⟩
      let a := (e.run id x o m w).1
      let b := (f.run id' y o n w').1
      SameKeys (e.passed x o .still w) (f.passed y o .still w') → a.outcome.EndsLike b.outcome →
        a.ToldLike b e.recorder id id' (m + ·) (n + ·)) ∧
    (∀ (e f : Engine) (pluginId : String) (tools : List String) (payload payload' : Payload)
      (o : Options) (id id' : String) (began began' : Nat) (found found' : Nat → Nat × World)
      (m n : Nat) (a b : Ended) (w w' : World),
      e.registry.AgreeOn f.registry pluginId → e.recorder = f.recorder → Indexable tools →
      let x : Request := ⟨pluginId, tools, payload⟩
      let y : Request := ⟨pluginId, tools, payload'⟩
      Progress.after e ⟨id, x, o, began⟩ found m = .over a →
      Progress.after f ⟨id', y, o, began'⟩ found' n = .over b →
      SameKeys (e.passed x o (Progress.drift found) w) (f.passed y o (Progress.drift found') w') →
      a.outcome.EndsLike b.outcome →
        a.ToldLike b e.recorder id id' (Progress.offers found) (Progress.offers found')) ∧
    (∀ (registry : Registry) (plugins plugins' : List Plugin) (pluginId : String),
      registry.AgreeOn registry pluginId ∧
      (Registry.ofPlugins plugins).AgreeOn (.ofPlugins plugins') pluginId) ∧
    (∀ (id id' : String) (offers offers' : Nat → Nat),
      Recorder.memory.Indifferent id id' offers offers' ∧
      Recorder.none.Indifferent id id' offers offers' ∧
      Recorder.log.Indifferent id id' offers offers' ∧
      ∀ recorder : Recorder, recorder.Indifferent id id offers offers) ∧
    ∀ (id id' : String) (pluginId : String) (tools : List String) (payload payload' : Payload),
      (Engine.span id ⟨pluginId, tools, payload⟩).fields.map (Log.aside id) =
        (Engine.span id' ⟨pluginId, tools, payload'⟩).fields.map (Log.aside id') := by
  refine ⟨?_, ?_, ?_, ?_, ?_⟩
  · intro e f pluginId tools payload payload' o id id' m n w w' hid hr hlen
    exact Engine.Ends.toldLike hid hr (e.run_ends hlen id o m w) (f.run_ends hlen id' o n w')
  · intro e f pluginId tools payload payload' o id id' began began' found found' m n a b w w' hid hr
      hlen x y ha hb hkeys hends
    exact Engine.Ends.toldLike hid hr (Progress.ends_of_over (j := ⟨id, x, o, began⟩) hlen ha w)
      (Progress.ends_of_over (j := ⟨id', y, o, began'⟩) hlen hb w') hkeys hends
  · intro registry plugins plugins' pluginId
    exact ⟨registry.agreeOn registry pluginId, Registry.agreeOn _ _ pluginId⟩
  · intro id id' offers offers'
    exact ⟨fun _ _ => ⟨rfl, rfl⟩, fun _ _ => ⟨rfl, rfl⟩, .log id id' offers offers',
      fun recorder => .refl recorder id offers⟩
  · intro id id' pluginId tools payload payload'
    simp [Engine.span, Log.aside, Log.Field.nat]

/-- A text and a number under one key are told alike. -/
theorem payload_values_stay_untold_frame :
    let e := Engine.new (.ofPlugins [haltPlugin])
    let f := Engine.new (.ofPlugins [brittlePlugin, haltPlugin])
    let payload : Payload := Json.Object.empty.insert "frame" (.string "secret")
    let payload' : Payload := Json.Object.empty.insert "frame" (.int 7)
    let x : Request := ⟨"p", ["halt", "halt"], payload⟩
    let y : Request := ⟨"p", ["halt", "halt"], payload'⟩
    let o := Options.default.withCancel [7]
    let a := (e.run "r" x o 0 .initial).1
    let b := (f.run "s" y o 1 .initial).1
    e.registry.AgreeOn f.registry "p" ∧ e.recorder = f.recorder ∧ Indexable x.tools ∧
    SameKeys (e.passed x o .still .initial) (f.passed y o .still .initial) ∧
    a.outcome = .error (.cancelled 1 .signal) ∧ a.outcome.EndsLike b.outcome ∧
    e.recorder.Indifferent "r" "s" (0 + ·) (1 + ·) ∧
    a.trace.offers.map Prod.fst = [⟨"r", "p", "halt", 0, ["frame"]⟩] ∧
    b.trace.offers.map Prod.fst = [⟨"s", "p", "halt", 0, ["frame"]⟩] ∧
    a.trace.told "r" = b.trace.told "s" := by
  intro e f payload payload' x y o a b
  have hlen : Indexable x.tools := by decide
  have hx : e.passed x o .still .initial = [⟨"halt", payload, 5, payload⟩] := rfl
  have hy : f.passed y o .still .initial = [⟨"halt", payload', 5, payload'⟩] := rfl
  have hkeys : SameKeys (e.passed x o .still .initial) (f.passed y o .still .initial) := by
    rw [hx, hy]
    intro n s t hs ht key
    cases n with
    | zero =>
      cases hs
      cases ht
      simp only [payload, payload', Json.Object.get?_insert]
      split <;> rfl
    | succ n => cases hs
  have hends : a.outcome.EndsLike b.outcome := rfl
  obtain ⟨hrun, -, hagree, hrecorders, -⟩ := payload_values_stay_untold
  obtain ⟨-, hid⟩ := hagree e.registry [haltPlugin] [brittlePlugin, haltPlugin] "p"
  obtain ⟨-, -, hlog, -⟩ := hrecorders "r" "s" (0 + ·) (1 + ·)
  have htold := hrun e f "p" x.tools payload payload' o "r" "s" 0 1 .initial .initial hid rfl hlen
    hkeys hends
  exact ⟨hid, rfl, hlen, hkeys, rfl, hends, hlog, rfl, htold.records, htold.events hlog⟩

end ToolPipeline
