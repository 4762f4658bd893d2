import ToolPipeline.Pipeline.Pool
import ToolPipeline.Proofs.Interleaving
import ToolPipeline.Proofs.Pipeline.ChainedRuns
import ToolPipeline.Proofs.Pipeline.CourseAgreement
import ToolPipeline.Proofs.Pipeline.Interruption

/-! Runs side by side. Whatever order their steps take, every run ends as it does alone, and the
records that a recorder in memory has are those of the runs, put together. -/

namespace ToolPipeline

theorem Options.interruption_eq_none_of_before {o : Options} {w v : World} (hb : w.Before v)
    (h : o.interruption v = none) : o.interruption w = none := by
  cases hw : o.interruption w with
  | none => rfl
  | some reason =>
    cases reason with
    | signal => simp [interruption_signal_of_before hb hw] at h
    | deadline =>
      obtain ⟨d, hd, hle⟩ := deadline_of_interruption hw
      have hlt := lt_deadline_of_interruption h hd
      have hnow := hb.1
      omega

theorem Run.past_congr {c : RunContext} {payload : Payload} {offers offers' : Nat → Nat}
    {passed : List Passage} (h : ∀ n < passed.length, offers n = offers' n) (offered : Nat) :
    Run.past c payload offers offered passed = Run.past c payload offers' offered passed := by
  have htrace : (passed.zipIdx.flatMap fun s => s.1.happenings c s.2 (offers s.2)) =
      passed.zipIdx.flatMap fun s => s.1.happenings c s.2 (offers' s.2) := by
    refine flatMap_zipIdx_congr rfl fun n hn _ => ?_
    simp only [h n hn]
  simp only [Run.past, htrace]

theorem Course.closed_trace (c : RunContext) (payload : Payload) (offers : Nat → Nat)
    (offered elapsed : Nat) (k : Course) :
    (Run.past c payload offers offered k.passed).trace ++
        k.stop.happenings k.passed.length (handedOn payload k.passed) <+:
      (k.closed c payload offers offered elapsed).trace := by
  unfold Course.closed Engine.close
  split
  · exact List.prefix_append _ _
  · exact List.prefix_append _ _
  · exact List.prefix_refl _

theorem Stop.entered_prefix {stop : Stop} {tool : String} (h : stop.called? = some tool)
    (step : Nat) (input : Payload) :
    [.moved (.before step) (.executing step), .invoked ⟨step, tool, input⟩] <+:
      stop.happenings step input := by
  cases stop with
  | finished | interrupted => cases h
  | failed | notAnObject =>
    cases h
    exact ⟨[.moved (.executing step) .failed], rfl⟩
  | panicked =>
    cases h
    exact List.prefix_refl _

def Job.past (e : Engine) (j : Job) (p : Plugin) (offers : Nat → Nat) (offered : Nat)
    (passed : List Passage) : Run :=
  .past (e.context j.runId p j.options) j.request.payload offers offered passed

/-- The plugin of a valid job has let these steps pass and has the others left. -/
structure Job.Midway (e : Engine) (j : Job) (p : Plugin) (passed : List Passage)
    (rest : List String) : Prop where
  valid : validate e.registry j.request.pluginId j.request.tools = .ok p
  way : p.Partway j.request.payload j.request.tools passed rest

theorem Engine.Ends.halted?_eq_none {e : Engine} {runId : String} {request : Request} {o : Options}
    {drift : Drift} {offers : Nat → Nat} {w : World} {ended : Ended}
    (h : e.Ends runId request o drift offers w ended)
    (hn : ∀ n u, o.interruption (drift n u) = none) : ended.outcome.halted? = none := by
  cases h with
  | refused offered hv => rfl
  | @closed p offered elapsed hv =>
    rw [Course.closed_halted?, Option.map_eq_none_iff]
    cases hs : (Course.of p o drift request.payload w request.tools).stop with
    | interrupted tool reason =>
      obtain ⟨n, u, hi⟩ := Course.interruption_of_stop hs
      rw [hn n u] at hi
      cases hi
    | finished | failed | notAnObject | panicked => rfl

theorem Trace.mem_offers_of_record {t : Trace} {r : StepRecord} (h : r ∈ t.records) :
    ∃ reaction, (r, reaction) ∈ t.offers := by
  rw [records_eq_offers, List.mem_filterMap] at h
  obtain ⟨⟨record, reaction⟩, ho, hr⟩ := h
  split at hr
  · cases hr
    exact ⟨reaction, ho⟩
  · cases hr

theorem Run.runId_of_past {c : RunContext} {payload : Payload} {offers : Nat → Nat} {offered : Nat}
    {passed : List Passage} {o : StepRecord × Reaction}
    (h : o ∈ (Run.past c payload offers offered passed).trace.offers) : o.1.runId = c.runId := by
  rw [past_offers, List.mem_map] at h
  obtain ⟨s, -, rfl⟩ := h
  rfl

theorem Engine.Halts.runId_of_offer {e : Engine} {runId : String} {request : Request} {o : Options}
    {ended : Ended} (h : e.Halts runId request o ended) {offer : StepRecord × Reaction}
    (ho : offer ∈ ended.trace.offers) : offer.1.runId = runId := by
  cases h with
  | refused offered hv =>
    rw [reject_start] at ho
    cases ho
  | @closed p k offers offered elapsed hv hk =>
    rw [Course.closed_offers, List.mem_map] at ho
    obtain ⟨s, -, rfl⟩ := ho
    rfl

namespace Stage

/-- What is known of a run that has come so far by a moment. -/
inductive Sound (e : Engine) (j : Job) (w : World) : Stage → Prop
  | fresh : Sound e j w (.resting .fresh)
  | between {p : Plugin} {passed : List Passage} {rest : List String} (offers : Nat → Nat)
      (offered : Nat) (h : j.Midway e p passed rest) :
      Sound e j w (.resting (.between p rest (j.past e p offers offered passed)))
  | cleared {p : Plugin} {passed : List Passage} {tool : String} {rest : List String}
      (offers : Nat → Nat) (offered : Nat) (h : j.Midway e p passed (tool :: rest)) :
      Sound e j w (.cleared p tool rest ((j.past e p offers offered passed).entered tool))
  | inside {p : Plugin} {passed : List Passage} {tool : String} {rest : List String}
      (offers : Nat → Nat) (offered : Nat) (h : j.Midway e p passed (tool :: rest))
      (occasion : Occasion) :
      Sound e j w (.resting (.inside p tool rest ((j.past e p offers offered passed).entered tool)
        (p.call tool occasion (handedOn j.request.payload passed))))
  | returned {p : Plugin} {passed : List Passage} {tool : String} {rest : List String}
      (offers : Nat → Nat) (offered : Nat) (h : j.Midway e p passed (tool :: rest))
      (occasion : Occasion) :
      Sound e j w (.returned p tool rest ((j.past e p offers offered passed).entered tool)
        (p.call tool occasion (handedOn j.request.payload passed)))
  | over {ended : Ended} (h : e.Halts j.runId j.request j.options ended)
      (hi : j.options.interruption w = none → ended.outcome.halted? = none) :
      Sound e j w (.resting (.over ended))

structure Goes (e : Engine) (j : Job) (w v : World) (stage next : Stage) : Prop where
  sound : next.Sound e j v
  before : w.Before v
  trace : stage.trace <+: next.trace
  left : next.left j < stage.left j

section
variable {e : Engine} {j : Job} {p : Plugin} {w v : World} {stage next : Stage}
  {passed : List Passage} {tool : String} {rest : List String} {n : Nat}

theorem Sound.mono (h : stage.Sound e j w) (hb : w.Before v) : stage.Sound e j v := by
  cases h with
  | fresh => exact .fresh
  | between offers offered h => exact .between offers offered h
  | cleared offers offered h => exact .cleared offers offered h
  | inside offers offered h occasion => exact .inside offers offered h occasion
  | returned offers offered h occasion => exact .returned offers offered h occasion
  | «over» h hi =>
    exact .over h fun hv => hi (Options.interruption_eq_none_of_before hb hv)

theorem Sound.closed (h : j.Midway e p passed rest) {stop : Stop}
    (hk : p.Halts j.request.payload j.request.tools passed stop)
    (hr : j.options.interruption v = none → stop.reason? = none) (offers : Nat → Nat)
    (offered elapsed : Nat) :
    (Stage.resting (.over (Engine.close elapsed (stop.ended (e.context j.runId p j.options)
      (j.past e p offers offered passed))))).Sound e j v := by
  let k : Course := ⟨passed, stop, v⟩
  have hends : e.Halts j.runId j.request j.options
      (k.closed (e.context j.runId p j.options) j.request.payload offers offered elapsed) :=
    .closed offers offered elapsed h.valid hk
  refine .over hends fun hi => ?_
  have hh := Course.closed_halted? (e.context j.runId p j.options) j.request.payload offers offered
    elapsed k
  exact hh.trans (by rw [hr hi]; rfl)

theorem Sound.begin (offered : Nat) :
    (Stage.resting (.begin e j offered)).Sound e j w ∧
      (Stage.resting (.begin e j offered)).left j < 4 * j.request.tools.length + 2 := by
  unfold Progress.begin
  cases hv : validate e.registry j.request.pluginId j.request.tools with
  | error error => exact ⟨.over (.refused offered hv) fun _ => rfl, by simp [left]⟩
  | ok p =>
    refine ⟨?_, by simp [left]⟩
    have hh : (Stage.resting (.between p j.request.tools
        (j.past e p (fun _ => 0) offered []))).Sound e j w := .between _ _ ⟨hv, .start p _ _⟩
    rwa [Job.past, ← Run.start_eq_past] at hh

theorem Sound.finish (h : j.Midway e p passed []) (offers : Nat → Nat) (offered now : Nat) :
    Goes e j w w (.resting (.between p [] (j.past e p offers offered passed)))
      (.resting (.conclude j now (j.past e p offers offered passed).complete)) := by
  have hp : passed ≠ [] := by
    rintro rfl
    exact ne_nil_of_validate h.valid h.way.inOrder.symm
  have hc : (j.past e p offers offered passed).complete =
      Stop.finished.ended (e.context j.runId p j.options) (j.past e p offers offered passed) :=
    Run.complete_past hp offered
  rw [hc, Progress.conclude]
  refine ⟨.closed h h.way.finish (fun _ => rfl) offers offered _, .refl w, ?_, by simp [left]⟩
  exact (List.prefix_append _ _).trans
    (Course.closed_trace _ _ offers offered _ ⟨passed, .finished, w⟩)

theorem Sound.check (h : j.Midway e p passed (tool :: rest)) (hlen : Indexable j.request.tools)
    (offers : Nat → Nat) (offered : Nat)
    (hs : (Stage.resting (.between p (tool :: rest) (j.past e p offers offered passed))).step? e j
      n w = some (next, v)) :
    Goes e j w v (.resting (.between p (tool :: rest) (j.past e p offers offered passed)))
      next := by
  let c := e.context j.runId p j.options
  let r := j.past e p offers offered passed
  have hin : passed.length ≤ State.lastIndex := by
    have hl := congrArg List.length h.way.inOrder
    simp only [List.length_append, List.length_map, List.length_cons] at hl
    simp only [Indexable] at hlen
    omega
  have he : r.enter c tool w = _ := Run.enter_eq tool rfl hin w
  have hstep := hs
  simp only [Stage.step?] at hstep
  rw [he] at hstep
  cases hi : j.options.interruption w with
  | some reason =>
    have hc : c.options.interruption w = some reason := hi
    simp only [hc] at hstep
    cases hstep
    refine ⟨.closed h (.before h.way reason) (fun hn => ?_) offers offered _, .refl w, ?_, ?_⟩
    · simp [hi] at hn
    · exact (List.prefix_append _ _).trans (Course.closed_trace c j.request.payload offers offered _
        ⟨passed, .interrupted tool reason, w⟩)
    · simp [left, Progress.conclude]
  | none =>
    have hc : c.options.interruption w = none := hi
    simp only [hc] at hstep
    cases hstep
    exact ⟨.cleared offers offered h, .refl w, List.prefix_append _ _, by simp [left]; omega⟩

theorem Sound.record (hp : p.Deterministic) (h : j.Midway e p passed (tool :: rest))
    (offers : Nat → Nat) (offered : Nat) (occasion : Occasion) (n : Nat) :
    let r := (j.past e p offers offered passed).entered tool
    let call := p.call tool occasion (handedOn j.request.payload passed)
    Goes e j w w (.returned p tool rest r call)
      (.resting (.leave e j w.now p tool rest { r with offered := n } call)) := by
  intro r call
  let c := e.context j.runId p j.options
  let offers' : Nat → Nat := fun m => if m < passed.length then offers m else n
  have hoffers : offers' passed.length = n := if_neg (Nat.lt_irrefl _)
  have hr : { r with offered := n } =
      ((j.past e p offers' (offers' passed.length) passed).entered tool) := by
    have hcongr : Run.past c j.request.payload offers n passed =
        Run.past c j.request.payload offers' n passed :=
      Run.past_congr (fun m hm => (if_pos hm).symm) n
    rw [hoffers, Job.past, ← hcongr]
    rfl
  have htrace : (Stage.returned p tool rest r call).trace =
      ((j.past e p offers' (offers' passed.length) passed).entered tool).trace := by
    have ht := congrArg Run.trace hr
    exact ht
  have hl : ((j.past e p offers' (offers' passed.length) passed).entered tool).leave c tool call =
      _ := Run.leave_entered tool call
  unfold Progress.leave
  rw [hr]
  cases hv : call.verdict tool with
  | error stop =>
    have hcalled : stop.called? = some tool := Call.called?_of_verdict hv
    simp only [hv] at hl
    simp only [show e.context j.runId p j.options = c from rfl, hl, Progress.conclude]
    refine ⟨.closed h (h.way.halt hp hv) (fun _ => ?_) offers' _ _, .refl w, ?_, by simp [left]⟩
    · cases stop with
      | interrupted => cases hcalled
      | finished | failed | notAnObject | panicked => rfl
    · refine List.IsPrefix.trans ?_ (Course.closed_trace c j.request.payload offers' _ _
        ⟨passed, stop, w⟩)
      rw [htrace]
      exact (List.prefix_append_right_inj _).mpr (Stop.entered_prefix hcalled _ _)
  | ok output =>
    simp only [hv] at hl
    have hs : ((j.past e p offers' (offers' passed.length) passed).entered tool).succeed c tool
        call.took output = j.past e p offers' (offers' passed.length + 1)
          (passed ++ [⟨tool, handedOn j.request.payload passed, call.took, output⟩]) :=
      Run.succeed_past passed tool call.took output
    simp only [show e.context j.runId p j.options = c from rfl, hl, hs]
    refine ⟨.between _ _ ⟨h.valid, h.way.pass hp hv call.took⟩, .refl w, ?_, by simp [left]⟩
    rw [← hs, htrace]
    exact (List.prefix_append _ _).trans (List.prefix_append _ _)

/-- Every step of a run keeps what is known of it, adds to its trace, and leaves fewer steps. -/
theorem Sound.step (he : e.registry.Deterministic) (hlen : Indexable j.request.tools)
    (h : stage.Sound e j w) (hs : stage.step? e j n w = some (next, v)) :
    Goes e j w v stage next := by
  cases h with
  | fresh =>
    cases hs
    exact ⟨(Sound.begin n).1, .refl w, List.nil_prefix, (Sound.begin (w := w) n).2⟩
  | @between p passed rest offers offered h =>
    cases rest with
    | nil =>
      cases hs
      exact Sound.finish h offers offered w.now
    | cons tool rest => exact Sound.check h hlen offers offered hs
  | cleared offers offered h =>
    cases hs
    exact ⟨.inside offers offered h w.occasion, .refl w, List.prefix_refl _, by simp [left]⟩
  | inside offers offered h occasion =>
    cases hs
    exact ⟨.returned offers offered h occasion, World.before_after w _, List.prefix_refl _,
      by simp [left]⟩
  | returned offers offered h occasion =>
    cases hs
    exact Sound.record (he _ _ (lookup_of_validate h.valid)) h offers offered occasion n
  | «over» h hi => cases hs

theorem step?_eq_none_iff : stage.step? e j n w = none ↔ stage.ended?.isSome := by
  cases stage with
  | cleared | returned => simp [step?, ended?]
  | resting q =>
    cases q with
    | fresh | inside => simp [step?, Progress.step?, ended?, Progress.ended?]
    | «over» ended => simp [step?, Progress.step?, ended?, Progress.ended?]
    | between p rest r =>
      cases rest with
      | nil => simp [step?, Progress.step?, ended?, Progress.ended?]
      | cons tool rest =>
        simp only [step?, ended?, Progress.ended?]
        split <;> simp

theorem eq_over_of_ended? {ended : Ended} (h : stage.ended? = some ended) :
    stage = .resting (.over ended) := by
  cases stage with
  | cleared | returned => cases h
  | resting q =>
    cases q with
    | fresh | between | inside => cases h
    | «over» found =>
      cases h
      rfl

theorem records_of_prefix (h : stage.trace <+: next.trace) :
    next.trace.records = stage.trace.records ++ (stage.added next).records := by
  obtain ⟨later, ht⟩ := h
  rw [added, ← ht, List.drop_left]
  exact List.filterMap_append

theorem Sound.runId_of_record (h : stage.Sound e j w) {r : StepRecord}
    (hr : r ∈ stage.trace.records) : r.runId = j.runId := by
  obtain ⟨reaction, ho⟩ := Trace.mem_offers_of_record hr
  have hentered {p : Plugin} {offers : Nat → Nat} {offered : Nat} {passed : List Passage}
      {tool : String}
      (h : (r, reaction) ∈ ((j.past e p offers offered passed).entered tool).trace.offers) :
      r.runId = j.runId := by
    have hsplit : ((j.past e p offers offered passed).entered tool).trace.offers =
        (j.past e p offers offered passed).trace.offers ++ [] := Trace.offers_append _ _
    rw [hsplit, List.append_nil] at h
    exact Run.runId_of_past h
  cases h with
  | fresh => cases ho
  | between offers offered h => exact Run.runId_of_past ho
  | cleared offers offered h => exact hentered ho
  | inside offers offered h occasion => exact hentered ho
  | returned offers offered h occasion => exact hentered ho
  | «over» h hi => exact h.runId_of_offer ho

end

end Stage

namespace Pool

def written (p : Pool) : List (List StepRecord) := p.runs.map fun r => r.2.trace.records

/-- What is known of runs side by side at every moment. -/
structure Sound (e : Engine) (jobs : List Job) (p : Pool) : Prop where
  jobs : p.runs.map Prod.fst = jobs
  runs : ∀ (i : Nat) (r : Job × Stage), p.runs[i]? = some r → r.2.Sound e r.1 p.world
  kept : Interleaving p.written p.kept

section
variable {e : Engine} {jobs : List Job} {w : World} {p q : Pool} {i : Nat}

theorem step_cases (h : p.step? e i = some q) : ∃ j stage next world,
    p.runs[i]? = some (j, stage) ∧
    stage.step? e j p.offered p.world = some (next, world) ∧
    q.world = world ∧ q.runs = p.runs.set i (j, next) ∧
    q.kept = p.kept ++ if e.recorder.keeps then (stage.added next).records else [] := by
  simp only [step?, bind, Option.bind_eq_some_iff, pure, Option.some.injEq] at h
  obtain ⟨⟨j, stage⟩, hr, ⟨next, world⟩, hs, rfl⟩ := h
  exact ⟨j, stage, next, world, hr, hs, rfl, rfl, rfl⟩

theorem Sound.start (e : Engine) (w : World) (jobs : List Job) :
    (Pool.start w jobs).Sound e jobs where
  jobs := by simp [Pool.start, Function.comp_def]
  runs i r h := by
    simp only [Pool.start, List.getElem?_map, Option.map_eq_some_iff] at h
    obtain ⟨j, -, rfl⟩ := h
    exact .fresh
  kept := .done fun part h => by
    simp only [written, Pool.start, List.map_map, List.mem_map] at h
    obtain ⟨j, -, rfl⟩ := h
    rfl

theorem Sound.elapse (h : p.Sound e jobs) (hb : p.world.Before w) :
    ({ p with world := w } : Pool).Sound e jobs where
  jobs := h.jobs
  runs i r hr := (h.runs i r hr).mono hb
  kept := h.kept

theorem Sound.step (he : e.registry.Deterministic) (hm : e.recorder.keeps = true)
    (hlen : ∀ j ∈ jobs, Indexable j.request.tools) (h : p.Sound e jobs)
    (hs : p.step? e i = some q) : q.Sound e jobs ∧ q.left < p.left := by
  obtain ⟨j, stage, next, world, hr, hstep, rfl, hruns, hkept⟩ := step_cases hs
  have hj : j ∈ jobs := h.jobs ▸ List.mem_map_of_mem (List.mem_of_getElem? hr)
  have hg := (h.runs i _ hr).step he (hlen j hj) hstep
  refine ⟨⟨?_, ?_, ?_⟩, ?_⟩
  · rw [hruns, ← h.jobs]
    refine List.ext_getElem? fun k => ?_
    rw [List.getElem?_map, List.getElem?_map]
    exact map_getElem?_set Prod.fst hr (b := (j, next)) rfl k
  · rw [hruns]
    exact forall_getElem?_set (P := fun _ (r : Job × Stage) => r.2.Sound e r.1 q.world) hr hg.sound
      fun k r hk => (h.runs k r hk).mono hg.before
  · have hw : p.written[i]? = some stage.trace.records := by
      rw [written, List.getElem?_map, hr]
      rfl
    rw [hkept, if_pos hm, written, hruns, List.map_set, Stage.records_of_prefix hg.trace]
    exact h.kept.append hw _
  · rw [left, left, hruns]
    have hsum : _ + stage.left j = _ + next.left j :=
      sum_map_set (fun r => r.2.left r.1) hr (j, next)
    have hless : next.left j < stage.left j := hg.left
    omega

theorem Sound.of_reachable (he : e.registry.Deterministic) (hm : e.recorder.keeps = true)
    (hlen : ∀ j ∈ jobs, Indexable j.request.tools) (h : Reachable e (Pool.start w jobs) p) :
    p.Sound e jobs := by
  induction h with
  | refl => exact .start e w jobs
  | step i _ hs ih => exact (ih.step he hm hlen hs).1
  | elapse _ hb ih => exact ih.elapse hb

theorem Reachable.inTurn {start : Pool} (h : Reachable e start p) (order : List Nat)
    (hq : order.foldlM (fun p i => p.step? e i) p = some q) : Reachable e start q := by
  induction order generalizing p with
  | nil =>
    cases hq
    exact h
  | cons i order ih =>
    rw [List.foldlM_cons] at hq
    obtain ⟨next, hn, hq⟩ := Option.bind_eq_some_iff.mp hq
    exact ih (.step i h hn) hq

theorem over_of_stuck (h : ∀ i, p.step? e i = none) {r : Job × Stage} (hr : r ∈ p.runs) :
    r.2.ended?.isSome := by
  obtain ⟨i, hi⟩ := List.getElem?_of_mem hr
  have hn := h i
  simp only [step?, hi, bind, Option.bind_some, pure, Option.bind_eq_none_iff] at hn
  have hs : r.2.step? e r.1 p.offered p.world = none :=
    Option.eq_none_iff_forall_ne_some.mpr fun s hs => Option.some_ne_none _ (hn s hs)
  exact Stage.step?_eq_none_iff.mp hs

theorem Sound.recordsOf_eq (h : p.Sound e jobs) (hids : (jobs.map Job.runId).Nodup)
    {r : Job × Stage} (hr : r ∈ p.runs) : p.recordsOf r.1.runId = r.2.trace.records := by
  obtain ⟨i, hi⟩ := List.getElem?_of_mem hr
  have hid (k : Nat) (s : Job × Stage) (hk : p.runs[k]? = some s) :
      (jobs.map Job.runId)[k]? = some s.1.runId := by
    rw [← h.jobs, List.map_map, List.getElem?_map, hk]
    rfl
  refine h.kept.filter_eq (i := i) ?_ fun k part hk record hrecord => ?_
  · rw [written, List.getElem?_map, hi]
    rfl
  · rw [written, List.getElem?_map, Option.map_eq_some_iff] at hk
    obtain ⟨s, hs, rfl⟩ := hk
    rw [(h.runs k s hs).runId_of_record hrecord, decide_eq_true_iff]
    constructor
    · intro heq
      have hlt := (List.getElem?_eq_some_iff.mp (hid k s hs)).1
      exact (List.getElem?_inj hlt hids).mp ((hid k s hs).trans (heq ▸ (hid i r hi).symm))
    · rintro rfl
      rw [hs] at hi
      exact congrArg (fun r => r.1.runId) (Option.some.inj hi)

/-- What a run that is over has in common with a run of the same request alone, begun in any world.
-/
structure Apart (e : Engine) (p : Pool) (j : Job) (ended : Ended) : Prop where
  /-- Runs that were interrupted neither, or at the same step for the same reason. -/
  alike : ∀ offered v, let alone := (e.run j.runId j.request j.options offered v).1
    alone.outcome.halted? = ended.outcome.halted? →
      ended.outcome = alone.outcome ∧ p.recordsOf j.runId = e.keptOf alone
  /-- Nothing but its own token and its own deadline interrupts a run. -/
  undisturbed : j.options.interruption p.world = none → ended.outcome.halted? = none
  unlimited : j.options.cancel = none → j.options.deadline = none →
    ∀ offered v, let alone := (e.run j.runId j.request j.options offered v).1
    ended.outcome = alone.outcome ∧ p.recordsOf j.runId = e.keptOf alone

theorem Sound.apart (he : e.registry.Deterministic) (hm : e.recorder = .memory)
    (hids : (jobs.map Job.runId).Nodup) (h : p.Sound e jobs) {r : Job × Stage}
    (hlen : Indexable r.1.request.tools) (hr : r ∈ p.runs) {ended : Ended}
    (hended : r.2.ended? = some ended) : p.Apart e r.1 ended := by
  obtain ⟨j, stage⟩ := r
  dsimp only at hlen hended ⊢
  obtain rfl := Stage.eq_over_of_ended? hended
  have hrecords : p.recordsOf j.runId = ended.trace.records := h.recordsOf_eq hids hr
  obtain ⟨i, hi⟩ := List.getElem?_of_mem hr
  have hsound : (Stage.resting (.over ended)).Sound e j p.world := h.runs i _ hi
  obtain ⟨hends, hundisturbed⟩ : e.Halts j.runId j.request j.options ended ∧
      (j.options.interruption p.world = none → ended.outcome.halted? = none) := by
    cases hsound with
    | «over» h hi => exact ⟨h, hi⟩
  have halike (offered : Nat) (v : World) :
      let alone := (e.run j.runId j.request j.options offered v).1
      alone.outcome.halted? = ended.outcome.halted? →
        ended.outcome = alone.outcome ∧ p.recordsOf j.runId = e.keptOf alone := by
    intro alone hh
    have halone := (e.run_ends hlen j.runId j.options offered v).halts he
    have heq := hends.eq hm halone hh.symm
    have hkept : e.keptOf alone = alone.trace.records := by
      rw [Engine.keptOf, hm]
      rfl
    exact ⟨heq.1, by rw [hrecords, heq.2, hkept]⟩
  refine ⟨halike, hundisturbed, fun hc hd offered v => halike offered v ?_⟩
  have hnever (u : World) : j.options.interruption u = none := by
    simp [Options.interruption, hc, hd]
  rw [hundisturbed (hnever p.world)]
  exact (e.run_ends hlen j.runId j.options offered v).halted?_eq_none fun n u => hnever _

end

end Pool

/-- Whatever order the steps of runs take, every run that is over has ended as it does alone, the
records with its id are those that it writes alone, and the recorder has nothing else. -/
theorem runs_side_by_side {e : Engine} {jobs : List Job} {w : World} {p : Pool}
    (he : e.registry.Deterministic) (hm : e.recorder = .memory)
    (hlen : ∀ j ∈ jobs, Indexable j.request.tools) (hids : (jobs.map Job.runId).Nodup)
    (h : Pool.Reachable e (.start w jobs) p) :
    p.runs.map Prod.fst = jobs ∧
      Interleaving p.written p.kept ∧
      (∀ r ∈ p.runs, p.recordsOf r.1.runId = r.2.trace.records) ∧
      (∀ r ∈ p.runs, ∀ ended, r.2.ended? = some ended → p.Apart e r.1 ended) ∧
      (∀ i q, p.step? e i = some q → q.left < p.left) ∧
      ((∀ i, p.step? e i = none) → ∀ r ∈ p.runs, r.2.ended?.isSome) := by
  have hkeeps : e.recorder.keeps = true := hm ▸ rfl
  have hs : p.Sound e jobs := .of_reachable he hkeeps hlen h
  refine ⟨hs.jobs, hs.kept, fun r hr => hs.recordsOf_eq hids hr, fun r hr ended hended => ?_,
    fun i q hq => (hs.step he hkeeps hlen hq).2, fun hn r hr => Pool.over_of_stuck hn hr⟩
  have hj : r.1 ∈ jobs := hs.jobs ▸ List.mem_map_of_mem hr
  exact hs.apart he hm hids (hlen r.1 hj) hr hended

theorem haltPlugin_deterministic : haltPlugin.Deterministic := by
  intro name occasion occasion' input
  have ht : haltPlugin.tool? name = if name = "halt" then some _ else none :=
    lookup_insertNamed _ _ _ _
  by_cases hn : name = "halt"
  · simp only [Plugin.call, ht, if_pos hn]
  · simp only [Plugin.call, ht, if_neg hn]

/-- Two runs take turns. The first calls a tool that cancels the token of the second, which is
inside the same tool: the second ends before its next step, and the first goes on as if it were
alone. -/
theorem runs_side_by_side_in_turn :
    let e : Engine := ⟨Registry.empty.register haltPlugin, .memory⟩
    let request : Request := ⟨"p", ["halt", "halt"], .empty⟩
    let free : Job := ⟨"r1", request, .default, 0⟩
    let bound : Job := ⟨"r2", request, Options.default.withCancel [7], 0⟩
    let order := [0, 1, 1, 0, 0, 1, 0, 1, 0, 1, 0, 1, 0, 0, 0, 0]
    let taken := order.foldlM (fun (p : Pool) i => p.step? e i) (.start .initial [free, bound])
    e.registry.Deterministic ∧
    (∀ j ∈ [free, bound], Indexable j.request.tools) ∧
    ([free, bound].map Job.runId).Nodup ∧
    ∃ p, taken = some p ∧ Pool.Reachable e (.start .initial [free, bound]) p ∧
      p.kept = [⟨"r1", "p", "halt", 0, []⟩, ⟨"r2", "p", "halt", 0, []⟩,
        ⟨"r1", "p", "halt", 1, []⟩] ∧
      p.runs.map (fun r => r.2.ended?.map fun ended => (ended.state, ended.outcome.halted?)) =
        [some (.completed, none), some (.cancelled, some (1, .signal))] ∧
      ∀ r ∈ p.runs, ∀ ended, r.2.ended? = some ended → p.Apart e r.1 ended := by
  intro e request free bound order taken
  have hd : e.registry.Deterministic := by
    intro id p h
    have hl : e.registry.lookup id = if id = "p" then some haltPlugin else none :=
      lookup_insertNamed _ _ _ _
    rw [hl] at h
    split at h
    · cases h
      exact haltPlugin_deterministic
    · cases h
  have hlen : ∀ j ∈ [free, bound], Indexable j.request.tools := by
    simp only [List.forall_mem_cons, List.not_mem_nil, false_implies, implies_true, and_true]
    decide
  have hids : ([free, bound].map Job.runId).Nodup := by decide
  have hkept : taken.map Pool.kept = some [⟨"r1", "p", "halt", 0, []⟩,
    ⟨"r2", "p", "halt", 0, []⟩, ⟨"r1", "p", "halt", 1, []⟩] := by decide
  have hends : taken.map (fun p => p.runs.map fun r =>
      r.2.ended?.map fun ended => (ended.state, ended.outcome.halted?)) =
      some [some (.completed, none), some (.cancelled, some (1, .signal))] := by decide
  obtain ⟨p, hp, hk⟩ := Option.map_eq_some_iff.mp hkept
  rw [hp] at hends
  have hr := Pool.Reachable.inTurn .refl order hp
  obtain ⟨-, -, -, hapart, -⟩ := runs_side_by_side hd rfl hlen hids hr
  exact ⟨hd, hlen, hids, p, hp, hr, hk, Option.some.inj hends, hapart⟩

end ToolPipeline
