import Mathlib.Data.List.Basic
import ToolPipeline.Proofs.Pipeline.AuditTrail
import ToolPipeline.Proofs.Pipeline.ComposedRuns
import ToolPipeline.Proofs.Pipeline.CourseAgreement
import ToolPipeline.Proofs.Pipeline.Interruption

/-! Interrupted runs beside runs of the same tools that are interrupted later or not at all. Where a
run is interrupted decides how many of its steps there are, and nothing about what they are. -/

namespace ToolPipeline

def Passage.untimed (s : Passage) : Passage := { s with took := 0 }

def Stop.Uninterrupted (stop : Stop) : Prop := ∀ tool reason, stop ≠ .interrupted tool reason

/-- Both courses pass the same steps until the first one is interrupted. The time that the steps
take may differ. -/
structure Course.Leads (k later : Course) : Prop where
  passed : k.passed.map Passage.untimed <+: later.passed.map Passage.untimed
  whole : k.stop.Uninterrupted →
    k.passed.map Passage.untimed = later.passed.map Passage.untimed ∧ k.stop = later.stop

/-- What holds of the worlds that two runs have reached, if the second goes on wherever the first
does. -/
structure Abreast (p : Plugin) (o o' : Options) (drift drift' : Drift)
    (R : World → World → Prop) : Prop where
  goesOn : ∀ step w w', R w w' →
    o.interruption (drift step w) = none → o'.interruption (drift' step w') = none
  after : ∀ step w w', R w w' → ∀ tool input,
    R ((drift step w).after (p.call tool (drift step w).occasion input))
      ((drift' step w').after (p.call tool (drift' step w').occasion input))

section
variable {p : Plugin} {o o' : Options} {drift drift' : Drift}

theorem Abreast.of_goesOn (h : ∀ step w w',
    o.interruption (drift step w) = none → o'.interruption (drift' step w') = none) :
    Abreast p o o' drift drift' fun _ _ => True where
  goesOn step w w' _ hi := h step w w' hi
  after _ _ _ _ _ _ := trivial

theorem Course.from_leads {R : World → World → Prop} (hp : p.Deterministic)
    (h : Abreast p o o' drift drift' R) (step : Nat) (input : Payload) {w w' : World}
    (hw : R w w') (tools : List String) :
    (Course.from p o drift step input w tools).Leads
      (.from p o' drift' step input w' tools) := by
  induction tools generalizing step input w w' with
  | nil => exact ⟨List.prefix_rfl, fun _ => ⟨rfl, rfl⟩⟩
  | cons tool rest ih =>
    cases hi : o.interruption (drift step w) with
    | some reason =>
      rw [Course.from_interrupted hi]
      exact ⟨List.nil_prefix, fun hu => absurd rfl (hu tool reason)⟩
    | none =>
      have hi' : o'.interruption (drift' step w') = none := h.goesOn step w w' hw hi
      have hc := hp.verdict_eq tool (drift step w).occasion (drift' step w').occasion input
      cases hv : (p.call tool (drift step w).occasion input).verdict tool with
      | error stop =>
        rw [Course.from_stopped hi hv, Course.from_stopped hi' (hc ▸ hv)]
        exact ⟨List.prefix_rfl, fun _ => ⟨rfl, rfl⟩⟩
      | ok output =>
        have hh := ih (step + 1) output (h.after step w w' hw tool input)
        rw [Course.from_passed hi hv, Course.from_passed hi' (hc ▸ hv)]
        refine ⟨?_, fun hu => ?_⟩
        · exact (List.prefix_cons_inj _).mpr hh.passed
        · obtain ⟨hpassed, hstop⟩ := hh.whole hu
          exact ⟨congrArg (_ :: ·) hpassed, hstop⟩

end

section
variable {α : Type} {f : Passage → Nat → α} {passed later : List Passage}

theorem Passage.map_untimed (hf : ∀ s n, f (Passage.untimed s) n = f s n) (passed : List Passage) :
    ((passed.map Passage.untimed).zipIdx.map fun s => f s.1 s.2) =
      passed.zipIdx.map fun s => f s.1 s.2 := by
  rw [List.zipIdx_map, List.map_map]
  exact List.map_congr_left fun s _ => hf s.1 s.2

theorem Passage.map_congr (hf : ∀ s n, f (Passage.untimed s) n = f s n)
    (h : passed.map Passage.untimed = later.map Passage.untimed) :
    (passed.zipIdx.map fun s => f s.1 s.2) = later.zipIdx.map fun s => f s.1 s.2 := by
  rw [← map_untimed hf passed, h, map_untimed hf later]

theorem Passage.map_eq_take (hf : ∀ s n, f (Passage.untimed s) n = f s n)
    (h : passed.map Passage.untimed <+: later.map Passage.untimed) :
    (passed.zipIdx.map fun s => f s.1 s.2) =
      (later.zipIdx.map fun s => f s.1 s.2).take passed.length := by
  obtain ⟨rest, hrest⟩ := h
  rw [← map_untimed hf passed, ← map_untimed hf later, ← hrest, List.zipIdx_append,
    List.map_append, List.take_left' (by simp)]

end

theorem handedOn_untimed (payload : Payload) (passed : List Passage) :
    handedOn payload (passed.map Passage.untimed) = handedOn payload passed := by
  rw [handedOn, List.getLast?_map, Option.map_map]
  rfl

section
variable {k later : Course} (h : k.passed.map Passage.untimed = later.passed.map Passage.untimed)
include h

theorem Course.length_congr : k.passed.length = later.passed.length := by
  simpa only [List.length_map] using congrArg List.length h

theorem Course.handedOn_congr (payload : Payload) :
    handedOn payload k.passed = handedOn payload later.passed := by
  rw [← handedOn_untimed, h, handedOn_untimed]

theorem Course.outcome_congr (hstop : k.stop = later.stop) (p : Plugin) {o o' : Options}
    (ho : o.discardSteps = o'.discardSteps) (payload : Payload) :
    k.outcome p o payload = later.outcome p o' payload := by
  have hsteps : k.passed.map Passage.stepOutput = later.passed.map Passage.stepOutput := by
    have hs := congrArg (List.map Passage.stepOutput) h
    rwa [List.map_map, List.map_map] at hs
  rw [Course.outcome, Course.outcome, Course.result, Course.result, hstop, length_congr h,
    handedOn_congr h, hsteps, ho]

theorem Course.invocations_congr (hstop : k.stop = later.stop) (payload : Payload) :
    k.invocations payload = later.invocations payload := by
  have hcalls := Passage.map_congr (f := fun s n => Invocation.mk n s.tool s.input)
    (fun _ _ => rfl) h
  rw [Course.invocations, Course.invocations, hcalls, hstop, length_congr h, handedOn_congr h]

end

def Trace.succeeded (t : Trace) : List Nat := t.filterMap fun
  | .finished step _ _ => some step
  | _ => none

theorem Engine.close_succeeded (elapsed : Nat) (ended : Ended) :
    (close elapsed ended).trace.succeeded = ended.trace.succeeded := by
  unfold close
  split <;> simp [Trace.succeeded]

theorem Stop.happenings_succeeded (step : Nat) (input : Payload) (stop : Stop) :
    Trace.succeeded (stop.happenings step input) = [] := by
  cases stop <;> rfl

theorem Run.past_succeeded (c : RunContext) (payload : Payload) (offers : Nat → Nat)
    (offered : Nat) (passed : List Passage) :
    (Run.past c payload offers offered passed).trace.succeeded = List.range passed.length := by
  have hsteps : (Run.past c payload offers offered passed).trace.succeeded =
      passed.zipIdx.map Prod.snd := by
    rw [List.map_eq_flatMap]
    exact List.filterMap_flatMap
  rw [hsteps, List.zipIdx_map_snd, List.range_eq_range']

section
variable (c : RunContext) (payload : Payload) (offers : Nat → Nat) (offered elapsed : Nat)
  (k : Course)

theorem Course.closed_succeeded :
    (k.closed c payload offers offered elapsed).trace.succeeded = List.range k.passed.length := by
  have hstop := Stop.happenings_succeeded k.passed.length (handedOn payload k.passed) k.stop
  have hended : (k.stop.ended c (.past c payload offers offered k.passed)).trace.succeeded = _ :=
    List.filterMap_append
  rw [Course.closed, Engine.close_succeeded, hended]
  exact (congrArg _ hstop).trans
    ((List.append_nil _).trans (Run.past_succeeded c payload offers offered k.passed))

end

theorem Trace.records_of_calm {t : Trace} (h : ∀ offer ∈ t.offers, offer.2.panic = none) :
    t.records = t.offers.map Prod.fst := by
  rw [Trace.records_eq_offers, List.filterMap_eq_map_iff_forall_eq_some]
  intro offer hm
  rw [h offer hm]
  rfl

/-- Both runs have ended alike, after the same steps. -/
structure Ended.Same (ended other : Ended) : Prop where
  outcome : ended.outcome = other.outcome
  invocations : ended.trace.invocations = other.trace.invocations
  offers : ended.trace.offers = other.trace.offers
  records : ended.trace.records = other.trace.records
  succeeded : ended.trace.succeeded = other.trace.succeeded

/-- A run has called the first tools that another one has called, so many of them, and was given
what the other one was given. -/
structure Ended.FirstOf (cut : Ended) (n : Nat) (free : Ended) : Prop where
  invocations : cut.trace.invocations = free.trace.invocations.take n
  offers : cut.trace.offers = free.trace.offers.take n
  records : (∀ offer ∈ free.trace.offers, offer.2.panic = none) →
    cut.trace.records = free.trace.records.take n
  reached : n ≤ free.trace.invocations.length ∧ n ≤ free.trace.offers.length
  succeeded : cut.trace.succeeded = List.range n
  freely : free.trace.succeeded.take n = List.range n

/-- A run is the same as another one that nothing may interrupt, or it is cancelled at a step and
has only the steps before. -/
structure Ended.Truncates (cut free : Ended) : Prop where
  unstopped : free.outcome.Uninterrupted
  whole : cut.outcome.Uninterrupted → cut.Same free
  first : ∀ step reason, cut.outcome = .error (.cancelled step reason) → cut.FirstOf step free

theorem Course.uninterrupted_iff {k : Course} {p : Plugin} {o : Options} {payload : Payload} :
    (k.outcome p o payload).Uninterrupted ↔ k.stop.Uninterrupted := by
  rw [Course.outcome]
  cases k.stop with
  | interrupted tool reason =>
    exact ⟨fun h => absurd rfl (h k.passed.length reason), fun h => absurd rfl (h tool reason)⟩
  | finished | failed | notAnObject | panicked =>
    constructor
    · intro _ tool reason h
      cases h
    · intro _ step reason h
      cases h

theorem Course.cancelled_iff {k : Course} {p : Plugin} {o : Options} {payload : Payload} {n : Nat}
    {reason : CancelReason} : k.outcome p o payload = .error (.cancelled n reason) ↔
      k.passed.length = n ∧ ∃ tool, k.stop = .interrupted tool reason := by
  rw [Course.outcome]
  cases k.stop <;> simp [Stop.outcome]

theorem Course.invocations_take {later : Course} {n : Nat} (h : n ≤ later.passed.length)
    (payload : Payload) : (later.invocations payload).take n =
      (later.passed.zipIdx.map fun s => Invocation.mk s.2 s.1.tool s.1.input).take n :=
  List.take_append_of_le_length (by simpa using h)

namespace Course.Leads

variable {k later : Course}

theorem length_le (h : k.Leads later) : k.passed.length ≤ later.passed.length := by
  simpa only [List.length_map] using h.passed.length_le

theorem invocations_of_interrupted (h : k.Leads later) {tool : String} {reason : CancelReason}
    (hs : k.stop = .interrupted tool reason) (payload : Payload) :
    k.invocations payload = (later.invocations payload).take k.passed.length := by
  have hcalls := Passage.map_eq_take (f := fun s n => Invocation.mk n s.tool s.input)
    (fun _ _ => rfl) h.passed
  rw [Course.invocations_take h.length_le, ← hcalls, Course.invocations, hs]
  exact List.append_nil _

theorem invocations_prefix (h : k.Leads later) (payload : Payload) :
    k.invocations payload <+: later.invocations payload := by
  by_cases hu : k.stop.Uninterrupted
  · obtain ⟨hpassed, hstop⟩ := h.whole hu
    exact ⟨[], by rw [List.append_nil, Course.invocations_congr hpassed hstop]⟩
  · obtain ⟨tool, reason, hs⟩ : ∃ tool reason, k.stop = .interrupted tool reason := by
      simpa [Stop.Uninterrupted] using hu
    rw [h.invocations_of_interrupted hs]
    exact List.take_prefix _ _

variable (c : RunContext) (o : Options) (payload : Payload) (offers : Nat → Nat)
  (offered offered' elapsed elapsed' : Nat)

theorem closed_offers (h : k.Leads later) :
    (k.closed c payload offers offered elapsed).trace.offers =
      (later.closed { c with options := o } payload offers offered' elapsed').trace.offers.take
        k.passed.length := by
  rw [Course.closed_offers, Course.closed_offers]
  exact Passage.map_eq_take
    (f := fun s n => (s.record c n, c.recorder.react (offers n) (s.record c n)))
    (fun _ _ => rfl) h.passed

theorem same (h : k.Leads later) (hu : k.stop.Uninterrupted)
    (ho : c.options.discardSteps = o.discardSteps) :
    (k.closed c payload offers offered elapsed).Same
      (later.closed { c with options := o } payload offers offered' elapsed') := by
  obtain ⟨hpassed, hstop⟩ := h.whole hu
  have hlen := Course.length_congr hpassed
  have hoffers := h.closed_offers c o payload offers offered offered' elapsed elapsed'
  rw [List.take_of_length_le] at hoffers
  swap
  · rw [Course.closed_offers, List.length_map, List.length_zipIdx]
    exact Nat.le_of_eq hlen.symm
  refine ⟨?_, ?_, hoffers, ?_, ?_⟩
  · rw [Course.closed_outcome, Course.closed_outcome]
    exact Course.outcome_congr hpassed hstop c.plugin ho payload
  · rw [Course.closed_invocations, Course.closed_invocations]
    exact Course.invocations_congr hpassed hstop payload
  · rw [Trace.records_eq_offers, Trace.records_eq_offers, hoffers]
  · rw [Course.closed_succeeded, Course.closed_succeeded, hlen]

theorem firstOf (h : k.Leads later) {tool : String} {reason : CancelReason}
    (hs : k.stop = .interrupted tool reason) :
    (k.closed c payload offers offered elapsed).FirstOf k.passed.length
      (later.closed { c with options := o } payload offers offered' elapsed') := by
  have hlen := h.length_le
  have hoffers := h.closed_offers c o payload offers offered offered' elapsed elapsed'
  refine ⟨?_, hoffers, fun hcalm => ?_, ⟨?_, ?_⟩, ?_, ?_⟩
  · rw [Course.closed_invocations, Course.closed_invocations]
    exact h.invocations_of_interrupted hs payload
  · rw [Trace.records_of_calm hcalm, ← List.map_take, ← hoffers]
    refine Trace.records_of_calm fun offer hm => hcalm offer ?_
    rw [hoffers] at hm
    exact List.mem_of_mem_take hm
  · rw [Course.closed_invocations, Course.invocations, List.length_append, List.length_map,
      List.length_zipIdx]
    omega
  · rw [Course.closed_offers, List.length_map, List.length_zipIdx]
    exact hlen
  · rw [Course.closed_succeeded]
  · rw [Course.closed_succeeded, List.take_range, Nat.min_eq_left hlen]

theorem truncates (h : k.Leads later) (hlater : later.stop.Uninterrupted)
    (ho : c.options.discardSteps = o.discardSteps) :
    (k.closed c payload offers offered elapsed).Truncates
      (later.closed { c with options := o } payload offers offered' elapsed') := by
  refine ⟨?_, fun hu => ?_, fun n reason hn => ?_⟩
  · rw [Course.closed_outcome]
    exact Course.uninterrupted_iff.mpr hlater
  · rw [Course.closed_outcome, Course.uninterrupted_iff] at hu
    exact h.same c o payload offers offered offered' elapsed elapsed' hu ho
  · rw [Course.closed_outcome, Course.cancelled_iff] at hn
    obtain ⟨rfl, tool, hs⟩ := hn
    exact h.firstOf c o payload offers offered offered' elapsed elapsed' hs

end Course.Leads

def Options.unbounded (o : Options) : Options := { o with cancel := none, deadline := none }

theorem Options.unbounded_interruption (o : Options) (w : World) :
    o.unbounded.interruption w = none := rfl

theorem Course.uninterrupted_of_free {p : Plugin} {o : Options} (ho : ∀ w, o.interruption w = none)
    (drift : Drift) (step : Nat) (input : Payload) (w : World) (tools : List String) :
    (Course.from p o drift step input w tools).stop.Uninterrupted := by
  intro tool reason hs
  obtain ⟨n, u, hi⟩ := Course.interruption_of_stop hs
  rw [ho] at hi
  cases hi

/-- However the worlds of two runs of deterministic tools may differ, the one with a token or a
deadline truncates the one without. -/
theorem Course.of_truncates {p : Plugin} (hp : p.Deterministic) (c : RunContext) (payload : Payload)
    (offers : Nat → Nat) (offered offered' elapsed elapsed' : Nat) (drift drift' : Drift)
    (w w' : World) (tools : List String) :
    let k := Course.of p c.options drift payload w tools
    let free := Course.of p c.options.unbounded drift' payload w' tools
    (k.closed c payload offers offered elapsed).Truncates
      (free.closed { c with options := c.options.unbounded } payload offers offered' elapsed') := by
  intro k free
  have habreast : Abreast p c.options c.options.unbounded drift drift' fun _ _ => True :=
    .of_goesOn fun step w w' _ => c.options.unbounded_interruption _
  have hleads : k.Leads free := Course.from_leads hp habreast 0 payload trivial tools
  have hfree : free.stop.Uninterrupted :=
    Course.uninterrupted_of_free c.options.unbounded_interruption drift' 0 payload w' tools
  exact hleads.truncates c _ payload offers offered offered' elapsed elapsed' hfree rfl

/-- Calls of a tool on the same payload are the same in all, and take the same time. -/
def Plugin.Fixed (p : Plugin) : Prop :=
  ∀ name occasion occasion' input, p.call name occasion input = p.call name occasion' input

theorem Plugin.Fixed.deterministic {p : Plugin} (hp : p.Fixed) : p.Deterministic :=
  fun name occasion occasion' input => congrArg Call.ending (hp name occasion occasion' input)

/-- The tokens that are cancelled at a moment if no tool cancels another one till then. -/
def World.cancelledAt (w : World) (moment : Nat) : List Token :=
  World.cancelled { w with now := moment }

theorem World.cancelledAt_after (w : World) (call : Call) (moment : Nat) :
    (w.after call).cancelledAt moment = call.cancels ++ w.cancelledAt moment :=
  List.append_assoc _ _ _

theorem Token.isCancelled_append (fired more : List Token) (t : Token) :
    isCancelled (fired ++ more) t = (isCancelled fired t || isCancelled more t) :=
  List.any_append

/-- The time is the same in both worlds, and what interrupts a run in the second one, at a moment to
come, interrupts a run in the first one by then. -/
structure Sooner (o o' : Options) (w w' : World) : Prop where
  now : w.now = w'.now
  token : ∀ t, o'.cancel = some t → o.cancel = some t ∧ ∀ moment, w.now ≤ moment →
    Token.isCancelled (w'.cancelledAt moment) t → Token.isCancelled (w.cancelledAt moment) t
  deadline : ∀ d', o'.deadline = some d' → ∃ d ≤ d', o.deadline = some d

namespace Sooner

variable {o o' : Options} {w w' : World}

theorem interruption (h : Sooner o o' w w') (hi : o.interruption w = none) :
    o'.interruption w' = none := by
  cases hi' : o'.interruption w' with
  | none => rfl
  | some reason =>
    cases reason with
    | signal =>
      obtain ⟨t, ht, hc⟩ := Options.interruption_eq_signal_iff.mp hi'
      obtain ⟨hto, hcancelled⟩ := h.token t ht
      have hc' : Token.isCancelled w.cancelled t :=
        hcancelled w.now (Nat.le_refl _) (by rw [h.now]; exact hc)
      rw [Options.interruption_eq_signal_iff.mpr ⟨t, hto, hc'⟩] at hi
      cases hi
    | deadline =>
      obtain ⟨d', hd', hle'⟩ := Options.deadline_of_interruption hi'
      obtain ⟨d, hdd, hd⟩ := h.deadline d' hd'
      have hlt : w.now < d := Options.lt_deadline_of_interruption hi hd
      have hnow := h.now
      omega

theorem after (h : Sooner o o' w w') (call : Call) :
    Sooner o o' (w.after call) (w'.after call) where
  now := congrArg (· + call.took) h.now
  token t ht := by
    obtain ⟨hto, hcancelled⟩ := h.token t ht
    refine ⟨hto, fun moment hm hc => ?_⟩
    have hle : w.now ≤ moment := Nat.le_trans (Nat.le_add_right _ _) hm
    rw [World.cancelledAt_after, Token.isCancelled_append, Bool.or_eq_true] at hc ⊢
    exact hc.imp_right (hcancelled moment hle)
  deadline := h.deadline

theorem abreast {p : Plugin} (hp : p.Fixed) : Abreast p o o' .still .still (Sooner o o') where
  goesOn _ _ _ h hi := h.interruption hi
  after _ w w' h tool input := by
    have hcall := hp tool (Drift.still 0 w').occasion w.occasion input
    exact hcall ▸ h.after _

theorem of_deadline (o : Options) (w : World) {d d' : Nat} (h : d ≤ d') :
    Sooner (o.withDeadline d) (o.withDeadline d') w w where
  now := rfl
  token t ht := ⟨ht, fun _ _ hc => hc⟩
  deadline := by
    rintro _ ⟨⟩
    exact ⟨d, h, rfl⟩

theorem of_due (o : Options) (w : World) (t : Token) {moment later : Nat} (h : moment ≤ later) :
    Sooner o o { w with due := (moment, t) :: w.due } { w with due := (later, t) :: w.due } where
  now := rfl
  token s hs := by
    refine ⟨hs, fun m _ hc => Token.isCancelled_mono (fun f hf => ?_) hc⟩
    rw [World.cancelledAt, World.mem_cancelled] at hf ⊢
    rcases hf with hf | ⟨n, hn, hd⟩
    · exact .inl hf
    · rcases List.mem_cons.mp hd with hd | hd
      · obtain ⟨rfl, rfl⟩ := Prod.mk.inj hd
        exact .inr ⟨moment, Nat.le_trans h hn, List.mem_cons_self⟩
      · exact .inr ⟨n, hn, List.mem_cons_of_mem _ hd⟩
  deadline d hd := ⟨d, Nat.le_refl d, hd⟩

end Sooner

/-- What interrupts a run takes steps off its end and changes nothing else: beside the run without
token and deadline, the run is the same or has its first steps only, whether an engine runs it or it
is taken step by step. What comes sooner leaves no more of the run. -/
theorem interruption_only_truncates :
    (∀ (e : Engine) (request : Request) (p : Plugin) (o : Options) (runId : String)
      (offered : Nat) (w w' : World),
      validate e.registry request.pluginId request.tools = .ok p → Indexable request.tools →
      p.Deterministic →
      (e.run runId request o offered w).1.Truncates
        (e.run runId request o.unbounded offered w').1) ∧
    (∀ (e : Engine) (j : Job) (p : Plugin) (found found' : Nat → Nat × World),
      validate e.registry j.request.pluginId j.request.tools = .ok p →
      Indexable j.request.tools → p.Deterministic → (∀ n, (found n).1 = (found' n).1) →
      ∃ cut free, cut.Truncates free ∧ ∀ n, 2 * j.request.tools.length + 2 ≤ n →
        Progress.after e j found n = .over cut ∧
        Progress.after e { j with options := j.options.unbounded } found' n = .over free) ∧
    (∀ (e : Engine) (request : Request) (p : Plugin) (o o' : Options) (runId runId' : String)
      (offered offered' : Nat) (w w' : World),
      validate e.registry request.pluginId request.tools = .ok p → Indexable request.tools →
      p.Fixed → Sooner o o' w w' →
      (e.run runId request o offered w).1.trace.invocations <+:
        (e.run runId' request o' offered' w').1.trace.invocations) ∧
    (∀ (o : Options) (w : World) (d d' : Nat), d ≤ d' →
      Sooner (o.withDeadline d) (o.withDeadline d') w w) ∧
    ∀ (o : Options) (w : World) (t : Token) (moment later : Nat), moment ≤ later →
      Sooner o o { w with due := (moment, t) :: w.due } { w with due := (later, t) :: w.due } := by
  refine ⟨?_, ?_, ?_, ?_, ?_⟩
  · intro e request p o runId offered w w' hv hlen hp
    have hcut : e.run runId request o offered w = _ := Engine.run_eq hv hlen runId o offered w
    have hfree : e.run runId request o.unbounded offered w' = _ :=
      Engine.run_eq hv hlen runId o.unbounded offered w'
    rw [hcut, hfree]
    exact Course.of_truncates hp (e.context runId p o) request.payload _ _ _ _ _ .still .still w w'
      request.tools
  · intro e j p found found' hv hlen hp hcounts
    let unbounded : Job := { j with options := j.options.unbounded }
    have hoffers : Progress.offers found = Progress.offers found' :=
      funext fun step => hcounts (2 * step + 2)
    obtain ⟨elapsed, offered, hcut⟩ := Progress.over_eq_of_validate found hv hlen .initial
    obtain ⟨elapsed', offered', hfree⟩ :=
      Progress.over_eq_of_validate (j := unbounded) found' hv hlen .initial
    refine ⟨_, _, ?_, fun n hn => ⟨hcut n hn, hfree n hn⟩⟩
    rw [Progress.pastRun, Progress.pastRun, ← hoffers]
    exact Course.of_truncates hp (e.context j.runId p j.options) j.request.payload _ _ _ _ _ _ _ _ _
      j.request.tools
  · intro e request p o o' runId runId' offered offered' w w' hv hlen hp h
    have hleads : (Course.of p o .still request.payload w request.tools).Leads
        (.of p o' .still request.payload w' request.tools) :=
      Course.from_leads hp.deterministic (Sooner.abreast hp) 0 request.payload h request.tools
    rw [(Engine.run_shows hv hlen runId o offered w).2,
      (Engine.run_shows hv hlen runId' o' offered' w').2]
    exact hleads.invocations_prefix request.payload
  · intro o w d d' h
    exact .of_deadline o w h
  · intro o w t moment later h
    exact .of_due o w t h

/-- With a deadline after seven milliseconds a run has two steps of five milliseconds, with one
after four it has one, and without any it has all three. -/
theorem interruption_only_truncates_halted :
    let e : Engine := ⟨Registry.empty.register haltPlugin, .memory⟩
    let request : Request := ⟨"p", ["halt", "halt", "halt"], .empty⟩
    let o := Options.default.withDeadline 7
    let found : Nat → Nat × World := fun n => (0, { World.initial with now := 2 * n })
    let free := (e.run "r" request o.unbounded 0 .initial).1
    let cut := (e.run "r" request o 0 .initial).1
    let sooner := (e.run "r" request (Options.default.withDeadline 4) 0 .initial).1
    validate e.registry request.pluginId request.tools = .ok haltPlugin ∧
    Indexable request.tools ∧ haltPlugin.Fixed ∧
    cut.outcome = .error (.cancelled 2 .deadline) ∧ cut.FirstOf 2 free ∧
    free.trace.succeeded = [0, 1, 2] ∧
    sooner.outcome = .error (.cancelled 1 .deadline) ∧
    sooner.trace.invocations <+: cut.trace.invocations ∧
    ∃ ended, Progress.after e ⟨"r", request, o, 0⟩ found 8 = .over ended ∧
      ended.outcome = .error (.cancelled 2 .deadline) := by
  intro e request o found free cut sooner
  have hv : validate e.registry request.pluginId request.tools = .ok haltPlugin := rfl
  have hlen : Indexable request.tools := by decide
  have hp : haltPlugin.Fixed := by
    intro name occasion occasion' input
    have ht : haltPlugin.tool? name = _ := lookup_cons_ite name "halt" _ []
    rw [Plugin.call, Plugin.call, ht]
    by_cases hn : name = "halt" <;> simp [hn]
  obtain ⟨hrun, hstep, hmono, hdeadline, -⟩ := interruption_only_truncates
  have hcut := hrun e request haltPlugin o "r" 0 .initial .initial hv hlen hp.deterministic
  have hsooner := hmono e request haltPlugin _ o "r" "r" 0 0 .initial .initial hv hlen hp
    (hdeadline .default .initial 4 7 (by decide))
  obtain ⟨ended, unbounded, htruncates, hover⟩ :=
    hstep e ⟨"r", request, o, 0⟩ haltPlugin found found hv hlen hp.deterministic (fun _ => rfl)
  have hended := (hover 8 (by decide)).1
  refine ⟨hv, hlen, hp, rfl, hcut.first 2 .deadline rfl, rfl, rfl, hsooner, ended, hended, ?_⟩
  cases hended
  rfl

end ToolPipeline
