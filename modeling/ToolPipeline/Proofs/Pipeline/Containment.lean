import ToolPipeline.Proofs.Pipeline.AuditTrail
import ToolPipeline.Proofs.Pipeline.CourseAgreement

/-! Runs of two recorders go the same way, whatever the recorders do and wherever they break down. A
call in which a recorder breaks down leaves one warning behind. -/

namespace ToolPipeline

/-- What happened, without what the recorder did and the id that it was told. -/
def Happening.hushed : Happening → Happening
  | .offered r _ => .offered { r with runId := "" } ⟨[], none⟩
  | h => h

def Trace.hushed (t : Trace) : Trace := t.map Happening.hushed

section
variable {t u : Trace}

theorem Trace.invocations_of_hushed (h : t.hushed = u.hushed) : t.invocations = u.invocations := by
  have hread (t : Trace) : t.hushed.invocations = t.invocations :=
    filterMap_map (fun x => by cases x <;> rfl) t
  rw [← hread t, h, hread u]

theorem Trace.transitions_of_hushed (h : t.hushed = u.hushed) : t.transitions = u.transitions := by
  have hread (t : Trace) : t.hushed.transitions = t.transitions :=
    filterMap_map (fun x => by cases x <;> rfl) t
  rw [← hread t, h, hread u]

end

/-- Runs that differ at most in their recorders and ids. -/
structure Run.Alike (r s : Run) : Prop where
  state : r.state = s.state
  step : r.step = s.step
  payload : r.payload = s.payload
  steps : r.steps = s.steps
  hushed : r.trace.hushed = s.trace.hushed

structure Ended.Alike (a b : Ended) : Prop where
  outcome : a.outcome = b.outcome
  state : a.state = b.state
  hushed : a.trace.hushed = b.trace.hushed

def Run.AlikeAfter (x y : Except Ended Run) : Prop :=
  (∃ a b, x = .error a ∧ y = .error b ∧ a.Alike b) ∨ ∃ r s, x = .ok r ∧ y = .ok s ∧ r.Alike s

namespace Run.Alike

variable {c d : RunContext} {r s : Run}

theorem note (h : r.Alike s) {x y : Happening} (hxy : x.hushed = y.hushed) :
    (r.note x).Alike (s.note y) where
  state := h.state
  step := h.step
  payload := h.payload
  steps := h.steps
  hushed := by
    have hh := h.hushed
    simp only [Trace.hushed] at hh
    simp only [Run.note, Trace.hushed, List.map_append, List.map_cons, hh, hxy]

theorem finish (h : r.Alike s) (outcome : Outcome) : (r.finish outcome).Alike (s.finish outcome) :=
  ⟨rfl, h.state, h.hushed⟩

theorem moveTo (h : r.Alike s) (next : State) : AlikeAfter (r.moveTo next) (s.moveTo next) := by
  unfold Run.moveTo
  rw [h.state]
  cases s.state.advance next with
  | error p => exact .inl ⟨_, _, rfl, rfl, h.finish (.panicked p)⟩
  | ok state =>
    have hn := h.note (x := .moved s.state next) rfl
    exact .inr ⟨_, _, rfl, rfl, rfl, hn.step, hn.payload, hn.steps, hn.hushed⟩

theorem endIn (h : r.Alike s) (next : State) {f g : Run → Ended}
    (hfg : ∀ r s, r.Alike s → (f r).Alike (g s)) :
    (r.endIn next f).Alike (s.endIn next g) := by
  unfold Run.endIn
  rcases h.moveTo next with ⟨a, b, ha, hb, hab⟩ | ⟨r', s', hr, hs, hrs⟩
  · simp only [ha, hb]
    exact hab
  · simp only [hr, hs]
    exact hfg r' s' hrs

theorem enter (h : r.Alike s) (ho : c.options = d.options) (tool : String) (w : World) :
    AlikeAfter (r.enter c tool w) (s.enter d tool w) := by
  unfold Run.enter
  rw [h.step, ho]
  rcases h.moveTo (.executing s.step) with ⟨a, b, ha, hb, hab⟩ | ⟨r', s', hr, hs, hrs⟩
  · rw [ha, hb]
    exact .inl ⟨a, b, rfl, rfl, hab⟩
  · rw [hr, hs]
    simp only [bind, Except.bind]
    cases d.options.interruption w with
    | some reason =>
      refine .inl ⟨_, _, rfl, rfl, hrs.endIn .cancelled fun r s h => ?_⟩
      rw [h.step]
      exact (h.note rfl).finish _
    | none =>
      refine .inr ⟨_, _, rfl, rfl, hrs.note ?_⟩
      rw [hrs.step, hrs.payload]

theorem call (h : r.Alike s) (hp : c.plugin = d.plugin) (tool : String) (w : World) :
    r.call c tool w = s.call d tool w := by
  rw [Run.call, Run.call, hp, h.payload]

theorem succeed (h : r.Alike s) (hp : c.plugin = d.plugin) (ho : c.options = d.options)
    (tool : String) (elapsed : Nat) (output : Payload) :
    (r.succeed c tool elapsed output).Alike (s.succeed d tool elapsed output) := by
  have hfinished := h.note (x := .finished r.step tool elapsed) (y := .finished s.step tool elapsed)
    (by rw [h.step])
  -- only here do the two runs differ, and only in what is hushed
  have hrecord : { r.record c tool output with runId := "" } =
      { s.record d tool output with runId := "" } := by
    simp only [Run.record, hp, h.step]
  have hoffered (x y : Reaction) := hfinished.note (x := .offered (r.record c tool output) x)
    (y := .offered (s.record d tool output) y) (by simp only [Happening.hushed, hrecord])
  refine ⟨h.state, congrArg (· + 1) h.step, rfl, ?_, (hoffered _ _).hushed⟩
  simp only [Run.succeed, ho, Run.note, h.steps]

theorem leave (h : r.Alike s) (hp : c.plugin = d.plugin) (ho : c.options = d.options)
    (tool : String) (call : Call) : AlikeAfter (r.leave c tool call) (s.leave d tool call) := by
  unfold Run.leave
  rw [hp, h.step]
  cases call.ending with
  | panicked p => exact .inl ⟨_, _, rfl, rfl, h.finish _⟩
  | failed e => exact .inl ⟨_, _, rfl, rfl, h.endIn .failed fun r s h => h.finish _⟩
  | returned v =>
    dsimp only
    cases v.asObject? with
    | none => exact .inl ⟨_, _, rfl, rfl, h.endIn .failed fun r s h => h.finish _⟩
    | some output => exact .inr ⟨_, _, rfl, rfl, h.succeed hp ho tool call.took output⟩

theorem complete (h : r.Alike s) : r.complete.Alike s.complete :=
  h.endIn .completed fun r s h => by
    rw [h.payload, h.steps]
    exact h.finish _

theorem through (h : r.Alike s) (hp : c.plugin = d.plugin) (ho : c.options = d.options)
    (tools : List String) (w : World) :
    let a := Run.through c tools r w
    let b := Run.through d tools s w
    a.1.Alike b.1 ∧ a.2 = b.2 := by
  induction tools generalizing r s w with
  | nil => exact ⟨h.complete, rfl⟩
  | cons tool rest ih =>
    unfold Run.through
    rcases h.enter ho tool w with ⟨a, b, ha, hb, hab⟩ | ⟨r', s', hr, hs, hrs⟩
    · simp only [ha, hb]
      exact ⟨hab, trivial⟩
    · simp only [hr, hs, hrs.call hp tool w]
      rcases hrs.leave hp ho tool (s'.call d tool w) with ⟨a, b, ha, hb, hab⟩ | ⟨r, s, hr, hs, h⟩
      · simp only [ha, hb]
        exact ⟨hab, trivial⟩
      · simp only [hr, hs]
        exact ih h (w.after (s'.call d tool w))

theorem start (payload : Payload) (m n : Nat) : (Run.start payload m).Alike (.start payload n) :=
  ⟨rfl, rfl, rfl, rfl, rfl⟩

theorem execute (h : r.Alike s) (hp : c.plugin = d.plugin) (ho : c.options = d.options)
    (tools : List String) (w : World) :
    let a := Run.execute c tools r w
    let b := Run.execute d tools s w
    a.1.Alike b.1 ∧ a.2 = b.2 := by
  unfold Run.execute
  split
  · exact ⟨h.endIn .rejected fun r s h => h.finish _, rfl⟩
  · exact h.through hp ho tools w

theorem reject (h : r.Alike s) (error : ValidationError) :
    (Engine.reject r error).Alike (Engine.reject s error) :=
  h.endIn .rejected fun _ _ h => (h.note rfl).finish _

end Run.Alike

theorem Ended.Alike.close {a b : Ended} (h : a.Alike b) (elapsed : Nat) :
    (Engine.close elapsed a).Alike (Engine.close elapsed b) := by
  obtain ⟨outcome, state, offered, trace⟩ := a
  obtain ⟨rfl, rfl, hh⟩ := h
  simp only [Trace.hushed] at hh
  cases hb : b.outcome with
  | ok | error =>
    simp only [Engine.close, hb]
    exact ⟨rfl, rfl, by simp only [Trace.hushed, List.map_append, hh]⟩
  | panicked p =>
    simp only [Engine.close, hb]
    exact ⟨hb.symm, rfl, hh⟩

theorem Engine.run_alike {e f : Engine} (hreg : e.registry = f.registry) (id id' : String)
    (request : Request) (o : Options) (m n : Nat) (w : World) :
    let a := e.run id request o m w
    let b := f.run id' request o n w
    a.1.Alike b.1 ∧ a.2 = b.2 := by
  unfold run
  rw [hreg]
  cases validate f.registry request.pluginId request.tools with
  | error error => exact ⟨(Run.Alike.start request.payload m n).reject error, rfl⟩
  | ok p =>
    have hx := (Run.Alike.start request.payload m n).execute (c := e.context id p o)
      (d := f.context id' p o) rfl rfl request.tools w
    dsimp only
    rw [hx.2]
    exact ⟨hx.1.close _, rfl⟩

namespace Progress

inductive Alike : Progress → Progress → Prop
  | fresh : Alike .fresh .fresh
  | between {r s : Run} (p : Plugin) (rest : List String) (h : r.Alike s) :
    Alike (.between p rest r) (.between p rest s)
  | inside {r s : Run} (p : Plugin) (tool : String) (rest : List String) (call : Call)
    (h : r.Alike s) : Alike (.inside p tool rest r call) (.inside p tool rest s call)
  | over {x y : Ended} (h : x.Alike y) : Alike (.over x) (.over y)

section
variable {e f : Engine} {i j : Job} {p : Plugin} {r s : Run} {a b : Progress}

theorem alike_begin (hreg : e.registry = f.registry) (hreq : i.request = j.request) (m n : Nat) :
    (begin e i m).Alike (begin f j n) := by
  unfold begin
  rw [hreg, hreq]
  dsimp only
  cases validate f.registry j.request.pluginId j.request.tools with
  | error error => exact .over ((Run.Alike.start j.request.payload m n).reject error)
  | ok p => exact .between p j.request.tools (.start j.request.payload m n)

theorem alike_conclude (hbegan : i.began = j.began) {x y : Ended} (h : x.Alike y) (now : Nat) :
    (conclude i now x).Alike (conclude j now y) := by
  unfold conclude
  rw [hbegan]
  exact .over (h.close _)

theorem alike_enter (ho : i.options = j.options) (hbegan : i.began = j.began) (h : r.Alike s)
    (rest : List String) (w : World) : (enter e i w p rest r).Alike (enter f j w p rest s) := by
  unfold enter
  cases rest with
  | nil => exact alike_conclude hbegan h.complete w.now
  | cons tool rest =>
    dsimp only
    rcases h.enter (c := e.context i.runId p i.options) (d := f.context j.runId p j.options) ho
      tool w with ⟨x, y, hx, hy, hxy⟩ | ⟨r', s', hr, hs, hrs⟩
    · simp only [hx, hy]
      exact alike_conclude hbegan hxy w.now
    · simp only [hr, hs]
      rw [hrs.call (c := e.context i.runId p i.options) (d := f.context j.runId p j.options) rfl]
      exact .inside p tool rest _ hrs

theorem alike_leave (ho : i.options = j.options) (hbegan : i.began = j.began) (h : r.Alike s)
    (now : Nat) (tool : String) (rest : List String) (call : Call) :
    (leave e i now p tool rest r call).Alike (leave f j now p tool rest s call) := by
  unfold leave
  rcases h.leave (c := e.context i.runId p i.options) (d := f.context j.runId p j.options) rfl ho
    tool call with ⟨x, y, hx, hy, hxy⟩ | ⟨r', s', hr, hs, hrs⟩
  · simp only [hx, hy]
    exact alike_conclude hbegan hxy now
  · simp only [hr, hs]
    exact .between p rest hrs

theorem Alike.step (hreg : e.registry = f.registry) (hreq : i.request = j.request)
    (ho : i.options = j.options) (hbegan : i.began = j.began) (h : a.Alike b) (m n : Nat)
    (w : World) :
    (a.step? e i m w = none ∧ b.step? f j n w = none) ∨
      ∃ a' b' v, a.step? e i m w = some (a', v) ∧ b.step? f j n w = some (b', v) ∧ a'.Alike b' := by
  cases h with
  | fresh => exact .inr ⟨_, _, w, rfl, rfl, alike_begin hreg hreq m n⟩
  | between p rest h => exact .inr ⟨_, _, w, rfl, rfl, alike_enter ho hbegan h rest w⟩
  | @inside r s p tool rest call h =>
    have ho' : Run.Alike { r with offered := m } { s with offered := n } :=
      ⟨h.state, h.step, h.payload, h.steps, h.hushed⟩
    exact .inr ⟨_, _, w.after call, rfl, rfl, alike_leave ho hbegan ho' _ tool rest call⟩
  | «over» h => exact .inl ⟨rfl, rfl⟩

theorem alike_after (hreg : e.registry = f.registry) (hreq : i.request = j.request)
    (ho : i.options = j.options) (hbegan : i.began = j.began) {found found' : Nat → Nat × World}
    (hfound : ∀ n, (found n).2 = (found' n).2) (n : Nat) :
    (after e i found n).Alike (after f j found' n) := by
  induction n with
  | zero => exact .fresh
  | succ n ih =>
    unfold after
    rw [hfound]
    rcases ih.step hreg hreq ho hbegan (found n).1 (found' n).1 (found' n).2 with
      ⟨ha, hb⟩ | ⟨a, b, v, ha, hb, hab⟩
    · simp only [ha, hb]
      exact ih
    · simp only [ha, hb]
      exact hab

theorem Alike.hushed (h : a.Alike b) : a.trace.hushed = b.trace.hushed := by
  cases h with
  | fresh => rfl
  | between p rest h => exact h.hushed
  | inside p tool rest call h => exact h.hushed
  | «over» h => exact h.hushed

theorem Alike.outcome (h : a.Alike b) :
    a.ended?.map Ended.outcome = b.ended?.map Ended.outcome := by
  cases h with
  | fresh | between | inside => rfl
  | «over» h => exact congrArg some h.outcome

end

end Progress

/-- The recorder hears of the first calls of tools, in order. `offers` tells how many records it had
been offered before that of each step. -/
def Trace.HeardBy (t : Trace) (recorder : Recorder) (runId : String) (offers : Nat → Nat) : Prop :=
  ∀ (n : Nat) r reaction, t.offers[n]? = some (r, reaction) →
    r.runId = runId ∧ r.step = n ∧ reaction = recorder.react (offers n) r ∧
      ∃ input, t.invocations[n]? = some ⟨n, r.tool, input⟩

theorem Course.closed_heardBy (c : RunContext) (payload : Payload) (offers : Nat → Nat)
    (offered elapsed : Nat) (k : Course) :
    (k.closed c payload offers offered elapsed).trace.HeardBy c.recorder c.runId offers := by
  intro n r reaction h
  rw [Course.closed_offers, List.getElem?_map, List.getElem?_zipIdx, Nat.zero_add] at h
  cases hs : k.passed[n]? with
  | none => simp [hs] at h
  | some s =>
    rw [hs] at h
    cases h
    rw [Course.closed_invocations]
    exact ⟨rfl, rfl, rfl, s.input, Course.invocations_of_passed hs payload⟩

theorem Engine.Ends.heardBy {e : Engine} {runId : String} {request : Request} {o : Options}
    {drift : Drift} {offers : Nat → Nat} {w : World} {ended : Ended}
    (h : e.Ends runId request o drift offers w ended) :
    ended.trace.HeardBy e.recorder runId offers := by
  cases h with
  | refused offered hv =>
    intro n r reaction h
    rw [reject_start] at h
    cases h
  | @closed p offered elapsed hv =>
    exact Course.closed_heardBy (e.context runId p o) request.payload offers offered elapsed _

def Log.Event.isBreakdown (e : Log.Event) : Bool := e.message == "step recorder panicked"

theorem Trace.breakdowns_eq (t : Trace) : t.events.filter Log.Event.isBreakdown =
    t.offers.flatMap fun o => o.2.events.filter Log.Event.isBreakdown ++
      o.2.panic.toList.map (Recorder.brokeDown o.1) := by
  induction t with
  | nil => rfl
  | cons h rest ih =>
    rw [events] at ih
    rw [events, List.flatMap_cons, List.filter_append, ih]
    cases h with
    | offered r reaction =>
      cases hq : reaction.panic <;>
        simp [offers, Happening.events, hq, Recorder.brokeDown, Log.Event.isBreakdown]
    | moved | invoked | finished | stopped | rejected | completed | failed =>
      simp [offers, Happening.events, State.moved, Log.Event.isBreakdown]

/-- Whatever two recorders do, runs of one request come to the same end by the same calls and the
same states, and at no time do they differ but in what their recorders have done. Each call in which
a recorder breaks down leaves one warning, and no other call leaves one. -/
theorem recorders_cannot_interfere :
    (∀ (p : Plugin) (o : Options) (recorder recorder' : Recorder) (id id' : String)
      (tools : List String) (payload : Payload) (m n : Nat) (w : World),
      let a := Run.execute ⟨id, p, o, recorder⟩ tools (.start payload m) w
      let b := Run.execute ⟨id', p, o, recorder'⟩ tools (.start payload n) w
      a.1.outcome = b.1.outcome ∧ a.1.trace.invocations = b.1.trace.invocations ∧
        a.1.trace.transitions = b.1.trace.transitions ∧ a.1.Alike b.1 ∧ a.2 = b.2) ∧
    (∀ (registry : Registry) (recorder recorder' : Recorder) (id id' : String) (request : Request)
      (o : Options) (m n : Nat) (w : World),
      let a := Engine.run ⟨registry, recorder⟩ id request o m w
      let b := Engine.run ⟨registry, recorder'⟩ id' request o n w
      a.1.outcome = b.1.outcome ∧ a.1.trace.invocations = b.1.trace.invocations ∧
        a.1.trace.transitions = b.1.trace.transitions ∧ a.1.Alike b.1 ∧ a.2 = b.2) ∧
    (∀ (registry : Registry) (recorder recorder' : Recorder) (id id' : String) (request : Request)
      (o : Options) (began : Nat) (found found' : Nat → Nat × World),
      (∀ n, (found n).2 = (found' n).2) → ∀ n,
      let a := Progress.after ⟨registry, recorder⟩ ⟨id, request, o, began⟩ found n
      let b := Progress.after ⟨registry, recorder'⟩ ⟨id', request, o, began⟩ found' n
      a.ended?.map Ended.outcome = b.ended?.map Ended.outcome ∧
        a.trace.invocations = b.trace.invocations ∧ a.trace.transitions = b.trace.transitions ∧
        a.Alike b) ∧
    (∀ (e : Engine) (runId : String) (request : Request) (o : Options) (offered : Nat) (w : World),
      Indexable request.tools →
      (e.run runId request o offered w).1.trace.HeardBy e.recorder runId (offered + ·)) ∧
    (∀ (e : Engine) (j : Job) (found : Nat → Nat × World), Indexable j.request.tools →
      ∃ ended, (∀ n, 2 * j.request.tools.length + 2 ≤ n →
          Progress.after e j found n = .over ended) ∧
        ended.trace.HeardBy e.recorder j.runId (Progress.offers found)) ∧
    ∀ t : Trace, t.events.filter Log.Event.isBreakdown =
      t.offers.flatMap fun o => o.2.events.filter Log.Event.isBreakdown ++
        o.2.panic.toList.map fun q =>
          ⟨.warn, "vista_pipeline::recorder", "step recorder panicked",
            [("run_id", .text o.1.runId), ("tool_name", .text o.1.tool), ("step", .nat o.1.step),
              ("reason", .text (match q with
                | .text m => m
                | .other => "non-string panic payload"))]⟩ := by
  refine ⟨?_, ?_, ?_, ?_, ?_, ?_⟩
  · intro p o recorder recorder' id id' tools payload m n w a b
    have hab : a.1.Alike b.1 ∧ a.2 = b.2 :=
      (Run.Alike.start payload m n).execute (c := ⟨id, p, o, recorder⟩)
        (d := ⟨id', p, o, recorder'⟩) rfl rfl tools w
    exact ⟨hab.1.outcome, Trace.invocations_of_hushed hab.1.hushed,
      Trace.transitions_of_hushed hab.1.hushed, hab⟩
  · intro registry recorder recorder' id id' request o m n w a b
    have hab : a.1.Alike b.1 ∧ a.2 = b.2 :=
      Engine.run_alike (e := ⟨registry, recorder⟩) (f := ⟨registry, recorder'⟩) rfl id id' request
        o m n w
    exact ⟨hab.1.outcome, Trace.invocations_of_hushed hab.1.hushed,
      Trace.transitions_of_hushed hab.1.hushed, hab⟩
  · intro registry recorder recorder' id id' request o began found found' hfound n a b
    have hab : a.Alike b :=
      Progress.alike_after (e := ⟨registry, recorder⟩) (f := ⟨registry, recorder'⟩)
        (i := ⟨id, request, o, began⟩) (j := ⟨id', request, o, began⟩) rfl rfl rfl rfl hfound n
    exact ⟨hab.outcome, Trace.invocations_of_hushed hab.hushed,
      Trace.transitions_of_hushed hab.hushed, hab⟩
  · intro e runId request o offered w hlen
    exact (e.run_ends hlen runId o offered w).heardBy
  · intro e j found hlen
    obtain ⟨ended, hover, hends⟩ := Progress.over_ends e hlen found .initial
    exact ⟨ended, hover, hends.heardBy⟩
  · intro t
    rw [t.breakdowns_eq]
    refine congrArg (fun f => t.offers.flatMap f) (funext fun o => ?_)
    refine congrArg (fun f => _ ++ List.map f o.2.panic.toList) (funext fun q => ?_)
    cases q <;> rfl

/-- A recorder that breaks down in both of its calls changes nothing about a run but to leave two
warnings. -/
theorem recorders_cannot_interfere_broken :
    let registry := Registry.empty.register haltPlugin
    let broken : Recorder :=
      ⟨fun n _ => ⟨[], some (if n = 0 then .text "sink" else .other)⟩, false⟩
    let request : Request := ⟨"p", ["halt", "halt"], .empty⟩
    let found : Nat → Nat × World := fun n => (n, { World.initial with now := n })
    let found' : Nat → Nat × World := fun n => (n + 7, { World.initial with now := n })
    let a := Engine.run ⟨registry, broken⟩ "r" request .default 0 .initial
    let b := Engine.run ⟨registry, .memory⟩ "s" request .default 5 .initial
    let i : Job := ⟨"r", request, .default, 0⟩
    let j : Job := ⟨"s", request, .default, 0⟩
    let warning (step : Nat) (reason : String) : Log.Event :=
      ⟨.warn, "vista_pipeline::recorder", "step recorder panicked",
        [("run_id", .text "r"), ("tool_name", .text "halt"), ("step", .nat step),
          ("reason", .text reason)]⟩
    Indexable request.tools ∧ (∀ n, (found n).2 = (found' n).2) ∧
    b.1.outcome = .ok ⟨.empty, [⟨"halt", .empty⟩, ⟨"halt", .empty⟩]⟩ ∧
    a.1.outcome = b.1.outcome ∧
    a.1.trace.events.filter Log.Event.isBreakdown =
      [warning 0 "sink", warning 1 "non-string panic payload"] ∧
    a.1.trace.HeardBy broken "r" (0 + ·) ∧
    (Progress.after ⟨registry, broken⟩ i found 4).trace.invocations =
      (Progress.after ⟨registry, .memory⟩ j found' 4).trace.invocations := by
  intro registry broken request found found' a b i j warning
  have hlen : Indexable request.tools := by decide
  have hfound : ∀ n, (found n).2 = (found' n).2 := fun _ => rfl
  have hb : b.1.outcome = .ok ⟨.empty, [⟨"halt", .empty⟩, ⟨"halt", .empty⟩]⟩ := rfl
  obtain ⟨-, hrun, hstep, hheard, -, hwarn⟩ := recorders_cannot_interfere
  have hab := hrun registry broken .memory "r" "s" request .default 0 5 .initial
  have hij := hstep registry broken .memory "r" "s" request .default 0 found found' hfound 4
  have ho : a.1.trace.offers = [(⟨"r", "p", "halt", 0, []⟩, ⟨[], some (.text "sink")⟩),
    (⟨"r", "p", "halt", 1, []⟩, ⟨[], some .other⟩)] := rfl
  have hw := hwarn a.1.trace
  rw [ho] at hw
  exact ⟨hlen, hfound, hb, hab.1, hw,
    hheard ⟨registry, broken⟩ "r" request .default 0 .initial hlen, hij.2.1⟩

end ToolPipeline
