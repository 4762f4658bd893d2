import ToolPipeline.Proofs.Pipeline.Lifecycle

/-! What a run offers to its recorder, and the whole of what it leaves behind when it stops where
its course tells: run by an engine or taken step by step, a run ends so or is refused. -/

namespace ToolPipeline

/-- The records that the recorder was offered, with what it did with them. -/
def Trace.offers (t : Trace) : List (StepRecord × Reaction) := t.filterMap fun
  | .offered r reaction => some (r, reaction)
  | _ => none

theorem Trace.offers_append (t u : Trace) : offers (t ++ u) = t.offers ++ u.offers :=
  List.filterMap_append

theorem Trace.records_eq_offers (t : Trace) : t.records =
    t.offers.filterMap fun o => if o.2.panic.isNone then some o.1 else none := by
  rw [Trace.offers, List.filterMap_filterMap]
  refine congrArg (List.filterMap · t) (funext fun h => ?_)
  cases h <;> rfl

theorem Trace.filterMap_map {α : Type} {f : Happening → Option α} {g : Happening → Happening}
    (h : ∀ x, f (g x) = f x) (t : Trace) : (t.map g).filterMap f = t.filterMap f := by
  rw [List.filterMap_map]
  exact congrArg (List.filterMap · t) (funext h)

/-- The end of a run with this course, closed after so many milliseconds. `offers` tells how many
records had been offered before that of each step. -/
def Course.closed (c : RunContext) (payload : Payload) (offers : Nat → Nat)
    (offered elapsed : Nat) (k : Course) : Ended :=
  Engine.close elapsed (k.stop.ended c (.past c payload offers offered k.passed))

theorem Engine.close_offers (elapsed : Nat) (ended : Ended) :
    (close elapsed ended).trace.offers = ended.trace.offers := by
  unfold close
  split <;> simp [Trace.offers]

theorem Stop.happenings_offers (step : Nat) (input : Payload) (stop : Stop) :
    Trace.offers (stop.happenings step input) = [] := by
  cases stop <;> rfl

section
variable (c : RunContext) (payload : Payload) (offers : Nat → Nat) (offered elapsed : Nat)
  (k : Course)

theorem Course.closed_outcome :
    (k.closed c payload offers offered elapsed).outcome = k.outcome c.plugin c.options payload :=
  Engine.close_outcome _ _

theorem Course.closed_invocations :
    (k.closed c payload offers offered elapsed).trace.invocations = k.invocations payload :=
  (Engine.close_invocations _ _).trans (Stop.ended_past c payload offers offered k).2

theorem Run.past_offers (passed : List Passage) :
    (Run.past c payload offers offered passed).trace.offers = passed.zipIdx.map fun s =>
      (s.1.record c s.2, c.recorder.react (offers s.2) (s.1.record c s.2)) := by
  rw [List.map_eq_flatMap]
  exact List.filterMap_flatMap

theorem Course.closed_offers : (k.closed c payload offers offered elapsed).trace.offers =
    k.passed.zipIdx.map fun s =>
      (s.1.record c s.2, c.recorder.react (offers s.2) (s.1.record c s.2)) := by
  have hpast := Run.past_offers c payload offers offered k.passed
  have hstop := Stop.happenings_offers k.passed.length (handedOn payload k.passed) k.stop
  have hended : (k.stop.ended c (.past c payload offers offered k.passed)).trace.offers = _ :=
    Trace.offers_append _ _
  rw [Course.closed, Engine.close_offers, hended, hpast]
  exact (congrArg _ hstop).trans (List.append_nil _)

end

/-- The steps that the run of a request passes, of which there are none if it is not valid. -/
def Engine.passed (e : Engine) (request : Request) (o : Options) (drift : Drift) (w : World) :
    List Passage :=
  match validate e.registry request.pluginId request.tools with
  | .error _ => []
  | .ok p => (Course.of p o drift request.payload w request.tools).passed

section
variable {e : Engine} {request : Request}

theorem Engine.passed_of_invalid {error : ValidationError}
    (h : validate e.registry request.pluginId request.tools = .error error) (o : Options)
    (drift : Drift) (w : World) : e.passed request o drift w = [] := by
  simp only [passed, h]

theorem Engine.passed_of_valid {p : Plugin}
    (h : validate e.registry request.pluginId request.tools = .ok p) (o : Options)
    (drift : Drift) (w : World) :
    e.passed request o drift w = (Course.of p o drift request.payload w request.tools).passed := by
  simp only [passed, h]

end

/-- How a run may end: refused, or where its course stops. `drift` tells what else happens to the
world, and `offers` how many records had been offered before that of each step. -/
inductive Engine.Ends (e : Engine) (runId : String) (request : Request) (o : Options)
    (drift : Drift) (offers : Nat → Nat) (w : World) : Ended → Prop
  | refused {error : ValidationError} (offered : Nat)
    (hv : validate e.registry request.pluginId request.tools = .error error) :
    Ends e runId request o drift offers w (reject (.start request.payload offered) error)
  | closed {p : Plugin} (offered elapsed : Nat)
    (hv : validate e.registry request.pluginId request.tools = .ok p) :
    Ends e runId request o drift offers w
      ((Course.of p o drift request.payload w request.tools).closed (e.context runId p o)
        request.payload offers offered elapsed)

theorem Engine.run_ends (e : Engine) {request : Request} (hlen : Indexable request.tools)
    (runId : String) (o : Options) (offered : Nat) (w : World) :
    e.Ends runId request o .still (offered + ·) w (e.run runId request o offered w).1 := by
  cases hv : validate e.registry request.pluginId request.tools with
  | error error =>
    rw [run_of_invalid hv]
    exact .refused offered hv
  | ok p =>
    have hrun : e.run runId request o offered w = _ := run_eq hv hlen runId o offered w
    rw [hrun]
    exact .closed _ _ hv

theorem Progress.over_ends (e : Engine) {j : Job} (hlen : Indexable j.request.tools)
    (found : Nat → Nat × World) (w : World) :
    ∃ ended, (∀ n, 2 * j.request.tools.length + 2 ≤ n → after e j found n = .over ended) ∧
      e.Ends j.runId j.request j.options (drift found) (offers found) w ended := by
  cases hv : validate e.registry j.request.pluginId j.request.tools with
  | error error =>
    exact ⟨_, fun n hn => over_of_invalid found hv (by omega), .refused _ hv⟩
  | ok p =>
    obtain ⟨elapsed, offered, hover⟩ := over_eq_of_validate found hv hlen w
    exact ⟨_, hover, .closed offered elapsed hv⟩

end ToolPipeline
