import ToolPipeline.Proofs.Pipeline.Stepwise

/-! The lifecycle of a run: the states through which it comes to its outcome, and nothing but these
states, are in its trace. -/

namespace ToolPipeline

namespace State

def upTo (begun : Nat) : List State := .validating :: (List.range begun).map .executing

def moves : List State → List (State × State)
  | current :: next :: rest => (current, next) :: moves (next :: rest)
  | _ => []

theorem moves_append (path : List State) (s : State) (rest : List State) :
    moves (path ++ s :: rest) = moves (path ++ [s]) ++ moves (s :: rest) := by
  induction path with
  | nil => simp [moves]
  | cons t path ih =>
    cases path with
    | nil => simp [moves]
    | cons u path => simpa [moves] using ih

theorem upTo_succ (n : Nat) : upTo (n + 1) = upTo n ++ [.executing n] := by
  simp [upTo, List.range_succ]

theorem exists_upTo_eq (n : Nat) : ∃ path, upTo n = path ++ [before n] := by
  cases n with
  | zero => exact ⟨[], rfl⟩
  | succ n => exact ⟨upTo n, upTo_succ n⟩

theorem moves_upTo_append (n : Nat) (rest : List State) :
    moves (upTo n ++ rest) = moves (upTo n) ++ moves (before n :: rest) := by
  obtain ⟨path, hp⟩ := exists_upTo_eq n
  rw [hp, List.append_assoc, List.singleton_append, moves_append]

theorem moves_upTo (n : Nat) :
    moves (upTo n) = (List.range n).map fun k => (before k, .executing k) := by
  induction n with
  | zero => rfl
  | succ n ih => rw [upTo_succ, moves_upTo_append, ih, List.range_succ, List.map_append]; rfl

theorem moves_linked {path : List State} {i : Nat} {m n : State × State}
    (hm : (moves path)[i]? = some m) (hn : (moves path)[i + 1]? = some n) : m.2 = n.1 := by
  induction path generalizing i with
  | nil => simp [moves] at hm
  | cons a path ih =>
    cases path with
    | nil => simp [moves] at hm
    | cons b path =>
      cases i with
      | succ i => exact ih hm hn
      | zero =>
        cases path with
        | nil => simp [moves] at hn
        | cons c path =>
          simp only [moves, List.getElem?_cons_zero, List.getElem?_cons_succ,
            Option.some.injEq] at hm hn
          rw [← hm, ← hn]

theorem moves_map_snd (s : State) (rest : List State) :
    (moves (s :: rest)).map Prod.snd = rest := by
  induction rest generalizing s with
  | nil => rfl
  | cons t rest ih => simp [moves, ih]

theorem countP_moves (s : State) (rest : List State) :
    (moves (s :: rest)).countP (fun m => m.2.isTerminal) = rest.countP isTerminal := by
  have hm := congrArg (List.countP isTerminal) (moves_map_snd s rest)
  rwa [List.countP_map] at hm

theorem canFollow_executing {k : Nat} (h : k ≤ lastIndex) :
    (before k).canFollow (.executing k) = .ok true := by
  cases k with
  | zero => rfl
  | succ k =>
    have hk : k < lastIndex := h
    simp [before, canFollow, hk]

end State

/-- The states through which a run of so many tools comes to its outcome, if it returns. -/
def Outcome.path? (tools : Nat) : Outcome → Option (List State)
  | .ok _ => some (State.upTo tools ++ [.completed])
  | .error (.invalid _) => some [.validating, .rejected]
  | .error (.toolFailed _ _ step _) => some (State.upTo (step + 1) ++ [.failed])
  | .error (.notAnObject _ _ step _) => some (State.upTo (step + 1) ++ [.failed])
  | .error (.cancelled step _) => some (State.upTo (step + 1) ++ [.cancelled])
  | .panicked _ => none

/-- The transitions of a run are the moves of the path that its outcome tells of, and all of them
are legal. A run breaks only with a tool, and stays in the step of that tool. -/
structure Ended.KeepsLifecycle (ended : Ended) (plugin : Option Plugin) (tools : List String) :
    Prop where
  path : ∀ states, ended.outcome.path? tools.length = some states →
    ended.trace.transitions = State.moves states
  broken : ∀ q, ended.outcome = .panicked q → ∃ p i occasion, plugin = some p ∧
    ended.trace.invocations.getLast? = some i ∧
    (p.call i.tool occasion i.input).ending = .panicked q ∧
    ended.trace.transitions = State.moves (State.upTo (i.step + 1))
  legal : ∀ m ∈ ended.trace.transitions, m.1.canFollow m.2 = .ok true
  linked : ∀ (i : Nat) m n, ended.trace.transitions[i]? = some m →
    ended.trace.transitions[i + 1]? = some n → m.2 = n.1
  closed : (ended.trace.transitions.countP fun m => m.2.isTerminal) =
    if (ended.outcome.path? tools.length).isSome then 1 else 0

def Stop.states (step : Nat) : Stop → List State
  | .finished => [.completed]
  | .interrupted .. => [.executing step, .cancelled]
  | .failed .. | .notAnObject .. => [.executing step, .failed]
  | .panicked .. => [.executing step]

def Course.path (k : Course) : List State :=
  State.upTo k.passed.length ++ k.stop.states k.passed.length

theorem Stop.happenings_transitions (step : Nat) (input : Payload) (stop : Stop) :
    Trace.transitions (stop.happenings step input) =
      State.moves (.before step :: stop.states step) := by
  cases stop <;> rfl

section
variable (c : RunContext) (payload : Payload) (offers : Nat → Nat) (offered : Nat)

theorem Run.past_transitions (passed : List Passage) :
    (Run.past c payload offers offered passed).trace.transitions =
      State.moves (State.upTo passed.length) := by
  have hz := List.zipIdx_map_snd 0 passed
  rw [State.moves_upTo, List.range_eq_range', ← hz, List.map_map, List.map_eq_flatMap]
  exact List.filterMap_flatMap

theorem Stop.ended_transitions (k : Course) :
    (k.stop.ended c (.past c payload offers offered k.passed)).trace.transitions =
      State.moves k.path := by
  have hp := Run.past_transitions c payload offers offered k.passed
  have hs := Stop.happenings_transitions k.passed.length (handedOn payload k.passed) k.stop
  rw [Course.path, State.moves_upTo_append, ← hp, ← hs]
  exact List.filterMap_append

end

theorem Engine.close_transitions (elapsed : Nat) (ended : Ended) :
    (close elapsed ended).trace.transitions = ended.trace.transitions := by
  unfold close
  split <;> simp [Trace.transitions]

theorem Call.ending_of_verdict_panicked {call : Call} {tool name : String} {q : Panic}
    (h : call.verdict tool = .error (.panicked name q)) : call.ending = .panicked q := by
  unfold Call.verdict at h
  split at h
  · next hq =>
    cases h
    exact hq
  · cases h
  · split at h <;> cases h

section
variable {p : Plugin} {o : Options} {drift : Drift} {tools : List String}

theorem Course.call_of_panicked {step : Nat} {input : Payload} {w : World} {name : String}
    {q : Panic} (h : (Course.from p o drift step input w tools).stop = .panicked name q) :
    ∃ occasion, (p.call name occasion
      (handedOn input (Course.from p o drift step input w tools).passed)).ending =
        .panicked q := by
  induction tools generalizing step input w with
  | nil => simp [Course.from] at h
  | cons tool rest ih =>
    cases hi : o.interruption (drift step w) with
    | some reason => simp [Course.from_interrupted hi] at h
    | none =>
      cases hv : (p.call tool (drift step w).occasion input).verdict tool with
      | error stop =>
        rw [Course.from_stopped hi hv] at h ⊢
        obtain rfl : stop = .panicked name q := h
        have ht : name = tool := by simpa [Stop.called?] using Call.called?_of_verdict hv
        exact ⟨_, ht ▸ Call.ending_of_verdict_panicked hv⟩
      | ok output =>
        rw [Course.from_passed hi hv] at h ⊢
        simpa only [handedOn_cons] using ih h

theorem Course.passed_length_le (step : Nat) (input : Payload) (w : World) :
    (Course.from p o drift step input w tools).passed.length ≤ tools.length := by
  have ht := (Course.from_tools p o drift step input w tools).1.length_le
  simp only [List.length_append, List.length_map] at ht
  omega

theorem Course.path_legal {k : Course} (hlen : k.passed.length ≤ State.lastIndex)
    (hne : k.stop = .finished → k.passed ≠ []) {m : State × State}
    (hm : m ∈ State.moves k.path) : m.1.canFollow m.2 = .ok true := by
  rw [Course.path, State.moves_upTo_append, State.moves_upTo, List.mem_append, List.mem_map] at hm
  rcases hm with ⟨j, hj, rfl⟩ | hm
  · have hj' := List.mem_range.mp hj
    exact State.canFollow_executing (by omega)
  · have he := State.canFollow_executing hlen
    cases hs : k.stop with
    | finished =>
      obtain ⟨n, hn⟩ : ∃ n, k.passed.length = n + 1 :=
        ⟨k.passed.length - 1, by have := List.length_pos_iff.mpr (hne hs); omega⟩
      simp only [hs, hn, Stop.states, State.moves, List.mem_singleton] at hm
      rw [hm]
      rfl
    | interrupted tool reason | failed tool e | notAnObject tool found =>
      simp only [hs, Stop.states, State.moves, List.mem_cons, List.not_mem_nil, or_false] at hm
      rcases hm with rfl | rfl
      · exact he
      · rfl
    | panicked tool q =>
      simp only [hs, Stop.states, State.moves, List.mem_singleton] at hm
      rw [hm]
      exact he

theorem Course.path_eq {payload : Payload} {w : World} {states : List State}
    (h : ((Course.of p o drift payload w tools).outcome p o payload).path? tools.length =
      some states) : (Course.of p o drift payload w tools).path = states := by
  have hf := (Course.from_tools p o drift 0 payload w tools).2
  simp only [Course.of] at h ⊢
  cases hs : (Course.from p o drift 0 payload w tools).stop with
  | finished =>
    have hl := congrArg List.length (hf hs)
    rw [List.length_map] at hl
    simpa [Course.outcome, Course.path, hs, Stop.outcome, Stop.states, Outcome.path?, hl] using h
  | panicked tool q => simp [Course.outcome, hs, Stop.outcome, Outcome.path?] at h
  | interrupted tool reason | failed tool e | notAnObject tool found =>
    simpa [Course.outcome, Course.path, hs, Stop.outcome, Stop.states, Outcome.path?,
      State.upTo_succ] using h

theorem Course.last_of_panicked {payload : Payload} {w : World} {q : Panic} :
    let k := Course.of p o drift payload w tools
    k.outcome p o payload = .panicked q →
    ∃ i occasion, (k.invocations payload).getLast? = some i ∧ i.step = k.passed.length ∧
      k.stop = .panicked i.tool q ∧ (p.call i.tool occasion i.input).ending = .panicked q := by
  intro k hq
  rw [Course.outcome] at hq
  cases hs : k.stop with
  | panicked tool q' =>
    rw [hs] at hq
    obtain rfl := Outcome.panicked.inj hq
    obtain ⟨occasion, hc⟩ := Course.call_of_panicked hs
    refine ⟨⟨k.passed.length, tool, handedOn payload k.passed⟩, occasion, ?_, rfl, rfl, hc⟩
    simp [Course.invocations, hs, Stop.called?]
  | finished | interrupted | failed | notAnObject =>
    rw [hs] at hq
    cases hq

theorem Course.countP_path (k : Course) :
    ((State.moves k.path).countP fun m => m.2.isTerminal) =
      (k.stop.states k.passed.length).countP State.isTerminal := by
  have hn : ((List.range k.passed.length).map State.executing).countP State.isTerminal = 0 := by
    simp [List.countP_map, List.countP_eq_zero, State.isTerminal]
  rw [Course.path, State.upTo, List.cons_append, State.countP_moves, List.countP_append, hn,
    Nat.zero_add]

theorem Course.keepsLifecycle {payload : Payload} {w : World} {ended : Ended} (hne : tools ≠ [])
    (hlen : Indexable tools)
    (ho : ended.outcome = (Course.of p o drift payload w tools).outcome p o payload)
    (hi : ended.trace.invocations = (Course.of p o drift payload w tools).invocations payload)
    (ht : ended.trace.transitions =
      State.moves (Course.of p o drift payload w tools).path) :
    ended.KeepsLifecycle (some p) tools := by
  let k := Course.of p o drift payload w tools
  have hle : k.passed.length ≤ tools.length := Course.passed_length_le 0 payload w
  have hpassed : k.stop = .finished → k.passed ≠ [] := by
    intro hs hn
    have hf := (Course.from_tools p o drift 0 payload w tools).2 hs
    rw [show (Course.from p o drift 0 payload w tools).passed = [] from hn] at hf
    exact hne hf.symm
  refine ⟨fun states hp => ?_, fun q hq => ?_, fun m hm => ?_, fun i m n hm hn => ?_, ?_⟩
  · rw [ht, Course.path_eq (ho ▸ hp)]
  · rw [ho] at hq
    obtain ⟨i, occasion, hlast, hstep, hs, hc⟩ := Course.last_of_panicked hq
    refine ⟨p, i, occasion, rfl, hi ▸ hlast, hc, ?_⟩
    rw [ht, Course.path, hs, hstep, State.upTo_succ]
    rfl
  · exact Course.path_legal (Nat.le_trans hle hlen) hpassed (ht ▸ hm)
  · exact State.moves_linked (ht ▸ hm) (ht ▸ hn)
  · rw [ht, Course.countP_path, ho]
    cases hs : k.stop <;>
      simp [Course.outcome, k, hs, Stop.outcome, Stop.states, Outcome.path?, State.isTerminal]

end

theorem Ended.KeepsLifecycle.of_rejected {ended : Ended} {error : ValidationError}
    (ho : ended.outcome = .error (.invalid error))
    (ht : ended.trace.transitions = [(.validating, .rejected)]) (plugin : Option Plugin)
    (tools : List String) : ended.KeepsLifecycle plugin tools where
  path states hs := by
    rw [ho, Outcome.path?, Option.some.injEq] at hs
    rw [ht, ← hs]
    rfl
  broken q hq := by simp [ho] at hq
  legal m hm := by
    rw [ht, List.mem_singleton] at hm
    rw [hm]
    rfl
  linked i m n _ hn := by simp [ht] at hn
  closed := by simp [ht, ho, Outcome.path?, State.isTerminal]

theorem Engine.reject_keepsLifecycle (payload : Payload) (offered : Nat) (error : ValidationError)
    (tools : List String) :
    (Engine.reject (.start payload offered) error).KeepsLifecycle none tools := by
  rw [reject_start]
  exact .of_rejected rfl rfl none tools

/-- Every run keeps the lifecycle, executed as a whole, run by an engine, or taken step by step
while tokens are cancelled and time goes by in between. -/
theorem runs_keep_lifecycle :
    (∀ (c : RunContext) (tools : List String) (payload : Payload) (offered : Nat) (w : World),
      Indexable tools →
      (Run.execute c tools (.start payload offered) w).1.KeepsLifecycle (some c.plugin) tools) ∧
    (∀ (e : Engine) (request : Request) (o : Options) (runId : String) (offered : Nat) (w : World),
      Indexable request.tools →
      (e.run runId request o offered w).1.KeepsLifecycle
        (validate e.registry request.pluginId request.tools).toOption request.tools) ∧
    (∀ (e : Engine) (j : Job) (found : Nat → Nat × World), Indexable j.request.tools →
      ∃ ended, (∀ n, 2 * j.request.tools.length + 2 ≤ n →
        Progress.after e j found n = .over ended) ∧
      ended.KeepsLifecycle (validate e.registry j.request.pluginId j.request.tools).toOption
        j.request.tools) := by
  refine ⟨?_, ?_, ?_⟩
  · intro c tools payload offered w hlen
    by_cases hne : tools = []
    · have he : Run.execute c tools (.start payload offered) w =
          (⟨.error (.invalid .emptyToolList), .rejected, offered,
            [.moved .validating .rejected]⟩, w) := by
        rw [Run.execute, if_pos hne]
        rfl
      rw [he]
      exact .of_rejected rfl rfl _ tools
    · have hs := Stop.ended_past c payload (offered + ·)
      rw [Run.execute_eq c payload hne hlen offered w]
      exact Course.keepsLifecycle hne hlen (hs _ _).1 (hs _ _).2
        (Stop.ended_transitions c payload _ _ _)
  · intro e request o runId offered w hlen
    cases hv : validate e.registry request.pluginId request.tools with
    | error error =>
      have he : (e.run runId request o offered w).1 =
          Engine.reject (.start request.payload offered) error := by
        simp only [Engine.run, hv]
      rw [he]
      exact Engine.reject_keepsLifecycle request.payload offered error request.tools
    | ok p =>
      have hs := Engine.run_shows hv hlen runId o offered w
      refine Course.keepsLifecycle (ne_nil_of_validate hv) hlen hs.1 hs.2 ?_
      rw [Engine.run_eq hv hlen, Engine.close_transitions]
      exact Stop.ended_transitions _ request.payload _ _ _
  · intro e j found hlen
    cases hv : validate e.registry j.request.pluginId j.request.tools with
    | error error =>
      exact ⟨_, fun n hn => Progress.over_of_invalid found hv (by omega),
        Engine.reject_keepsLifecycle j.request.payload (found 0).1 error j.request.tools⟩
    | ok p =>
      obtain ⟨elapsed, offered, hn⟩ := Progress.over_eq_of_validate found hv hlen .initial
      have hs := Stop.ended_past (e.context j.runId p j.options) j.request.payload
        (Progress.offers found) offered
      refine ⟨_, hn, Course.keepsLifecycle (ne_nil_of_validate hv) hlen
        ((Engine.close_outcome ..).trans (hs _).1)
        ((Engine.close_invocations ..).trans (hs _).2) ?_⟩
      rw [Engine.close_transitions]
      exact Stop.ended_transitions _ j.request.payload _ _ _

def brittlePlugin : Plugin :=
  .ofTools "p" [("use", ⟨"", fun occasion payload =>
    .plain (if occasion.call = 0 then .returned payload.toValue else .panicked (.text "worn"))⟩)]

/-- A run whose second call breaks stays in the second step, and a run that meets its deadline there
moves on from it once more. -/
theorem runs_keep_lifecycle_worn :
    let e : Engine := ⟨Registry.empty.register brittlePlugin, .memory⟩
    let request : Request := ⟨"p", ["use", "use"], .empty⟩
    let j : Job := ⟨"r", request, Options.default.withDeadline 5, 0⟩
    let c := e.context j.runId brittlePlugin .default
    let found : Nat → Nat × World := fun n => (0, { World.initial with now := 2 * n })
    let executed := (Run.execute c request.tools (.start .empty 0) .initial).1
    let ran := (e.run j.runId request .default 0 .initial).1
    Indexable request.tools ∧
    executed.outcome = .panicked (.text "worn") ∧
    executed.trace.transitions = [(.validating, .executing 0), (.executing 0, .executing 1)] ∧
    ran.outcome = .panicked (.text "worn") ∧
    (ran.trace.transitions.countP fun m => m.2.isTerminal) = 0 ∧
    ∃ ended, Progress.after e j found 6 = .over ended ∧
      ended.outcome = .error (.cancelled 1 .deadline) ∧
      ended.trace.transitions =
        [(.validating, .executing 0), (.executing 0, .executing 1),
          (.executing 1, .cancelled)] := by
  intro e request j c found executed ran
  have hlen : Indexable request.tools := by decide
  obtain ⟨hexecute, hrun, hstep⟩ := runs_keep_lifecycle
  obtain ⟨_, i, _, -, hi, -, ht⟩ :=
    (hexecute c request.tools .empty 0 .initial hlen).broken (.text "worn") rfl
  have hl : executed.trace.invocations.getLast? = some ⟨1, "use", .empty⟩ := rfl
  obtain rfl : (⟨1, "use", .empty⟩ : Invocation) = i := Option.some.inj (hl.symm.trans hi)
  have hr := (hrun e request .default j.runId 0 .initial hlen).closed
  obtain ⟨ended, hn, hk⟩ := hstep e j found hlen
  have ho : ended.outcome = .error (.cancelled 1 .deadline) := by
    have hd := hn 6 (Nat.le_refl _)
    cases hd
    rfl
  exact ⟨hlen, rfl, ht, rfl, hr, ended, hn 6 (Nat.le_refl _), ho,
    hk.path _ (congrArg (Outcome.path? 2) ho)⟩

end ToolPipeline
