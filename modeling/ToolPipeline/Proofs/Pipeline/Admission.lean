import ToolPipeline.Proofs.Pipeline.Offers

/-! The checks of a request decide about its run: one that fails them calls no tool, and one that
passes them is not refused any more and calls no tool that its plugin lacks. -/

namespace ToolPipeline

/-- What may happen to a run whose request has passed the checks. -/
def Happening.Admitted (p : Plugin) : Happening → Prop
  | .moved _ next => next ≠ .rejected
  | .invoked i => p.hasTool i.tool
  | .rejected _ => False
  | _ => True

def Trace.Admitted (p : Plugin) (t : Trace) : Prop := ∀ h ∈ t, h.Admitted p

structure Ended.Admitted (p : Plugin) (ended : Ended) : Prop where
  trace : ended.trace.Admitted p
  outcome : ∀ error, ended.outcome ≠ .error (.invalid error)

section
variable {p : Plugin} {c : RunContext} {r : Run} {tool : String}

theorem Trace.Admitted.concat {t : Trace} {h : Happening} (ht : t.Admitted p)
    (hh : h.Admitted p) : Trace.Admitted p (t ++ [h]) := by
  intro x hx
  rcases List.mem_append.mp hx with hx | hx
  · exact ht x hx
  · exact List.mem_singleton.mp hx ▸ hh

theorem Run.moveTo_admitted (hr : r.trace.Admitted p) (next : State) (hn : next ≠ .rejected) :
    (∀ r', r.moveTo next = .ok r' → r'.trace.Admitted p) ∧
    ∀ ended, r.moveTo next = .error ended → ended.Admitted p := by
  unfold moveTo
  split
  · refine ⟨nofun, fun ended he => ?_⟩
    cases he
    exact ⟨hr, nofun⟩
  · refine ⟨fun r' he => ?_, nofun⟩
    cases he
    exact Trace.Admitted.concat (h := .moved _ next) hr hn

theorem Run.endIn_admitted (hr : r.trace.Admitted p) {next : State} {outcome : Run → Ended}
    (hn : next ≠ .rejected) (ho : ∀ r', r'.trace.Admitted p → (outcome r').Admitted p) :
    (r.endIn next outcome).Admitted p := by
  have hmove := moveTo_admitted hr next hn
  unfold endIn
  split
  · next ended he => exact hmove.2 ended he
  · next r' he => exact ho r' (hmove.1 r' he)

theorem Run.enter_admitted (hr : r.trace.Admitted p) (ht : p.hasTool tool) (w : World) :
    (∀ r', r.enter c tool w = .ok r' → r'.trace.Admitted p) ∧
    ∀ ended, r.enter c tool w = .error ended → ended.Admitted p := by
  have hmove := moveTo_admitted hr (.executing r.step) nofun
  unfold enter
  cases hm : r.moveTo (.executing r.step) with
  | error ended =>
    refine ⟨nofun, fun e he => ?_⟩
    cases he
    exact hmove.2 ended hm
  | ok s =>
    have hs := hmove.1 s hm
    simp only [bind, Except.bind]
    split
    · next reason hi =>
      refine ⟨nofun, fun e he => ?_⟩
      cases he
      refine endIn_admitted hs nofun fun r' hr' => ⟨?_, nofun⟩
      exact Trace.Admitted.concat (h := .stopped r'.step tool reason) hr' trivial
    · refine ⟨fun r' he => ?_, nofun⟩
      cases he
      exact Trace.Admitted.concat (h := .invoked ⟨s.step, tool, s.payload⟩) hs ht

theorem Run.leave_admitted (hr : r.trace.Admitted p) (tool : String) (call : Call) :
    (∀ r', r.leave c tool call = .ok r' → r'.trace.Admitted p) ∧
    ∀ ended, r.leave c tool call = .error ended → ended.Admitted p := by
  unfold leave
  split
  · refine ⟨nofun, fun ended he => ?_⟩
    cases he
    exact ⟨hr, nofun⟩
  · refine ⟨nofun, fun ended he => ?_⟩
    cases he
    refine endIn_admitted hr nofun fun r' hr' => ?_
    exact ⟨hr', nofun⟩
  · split
    · refine ⟨nofun, fun ended he => ?_⟩
      cases he
      refine endIn_admitted hr nofun fun r' hr' => ?_
      exact ⟨hr', nofun⟩
    · refine ⟨fun r' he => ?_, nofun⟩
      cases he
      exact (hr.concat (h := .finished _ tool _) trivial).concat (h := .offered _ _) trivial

theorem Run.complete_admitted (hr : r.trace.Admitted p) : r.complete.Admitted p :=
  endIn_admitted hr nofun fun _ hr' => ⟨hr', nofun⟩

theorem Run.through_admitted {tools : List String} (hr : r.trace.Admitted p)
    (ht : ∀ tool ∈ tools, p.hasTool tool) (w : World) :
    (Run.through c tools r w).1.Admitted p := by
  induction tools generalizing r w with
  | nil => exact complete_admitted hr
  | cons tool rest ih =>
    obtain ⟨htool, hrest⟩ := List.forall_mem_cons.mp ht
    have henter := enter_admitted (c := c) hr htool w
    unfold through
    split
    · next ended he => exact henter.2 ended he
    · next s he =>
      have hleave := leave_admitted (c := c) (henter.1 s he) tool (s.call c tool w)
      dsimp only
      split
      · next ended hl => exact hleave.2 ended hl
      · next r' hl => exact ih (hleave.1 r' hl) hrest _

theorem Engine.close_admitted {ended : Ended} (h : ended.Admitted p) (elapsed : Nat) :
    (close elapsed ended).Admitted p := by
  unfold close
  split
  · next result ho =>
    exact ⟨h.trace.concat (h := .completed result.steps.length elapsed) trivial, h.outcome⟩
  · next error ho => exact ⟨h.trace.concat (h := .failed error elapsed) trivial, h.outcome⟩
  · exact h

end

/-- What has happened by now agrees with the checks of the request: no tool is called and nothing is
recorded if they fail; if they pass, every call reaches a tool and the run is never rejected. -/
structure Trace.Gated (t : Trace) (registry : Registry) (request : Request) : Prop where
  barred : ∀ error, validate registry request.pluginId request.tools = .error error →
    t.invocations = [] ∧ t.offers = []
  dispatched : ∀ p, validate registry request.pluginId request.tools = .ok p →
    ∀ i ∈ t.invocations, ∃ tool, p.tool? i.tool = some tool ∧
      ∀ occasion, p.call i.tool occasion i.input = tool.run occasion i.input
  unrejected : ∀ p, validate registry request.pluginId request.tools = .ok p →
    ∀ m ∈ t.transitions, m.2 ≠ .rejected

/-- A run is refused with an error exactly if the checks of its request give this error. -/
structure Ended.Gated (ended : Ended) (registry : Registry) (request : Request) : Prop where
  trace : ended.trace.Gated registry request
  invalid_iff : ∀ error, ended.outcome = .error (.invalid error) ↔
    validate registry request.pluginId request.tools = .error error

section
variable {registry : Registry} {request : Request} {p : Plugin} {error : ValidationError}

theorem Trace.Gated.of_admitted {t : Trace}
    (hv : validate registry request.pluginId request.tools = .ok p) (ht : t.Admitted p) :
    t.Gated registry request where
  barred error he := by simp [hv] at he
  dispatched q hq i hi := by
    obtain rfl : p = q := Except.ok.inj (hv.symm.trans hq)
    obtain ⟨h, hh, hi⟩ := List.mem_filterMap.mp hi
    cases h with
    | invoked j =>
      obtain rfl := Option.some.inj hi
      obtain ⟨tool, htool⟩ := Option.isSome_iff_exists.mp (ht _ hh)
      exact ⟨tool, htool, fun occasion => by simp [Plugin.call, htool]⟩
    | moved | finished | offered | stopped | rejected | completed | failed => cases hi
  unrejected q hq m hm := by
    obtain ⟨h, hh, hm⟩ := List.mem_filterMap.mp hm
    cases h with
    | moved current next =>
      obtain rfl := Option.some.inj hm
      exact ht _ hh
    | invoked | finished | offered | stopped | rejected | completed | failed => cases hm

theorem Ended.Gated.of_admitted {ended : Ended}
    (hv : validate registry request.pluginId request.tools = .ok p) (h : ended.Admitted p) :
    ended.Gated registry request where
  trace := .of_admitted hv h.trace
  invalid_iff error := by simp [hv, h.outcome error]

theorem Engine.reject_gated
    (hv : validate registry request.pluginId request.tools = .error error) (payload : Payload)
    (offered : Nat) :
    (reject (.start payload offered) error).Gated registry request := by
  rw [reject_start]
  refine ⟨⟨fun _ _ => ⟨rfl, rfl⟩, fun p hp => ?_, fun p hp => ?_⟩, fun error' => ?_⟩
  · simp [hv] at hp
  · simp [hv] at hp
  · simp [hv]

theorem Engine.run_gated (e : Engine) (runId : String) (request : Request) (o : Options)
    (offered : Nat) (w : World) :
    (e.run runId request o offered w).1.Gated e.registry request := by
  cases hv : validate e.registry request.pluginId request.tools with
  | error error =>
    rw [run_of_invalid hv]
    exact reject_gated hv request.payload offered
  | ok p =>
    refine .of_admitted hv ?_
    have hstart : Trace.Admitted p (Run.start request.payload offered).trace := by
      simp [Run.start, Trace.Admitted]
    have hthrough := Run.through_admitted (c := e.context runId p o) hstart
      (hasTool_of_validate hv) w
    simp only [run, hv, Run.execute, ne_nil_of_validate hv, if_false]
    exact close_admitted hthrough _

end

def Progress.Gated (e : Engine) (j : Job) : Progress → Prop
  | .fresh => True
  | .between p rest r =>
    validate e.registry j.request.pluginId j.request.tools = .ok p ∧
      (∀ tool ∈ rest, p.hasTool tool) ∧ r.trace.Admitted p
  | .inside p _ rest r _ =>
    validate e.registry j.request.pluginId j.request.tools = .ok p ∧
      (∀ tool ∈ rest, p.hasTool tool) ∧ r.trace.Admitted p
  | .over ended => ended.Gated e.registry j.request

namespace Progress

variable {e : Engine} {j : Job} {offered : Nat} {v w : World} {p q : Progress}

theorem Gated.trace (h : p.Gated e j) : p.trace.Gated e.registry j.request := by
  cases p with
  | fresh => exact ⟨fun _ _ => ⟨rfl, rfl⟩, nofun, nofun⟩
  | between plugin rest r => exact .of_admitted h.1 h.2.2
  | inside plugin tool rest r call => exact .of_admitted h.1 h.2.2
  | «over» ended => exact Ended.Gated.trace h

theorem Gated.step (h : p.Gated e j) (hs : p.step? e j offered w = some (q, v)) :
    q.Gated e j := by
  cases p with
  | «over» ended => cases hs
  | fresh =>
    obtain ⟨rfl, rfl⟩ := Prod.mk.inj (Option.some.inj hs)
    unfold begin
    dsimp only
    split
    · next error hv => exact Engine.reject_gated hv j.request.payload offered
    · next plugin hv =>
      exact ⟨hv, hasTool_of_validate hv, by simp [Run.start, Trace.Admitted]⟩
  | between plugin rest r =>
    obtain ⟨rfl, rfl⟩ := Prod.mk.inj (Option.some.inj hs)
    obtain ⟨hv, ht, hr⟩ := h
    cases rest with
    | nil => exact .of_admitted hv (Engine.close_admitted (Run.complete_admitted hr) _)
    | cons tool rest =>
      obtain ⟨htool, hrest⟩ := List.forall_mem_cons.mp ht
      have henter := Run.enter_admitted (c := e.context j.runId plugin j.options) hr htool w
      unfold enter
      dsimp only
      split
      · next ended he => exact .of_admitted hv (Engine.close_admitted (henter.2 ended he) _)
      · next r' he => exact ⟨hv, hrest, henter.1 r' he⟩
  | inside plugin tool rest r call =>
    obtain ⟨rfl, rfl⟩ := Prod.mk.inj (Option.some.inj hs)
    obtain ⟨hv, hrest, hr⟩ := h
    have hleave := Run.leave_admitted (c := e.context j.runId plugin j.options)
      (r := { r with offered }) hr tool call
    unfold leave
    split
    · next ended he => exact .of_admitted hv (Engine.close_admitted (hleave.2 ended he) _)
    · next r' he => exact ⟨hv, hrest, hleave.1 r' he⟩

theorem gated_after (e : Engine) (j : Job) (found : Nat → Nat × World) (n : Nat) :
    (after e j found n).Gated e j := by
  induction n with
  | zero => trivial
  | succ n ih =>
    unfold after
    split
    · next next v hs => exact ih.step hs
    · exact ih

end Progress

end ToolPipeline
