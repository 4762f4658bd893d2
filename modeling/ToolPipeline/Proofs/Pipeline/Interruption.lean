import ToolPipeline.Proofs.Pipeline.Steady
import ToolPipeline.Proofs.Pipeline.Stepwise

/-! What interrupts a run that is taken step by step. Whatever is cancelled stays cancelled, and a
tool is only entered while nothing interrupts the run. -/

namespace ToolPipeline

namespace Token

variable {fired : List Token} {s t : Token}

theorem isCancelled_iff : isCancelled fired t = true ↔ ∃ f ∈ fired, f <:+ t := by
  simp [isCancelled]

theorem isCancelled_of_suffix (h : isCancelled fired s) (hs : s <:+ t) : isCancelled fired t := by
  obtain ⟨f, hf, hfs⟩ := isCancelled_iff.mp h
  exact isCancelled_iff.mpr ⟨f, hf, hfs.trans hs⟩

theorem isCancelled_child (h : isCancelled fired t) (n : Nat) : isCancelled fired (t.child n) :=
  isCancelled_of_suffix h (List.suffix_cons n t)

theorem isCancelled_mono {more : List Token} (hm : ∀ f ∈ fired, f ∈ more)
    (h : isCancelled fired t) : isCancelled more t := by
  obtain ⟨f, hf, hft⟩ := isCancelled_iff.mp h
  exact isCancelled_iff.mpr ⟨f, hm f hf, hft⟩

end Token

namespace World

variable {u v w : World}

theorem mem_cancelled {f : Token} :
    f ∈ w.cancelled ↔ f ∈ w.fired ∨ ∃ moment ≤ w.now, (moment, f) ∈ w.due := by
  simp only [cancelled, List.mem_append, List.mem_map, List.mem_filter, decide_eq_true_eq]
  constructor
  · rintro (h | ⟨⟨moment, f⟩, ⟨hd, hm⟩, rfl⟩)
    · exact .inl h
    · exact .inr ⟨moment, hm, hd⟩
  · rintro (h | ⟨moment, hm, hd⟩)
    · exact .inl h
    · exact .inr ⟨⟨moment, f⟩, ⟨hd, hm⟩, rfl⟩

theorem Before.refl (w : World) : w.Before w := ⟨Nat.le_refl _, fun _ h => h⟩

theorem Before.trans (h : u.Before v) (h' : v.Before w) : u.Before w :=
  ⟨Nat.le_trans h.1 h'.1, fun t ht => h'.2 t (h.2 t ht)⟩

theorem before_of (hn : w.now ≤ v.now) (hf : ∀ f ∈ w.fired, f ∈ v.fired) (hd : v.due = w.due) :
    w.Before v := by
  refine ⟨hn, fun t ht => Token.isCancelled_mono (fun f hm => ?_) ht⟩
  rw [mem_cancelled] at hm ⊢
  rcases hm with h | ⟨moment, hm, h⟩
  · exact .inl (hf f h)
  · exact .inr ⟨moment, Nat.le_trans hm hn, hd ▸ h⟩

theorem before_after (w : World) (call : Call) : w.Before (w.after call) :=
  before_of (Nat.le_add_right _ _) (fun _ h => List.mem_append_right _ h) rfl

theorem before_fire (w : World) (t : Token) : w.Before { w with fired := t :: w.fired } :=
  before_of (Nat.le_refl _) (fun _ h => List.mem_cons_of_mem _ h) rfl

end World

namespace Options

variable {o : Options} {v w : World}

theorem interruption_eq_signal_iff : o.interruption w = some .signal ↔
    ∃ t, o.cancel = some t ∧ Token.isCancelled w.cancelled t := by
  unfold interruption
  cases o.cancel with
  | none => split <;> simp_all
  | some t => split <;> simp_all

theorem interruption_signal_of_before (hb : w.Before v) (h : o.interruption w = some .signal) :
    o.interruption v = some .signal := by
  obtain ⟨t, ht, hc⟩ := interruption_eq_signal_iff.mp h
  exact interruption_eq_signal_iff.mpr ⟨t, ht, hb.2 t hc⟩

theorem deadline_of_interruption (h : o.interruption w = some .deadline) :
    ∃ d, o.deadline = some d ∧ d ≤ w.now := by
  unfold interruption at h
  split at h
  · cases h
  · split at h
    · next hd =>
      simpa [Option.any_eq_true] using hd
    · cases h

theorem lt_deadline_of_interruption {d : Nat} (h : o.interruption w = none)
    (hd : o.deadline = some d) : w.now < d := by
  unfold interruption at h
  split at h
  · cases h
  · split at h
    · cases h
    · next hn => simpa [hd] using hn

end Options

theorem Trace.invocations_append (t u : Trace) :
    Trace.invocations (t ++ u) = t.invocations ++ u.invocations := List.filterMap_append

namespace Run

variable {c : RunContext} {r r' : Run} {ended : Ended}

theorem moveTo_invocations {next : State} :
    (∀ r', r.moveTo next = .ok r' →
      r'.trace.invocations = r.trace.invocations ∧ r'.step = r.step ∧ r'.payload = r.payload) ∧
    ∀ ended, r.moveTo next = .error ended → ended.trace.invocations = r.trace.invocations := by
  unfold moveTo
  split
  · simp [finish]
  · simp [note, Trace.invocations]

theorem endIn_invocations {next : State} {outcome : Run → Ended}
    (h : ∀ r', (outcome r').trace.invocations = r'.trace.invocations) :
    (r.endIn next outcome).trace.invocations = r.trace.invocations := by
  unfold endIn
  split
  · next ended he => exact moveTo_invocations.2 ended he
  · next r' he => rw [h, (moveTo_invocations.1 r' he).1]

theorem invocations_of_enter {tool : String} {w : World} (h : r.enter c tool w = .ok r') :
    c.options.interruption w = none ∧
      r'.trace.invocations = r.trace.invocations ++ [⟨r.step, tool, r.payload⟩] := by
  unfold enter at h
  cases hm : r.moveTo (.executing r.step) with
  | error ended => simp [hm, bind, Except.bind] at h
  | ok s =>
    obtain ⟨hs, hstep, hp⟩ := moveTo_invocations.1 s hm
    cases hi : c.options.interruption w with
    | some reason => simp [hm, hi, bind, Except.bind, throw, throwThe, MonadExceptOf.throw] at h
    | none =>
      simp only [hm, hi, bind, Except.bind, pure, Except.pure, Except.ok.injEq] at h
      rw [← h, note, Trace.invocations_append, hs, hstep, hp]
      exact ⟨rfl, rfl⟩

theorem invocations_of_enter_error {tool : String} {w : World}
    (h : r.enter c tool w = .error ended) : ended.trace.invocations = r.trace.invocations := by
  unfold enter at h
  cases hm : r.moveTo (.executing r.step) with
  | error e =>
    simp only [hm, bind, Except.bind, Except.error.injEq] at h
    rw [← h, moveTo_invocations.2 e hm]
  | ok s =>
    have hs := (moveTo_invocations.1 s hm).1
    cases hi : c.options.interruption w with
    | none => simp [hm, hi, bind, Except.bind, pure, Except.pure] at h
    | some reason =>
      simp only [hm, hi, bind, Except.bind, throw, throwThe, MonadExceptOf.throw,
        Except.error.injEq] at h
      rw [← h, endIn_invocations, hs]
      intro r'
      simp [note, finish, Trace.invocations]

theorem invocations_of_leave {tool : String} {call : Call} (h : r.leave c tool call = .ok r') :
    r'.trace.invocations = r.trace.invocations := by
  unfold leave at h
  split at h
  · cases h
  · cases h
  · split at h
    · cases h
    · simp only [pure, Except.pure, Except.ok.injEq] at h
      rw [← h]
      simp [succeed, note, Trace.invocations]

theorem invocations_of_leave_error {tool : String} {call : Call}
    (h : r.leave c tool call = .error ended) :
    ended.trace.invocations = r.trace.invocations := by
  unfold leave at h
  split at h
  · cases h
    rfl
  · cases h
    exact endIn_invocations fun _ => rfl
  · split at h
    · cases h
      exact endIn_invocations fun _ => rfl
    · cases h

end Run

namespace Progress

variable {e : Engine} {j : Job} {offered : Nat} {v w : World} {p q : Progress}

theorem before_of_step (h : p.step? e j offered w = some (q, v)) : w.Before v := by
  cases p with
  | fresh | between plugin rest r =>
    obtain ⟨-, rfl⟩ := Prod.mk.inj (Option.some.inj h)
    exact .refl w
  | inside plugin tool rest r call =>
    obtain ⟨-, rfl⟩ := Prod.mk.inj (Option.some.inj h)
    exact World.before_after w call
  | «over» ended => cases h

theorem over_or_step (e : Engine) (j : Job) (offered : Nat) (w : World) (p : Progress) :
    (∃ ended, p = .over ended) ∨ ∃ q v, p.step? e j offered w = some (q, v) := by
  cases p with
  | fresh | between plugin rest r | inside plugin tool rest r call => exact .inr ⟨_, _, rfl⟩
  | «over» ended => exact .inl ⟨ended, rfl⟩

theorem conclude_invocations (now : Nat) (ended : Ended) :
    (conclude j now ended).trace.invocations = ended.trace.invocations :=
  Engine.close_invocations _ ended

/-- A step calls at most one tool, and none when the run has to stop. -/
theorem invocations_of_step (h : p.step? e j offered w = some (q, v)) :
    q.trace.invocations = p.trace.invocations ∧ q.isInside = false ∨
      j.options.interruption w = none ∧
        ∃ i, q.trace.invocations = p.trace.invocations ++ [i] := by
  cases p with
  | «over» ended => cases h
  | fresh =>
    cases h
    refine .inl ?_
    unfold begin
    split
    · exact ⟨Run.endIn_invocations fun r => by
        simp [Run.note, Run.finish, Trace.invocations], rfl⟩
    · exact ⟨rfl, rfl⟩
  | between plugin rest r =>
    obtain ⟨rfl, -⟩ := Prod.mk.inj (Option.some.inj h)
    cases rest with
    | nil =>
      exact .inl ⟨(conclude_invocations _ _).trans (Run.endIn_invocations fun _ => rfl), rfl⟩
    | cons tool rest =>
      unfold enter
      dsimp only
      cases he : r.enter (e.context j.runId plugin j.options) tool w with
      | error ended =>
        exact .inl ⟨(conclude_invocations _ _).trans (Run.invocations_of_enter_error he), rfl⟩
      | ok r' =>
        obtain ⟨hi, ht⟩ := Run.invocations_of_enter he
        exact .inr ⟨hi, _, ht⟩
  | inside plugin tool rest r call =>
    obtain ⟨rfl, -⟩ := Prod.mk.inj (Option.some.inj h)
    refine .inl ?_
    unfold leave
    split
    · next ended he =>
      have ht := Run.invocations_of_leave_error he
      exact ⟨(conclude_invocations _ _).trans ht, rfl⟩
    · next r' he =>
      have ht := Run.invocations_of_leave he
      exact ⟨ht, rfl⟩

end Progress

theorem Course.interruption_of_stop {p : Plugin} {o : Options} {drift : Drift} {step : Nat}
    {input : Payload} {w : World} {tools : List String} {tool : String} {reason : CancelReason}
    (h : (Course.from p o drift step input w tools).stop = .interrupted tool reason) :
    ∃ n u, o.interruption (drift n u) = some reason := by
  induction tools generalizing step input w with
  | nil => simp [Course.from] at h
  | cons name rest ih =>
    cases hi : o.interruption (drift step w) with
    | some found =>
      simp only [Course.from_interrupted hi, Stop.interrupted.injEq] at h
      exact ⟨step, w, h.2 ▸ hi⟩
    | none =>
      cases hv : (p.call name (drift step w).occasion input).verdict name with
      | error stop =>
        have hs := Call.called?_of_verdict hv
        simp only [Course.from_stopped hi hv] at h
        simp [h, Stop.called?] at hs
      | ok output =>
        simp only [Course.from_passed hi hv] at h
        exact ih h

section
variable {e : Engine} {j : Job} {found : Nat → Nat × World} {n : Nat} {ended : Ended}

theorem Progress.after_congr {found' : Nat → Nat × World} (h : ∀ i < n, found i = found' i) :
    after e j found n = after e j found' n := by
  induction n with
  | zero => rfl
  | succ n ih =>
    have hh := ih fun i hi => h i (by omega)
    simp only [after, hh, h n (by omega)]

theorem Progress.ended_unique {m : Nat} {last : Ended} (hm : after e j found m = .over last)
    (hn : after e j found n = .over ended) : last = ended := by
  have hl := after_over_of_le hm (Nat.le_max_left m n)
  rw [after_over_of_le hn (Nat.le_max_right m n)] at hl
  exact (Progress.over.inj hl).symm

end

end ToolPipeline
