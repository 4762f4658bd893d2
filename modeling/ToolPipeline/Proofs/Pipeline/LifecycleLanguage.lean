import Mathlib.Data.List.Induction
import ToolPipeline.Proofs.Pipeline.Lifecycle

/-! The states that may be offered to a run one after the other. Whatever is offered, in whatever
order, what is taken is the beginning of one of the lives of a run, and every such beginning is
taken. -/

namespace ToolPipeline

namespace State

inductive Edge : State → State → Prop
  | reject : Edge .validating .rejected
  | begin : Edge .validating (.executing 0)
  | next (k : Nat) : Edge (.executing k) (.executing (k + 1))
  | complete (k : Nat) : Edge (.executing k) .completed
  | fail (k : Nat) : Edge (.executing k) .failed
  | cancel (k : Nat) : Edge (.executing k) .cancelled

/-- The step of the state is the index of a list that is held in memory. -/
def Indexed : State → Prop
  | .executing k => k ≤ lastIndex
  | _ => True

section
variable {s t : State}

theorem Edge.canFollow (h : s.Edge t) (hi : t.Indexed) : s.canFollow t = .ok true := by
  cases h with
  | next k =>
    have hk : k < lastIndex := hi
    simp [State.canFollow, hk]
  | reject | begin | complete | fail | cancel => rfl

theorem Edge.advance (h : s.Edge t) (hi : t.Indexed) : s.advance t = .ok t := by
  simp [State.advance, h.canFollow hi, bind, Except.bind, pure, Except.pure]

end

/-- A run that has gone through these states has begun a life, and has come to the last one. -/
inductive Begun : List State → State → Prop
  | running (n : Nat) : Begun ((List.range n).map .executing) (.before n)
  | rejected : Begun [.rejected] .rejected
  | ended (n : Nat) (last : State) (h : last = .completed ∨ last = .failed ∨ last = .cancelled) :
    Begun ((List.range (n + 1)).map .executing ++ [last]) last

section
variable {path : List State} {s t : State}

theorem Begun.exists_init (h : Begun path s) : ∃ init, .validating :: path = init ++ [s] := by
  cases h with
  | running n => exact exists_upTo_eq n
  | rejected => exact ⟨[.validating], rfl⟩
  | ended n last h => exact ⟨upTo (n + 1), rfl⟩

theorem Begun.unique (h : Begun path s) (h' : Begun path t) : s = t := by
  obtain ⟨init, hi⟩ := h.exists_init
  obtain ⟨init', hi'⟩ := h'.exists_init
  have he := List.append_inj_right' (hi.symm.trans hi') rfl
  exact List.singleton_inj.mp he

theorem Begun.concat (h : Begun path s) (he : s.Edge t) : Begun (path ++ [t]) t := by
  cases h with
  | running n =>
    cases n with
    | zero =>
      cases he with
      | reject => exact .rejected
      | begin => exact .running 1
    | succ n =>
      cases he with
      | next =>
        have hr := Begun.running (n + 2)
        rw [List.range_succ, List.map_append] at hr
        exact hr
      | complete => exact .ended n .completed (.inl rfl)
      | fail => exact .ended n .failed (.inr (.inl rfl))
      | cancel => exact .ended n .cancelled (.inr (.inr rfl))
  | rejected => cases he
  | ended n last h => rcases h with rfl | rfl | rfl <;> cases he

end

end State

/-- A state that is kept, and what has been logged of its changes. -/
structure Machine where
  state : State
  log : List Log.Event

namespace Machine

def fresh : Machine := ⟨.validating, []⟩

/-- A change is checked first, then logged, then made. What the machine has done before it breaks
down stays done. -/
def advance (next : State) : EStateM Panic Machine Unit := do
  let m ← get
  let state ← MonadExcept.ofExcept (m.state.advance next)
  modify fun m => { m with log := m.log ++ [State.moved m.state next] }
  modify fun m => { m with state }

section
variable {m : Machine} {x : Machine × List State} {offers : List State} {next : State}

end

end Machine

end ToolPipeline
