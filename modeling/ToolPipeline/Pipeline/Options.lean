import ToolPipeline.Pipeline.Error

/-! The world around a run, and what may interrupt the run: a token that is cancelled, or a moment
that has come. -/

namespace ToolPipeline

/-- The time in milliseconds, the tokens that have been cancelled, those that will be cancelled at
a time to come, and how many tools have been called. `clock` is the time as the wall clock shows
it. -/
structure World where
  now : Nat
  fired : List Token
  due : List (Nat × Token)
  calls : Nat
  clock : Nat → String

namespace World

def initial : World := ⟨0, [], [], 0, fun _ => ""⟩

def cancelled (w : World) : List Token :=
  w.fired ++ (w.due.filter fun d => d.1 ≤ w.now).map Prod.snd

/-- Whether a world may have become another one: time has passed, and what was cancelled still
is. -/
def Before (w v : World) : Prop :=
  w.now ≤ v.now ∧ ∀ t, Token.isCancelled w.cancelled t → Token.isCancelled v.cancelled t

def occasion (w : World) : Occasion := ⟨w.now, w.clock w.now, w.calls⟩

def after (w : World) (call : Call) : World :=
  { w with now := w.now + call.took, fired := call.cancels ++ w.fired, calls := w.calls + 1 }

end World

structure Options where
  cancel : Option Token
  deadline : Option Nat
  discardSteps : Bool

namespace Options

def default : Options := ⟨none, none, false⟩

def withCancel (o : Options) (t : Token) : Options := { o with cancel := some t }

def withDeadline (o : Options) (moment : Nat) : Options := { o with deadline := some moment }

/-- A deadline that many milliseconds from now; no timeout leaves the options as they are. -/
def withTimeout (o : Options) (now : Nat) : Option Nat → Options
  | some ms => o.withDeadline (now + ms)
  | none => o

def withoutSteps (o : Options) : Options := { o with discardSteps := true }

/-- Why a run has to stop now. A cancelled token goes before a deadline, which has come once the
time is no earlier. -/
def interruption (o : Options) (w : World) : Option CancelReason :=
  if o.cancel.any (Token.isCancelled w.cancelled) then some .signal
  else if o.deadline.any (· ≤ w.now) then some .deadline
  else none

end Options

end ToolPipeline
