import ToolPipeline.Proofs.Server.FrameSlots

/-! The account of a message: its replies, and the task and the reader that may still reply to it.
No action raises it above what the message calls for, and it only falls when the connection is
cancelled. -/

namespace ToolPipeline

namespace Connection

/-- Neither the connection nor one of its frames has been cancelled. -/
def Undisturbed (c : Connection) (w : World) : Prop :=
  ∀ i, Token.isCancelled w.cancelled (c.token.child i) = false

end Connection

section
variable {server : Server} {offered : Nat} {v w : World} {c d : Connection} {t u : FrameTask}
  {i free : Nat} {queue : List Outbound} {token : Token} {slots : Nat}

namespace Connection

theorem Grows.undisturbed (h : c.Grows d w v) (hd : d.Undisturbed v) : c.Undisturbed w := by
  intro i
  refine Bool.eq_false_iff.mpr fun hc => ?_
  have hv := h.world.2 (c.token.child i) hc
  rw [← h.token] at hv
  simp [hd i] at hv

end Connection

namespace Connection

end Connection

def FrameTask.isDone (t : FrameTask) : Bool :=
  match t.stage, t.worker with
  | .finished, some (.over _) => true
  | _, _ => false

namespace Connection

end Connection

end

end ToolPipeline
