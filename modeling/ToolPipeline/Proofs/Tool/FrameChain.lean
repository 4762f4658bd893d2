import ToolPipeline.Proofs.Pipeline.Stepwise
import ToolPipeline.Proofs.Tool.FrameInspection

/-! Runs of the tools for an image, in any order and however often each occurs. -/

namespace ToolPipeline.FrameTools

open Json

/-- The tool at a position needs the image and does not have it. -/
def FaultyAt (payload : Payload) (tools : List String) (i : Nat) : Prop :=
  ∃ tool, tools[i]? = some tool ∧ Refuses payload (tools.take i) tool

section
variable {payload input : Payload} {tools rest : List String} {image : DecodedImage} {n : Nat}
  {o : Options} {drift : Drift}

/-- How a course from a position on comes to its end, unless it is interrupted. -/
inductive Ends (payload : Payload) (tools : List String) (image : DecodedImage) (n : Nat)
    (input : Payload) (k : Course) : Prop where
  | interrupted {tool : String} {reason : CancelReason} : k.stop = .interrupted tool reason →
    Ends payload tools image n input k
  | finished : k.stop = .finished → (∀ i, ¬ FaultyAt payload tools i) →
    Inspection payload tools image (handedOn input k.passed) → Ends payload tools image n input k
  | failed {tool m : String} : k.stop = .failed tool (.invalidInput m) →
    tools[n + k.passed.length]? = some tool → FaultyAt payload tools (n + k.passed.length) →
    (∀ i < n + k.passed.length, ¬ FaultyAt payload tools i) → Ends payload tools image n input k

end

end ToolPipeline.FrameTools
