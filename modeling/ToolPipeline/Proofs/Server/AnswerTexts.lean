import ToolPipeline.Proofs.Json.SpelledTrees
import ToolPipeline.Server.ApiError
import ToolPipeline.Server.Frame

/-! The texts in which results and errors are sent, over HTTP and on a socket, and what is held of
them where they arrive. -/

namespace ToolPipeline

open Json

namespace Json

def parseWithin (depth : Nat) (s : String) : Except Failure Value :=
  readWhole (readValue depth) (Piece.ofString s)

theorem parseWithin_compact {t : Json} (hn : ∀ n ∈ t.numbers, n.IsWhole) (depth : Nat) :
    (t.nesting ≤ depth → parseWithin depth t.compact = .ok (hold t)) ∧
      (depth < t.nesting → ∃ f, parseWithin depth t.compact = .error f ∧
        f.cause = .flaw .tooDeep) := by
  have h := (spelled_recovered hn (spells_chars t)).readWhole (.refl _) depth
  rwa [show (chars t).map Piece.char = Piece.ofString t.compact by
    rw [Piece.ofString, compact, String.toList_ofList]] at h

/-- A text spells an object: it is the text of a tree of which that object is held, and if all
numbers are whole, whoever reads it as deep as it nests has the object. -/
def Conveys (text : String) (o : Object) : Prop :=
  ∃ tree : Json, text = tree.compact ∧ hold tree = .object o ∧
    ((∀ n ∈ tree.numbers, n.IsWhole) → ∀ depth, tree.nesting ≤ depth →
      parseWithin depth text = .ok (.object o))

theorem conveys_compact {t : Json} {o : Object} (h : hold t = .object o) :
    Conveys t.compact o :=
  ⟨t, rfl, h, fun hn depth hd => h ▸ (parseWithin_compact hn depth).1 hd⟩

theorem hold_ofObject (o : Object) : hold (ofObject o) = .object o := hold_json (.object o)

end Json

namespace StepOutput

def held (s : StepOutput) : Object :=
  (Object.empty.insert "tool" (.string s.tool)).insert "output" (.object s.output)

theorem hold_toJson (s : StepOutput) : hold s.toJson = .object s.held := by
  have h : hold s.toJson = .object
      ((Object.empty.insert "tool" (.string s.tool)).insert "output" (hold (ofObject s.output))) :=
    rfl
  rw [h, hold_ofObject]
  rfl

end StepOutput

namespace RunResult

/-- The object of a result over HTTP: the payload, and all steps with their outputs. -/
def held (r : RunResult) : Object :=
  (Object.empty.insert "result" (.object r.result)).insert "steps"
    (.array (r.steps.map fun s => .object s.held))

theorem hold_toJson (r : RunResult) : hold r.toJson = .object r.held := by
  have h : hold r.toJson = .object
      ((Object.empty.insert "result" (hold (ofObject r.result))).insert "steps"
        (.array (holdItems (r.steps.map StepOutput.toJson)))) := rfl
  have hsteps : holdItems (r.steps.map StepOutput.toJson) =
      r.steps.map fun s => .object s.held := by
    rw [holdItems_eq, List.map_map]
    exact List.map_congr_left fun s _ => s.hold_toJson
  rw [h, hold_ofObject, hsteps]
  rfl

end RunResult

namespace ApiError

def held (e : ApiError) : Object :=
  Object.empty.insert "error"
    (.object ((Object.empty.insert "code" (.string e.code)).insert "message" (.string e.message)))

theorem parse_response (e : ApiError) : Json.parse e.response.body = .ok (.object e.held) := by
  have hn : e.body.numbers = [] := rfl
  exact (parseWithin_compact (t := e.body) (hn ▸ List.forall_mem_nil _) depthLimit).1
    (show 2 ≤ depthLimit by decide)

end ApiError

namespace Reply

def held : Reply → Object
  | .result frameId payload =>
    (Object.empty.insert "frame_id" (.string frameId)).insert "result" (.object payload)
  | .error frameId message none =>
    ((Object.empty.insert "type" (.string "error")).insert "message" (.string message)).insert
      "frame_id" (.string frameId)
  | .error frameId message (some code) =>
    (((Object.empty.insert "type" (.string "error")).insert "message" (.string message)).insert
      "frame_id" (.string frameId)).insert "code" (.string code)

theorem hold_toJson (r : Reply) : hold r.toJson = .object r.held := by
  cases r with
  | result frameId payload =>
    have h : hold (toJson (.result frameId payload)) = .object
        ((Object.empty.insert "frame_id" (.string frameId)).insert "result"
          (hold (ofObject payload))) := rfl
    rw [h, hold_ofObject]
    rfl
  | error frameId message code => cases code <;> rfl

theorem parse_error (frameId message code : String) :
    Json.parse (text (.error frameId message (some code))) =
      .ok (.object (held (.error frameId message (some code)))) := by
  have hn : (toJson (.error frameId message (some code))).numbers = [] := rfl
  exact (parseWithin_compact (hn ▸ List.forall_mem_nil _) depthLimit).1
    (show 1 ≤ depthLimit by decide)

end Reply

end ToolPipeline
