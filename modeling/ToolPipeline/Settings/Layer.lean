import ToolPipeline.Settings.Datum

/-! Layers of settings. A later layer goes over an earlier one key by key, and the parts of the
merged value keep the number of their layer. -/

namespace ToolPipeline

/-- Where a layer of settings comes from; a file under the path that messages show. -/
inductive Origin where
  | defaults
  | file (path : String)
  | environment
  deriving DecidableEq, Repr

structure Layer where
  origin : Origin
  members : List (String × Datum)

namespace Layer

def settled (layer : Layer) (number : Nat) : List (String × Datum) :=
  layer.members.map fun m => (m.1, m.2.settled number)

/-- All layers in one, the later ones over the earlier ones; they are numbered from one. -/
def merge (layers : List Layer) : Datum :=
  .dict ((layers.zipIdx 1).foldl
    (fun below (layer, number) => Datum.overlayMembers below (layer.settled number)) []) 0

def origin? (layers : List Layer) (mark : Nat) : Option Origin :=
  if mark = 0 then none else (layers[mark - 1]?).map Layer.origin

end Layer

end ToolPipeline
