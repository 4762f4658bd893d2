import ToolPipeline.Tool.Frame
import ToolPipeline.Tool.Debug

/-! Plugins by their ids. -/

namespace ToolPipeline

@[ext]
structure Registry where
  plugins : List (String × Plugin)
  sorted : (plugins.map Prod.fst).Pairwise (· < ·)
  keyed : ∀ e ∈ plugins, e.2.id = e.1

namespace Registry

def empty : Registry := ⟨[], by simp, by simp⟩

/-- Adds a plugin, instead of an earlier one of its id. -/
def register (r : Registry) (p : Plugin) : Registry where
  plugins := insertNamed p.id p r.plugins
  sorted := pairwise_insertNamed r.sorted
  keyed e he := by
    rcases mem_of_mem_insertNamed he with rfl | h
    · rfl
    · exact r.keyed e h

def registered (p : Plugin) : Log.Event :=
  ⟨.debug, "vista_plugins::registry", "plugin registered",
    [("plugin_id", .text p.id), ("tools", .nat p.tools.length)]⟩

def setupEvents (id : String) (tools : List (String × Tool)) : List Log.Event :=
  tools.map (Plugin.toolRegistered id ·.1) ++ [registered (.ofTools id tools)]

def lookup (r : Registry) (id : String) : Option Plugin := r.plugins.lookup id

def ids (r : Registry) : List String := r.plugins.map Prod.fst

def catalog (r : Registry) : List (String × List ToolInfo) :=
  r.plugins.map fun p => (p.1, p.2.catalog)

def toJson (r : Registry) : Json :=
  .array (r.catalog.map fun p =>
    .object [("id", .string p.1), ("tools", .array (p.2.map ToolInfo.toJson))])

def standard (withDebug : Bool) : Registry :=
  let r := empty.register FrameTools.plugin
  if withDebug then r.register DebugTools.plugin else r

def standardEvents (withDebug : Bool) : List Log.Event :=
  setupEvents "frame" FrameTools.tools ++
    if withDebug then setupEvents "debug" DebugTools.tools else []

end Registry

end ToolPipeline
