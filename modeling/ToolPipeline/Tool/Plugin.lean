import ToolPipeline.Tool.Basic
import ToolPipeline.Log.Event

/-! Plugins are named collections of tools. -/

namespace ToolPipeline

structure ToolInfo where
  name : String
  description : String
  deriving DecidableEq, Repr

def ToolInfo.toJson (t : ToolInfo) : Json :=
  .object [("name", .string t.name), ("description", .string t.description)]

/-- Puts an entry in its place among increasing names, instead of an earlier one of that name. -/
def insertNamed {α : Type} (name : String) (a : α) : List (String × α) → List (String × α)
  | [] => [(name, a)]
  | (n, b) :: rest =>
    if name < n then (name, a) :: (n, b) :: rest
    else if name = n then (name, a) :: rest
    else (n, b) :: insertNamed name a rest

section
variable {α : Type} {name : String} {a : α} {l : List (String × α)}

theorem mem_of_mem_insertNamed {e : String × α} (h : e ∈ insertNamed name a l) :
    e = (name, a) ∨ e ∈ l := by
  induction l with
  | nil => simpa [insertNamed] using h
  | cons head rest ih =>
    obtain ⟨n, b⟩ := head
    unfold insertNamed at h
    split at h
    · exact List.mem_cons.mp h
    · split at h
      · exact (List.mem_cons.mp h).imp_right (List.mem_cons_of_mem _)
      · rcases List.mem_cons.mp h with rfl | hrest
        · exact .inr List.mem_cons_self
        · exact (ih hrest).imp_right (List.mem_cons_of_mem _)

theorem pairwise_insertNamed (h : (l.map Prod.fst).Pairwise (· < ·)) :
    ((insertNamed name a l).map Prod.fst).Pairwise (· < ·) := by
  induction l with
  | nil => simp [insertNamed]
  | cons head rest ih =>
    obtain ⟨n, b⟩ := head
    have ho := List.pairwise_cons.mp h
    unfold insertNamed
    split
    · next hlt =>
      refine List.pairwise_cons.mpr ⟨fun key hk => ?_, h⟩
      rcases List.mem_cons.mp hk with rfl | hk
      · exact hlt
      · exact String.lt_trans hlt (ho.1 key hk)
    · split
      · next he =>
        subst he
        exact h
      · next hnlt hne =>
        refine List.pairwise_cons.mpr ⟨fun key hk => ?_, ih ho.2⟩
        obtain ⟨e, he, rfl⟩ := List.mem_map.mp hk
        rcases mem_of_mem_insertNamed he with rfl | he
        · exact Json.lt_of_not_lt_of_ne hnlt hne
        · exact ho.1 e.1 (List.mem_map_of_mem he)

end

@[ext]
structure Plugin where
  id : String
  tools : List (String × Tool)
  sorted : (tools.map Prod.fst).Pairwise (· < ·)

namespace Plugin

def empty (id : String) : Plugin := ⟨id, [], List.Pairwise.nil⟩

def register (p : Plugin) (name : String) (tool : Tool) : Plugin :=
  ⟨p.id, insertNamed name tool p.tools, pairwise_insertNamed p.sorted⟩

def toolRegistered (id name : String) : Log.Event :=
  ⟨.debug, "vista_plugins::plugin", "tool registered",
    [("plugin_id", .text id), ("tool_name", .text name)]⟩

def ofTools (id : String) (tools : List (String × Tool)) : Plugin :=
  tools.foldl (fun p t => p.register t.1 t.2) (empty id)

def tool? (p : Plugin) (name : String) : Option Tool := p.tools.lookup name

def hasTool (p : Plugin) (name : String) : Bool := (p.tool? name).isSome

def catalog (p : Plugin) : List ToolInfo := p.tools.map fun t => ⟨t.1, t.2.description⟩

def call (p : Plugin) (name : String) (occasion : Occasion) (payload : Payload) : Call :=
  match p.tool? name with
  | none => .plain (.failed (.unknownTool name))
  | some tool => tool.run occasion payload

end Plugin

end ToolPipeline
