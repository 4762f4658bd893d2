import ToolPipeline.Proofs.EnteredEntries
import ToolPipeline.Proofs.Pipeline.AuditTrail

/-! Plugins and tools that are registered one after the other. Whatever was registered before, the
last one under a name counts, and all that a registry shows of its plugins agrees. -/

namespace ToolPipeline

/-- What a plugin shows of its tools and what it makes of a call, told by the tools that were
registered. -/
structure Plugin.Shows (p : Plugin) (tools : List (String × Tool)) : Prop where
  sorted : (p.catalog.map ToolInfo.name).Pairwise (· < ·)
  listed : ∀ info, info ∈ p.catalog ↔
    ∃ tool, lastUnder? tools info.name = some tool ∧ info.description = tool.description
  named : ∀ name, name ∈ p.catalog.map ToolInfo.name ↔ name ∈ tools.map Prod.fst
  has_iff_listed : ∀ name, p.hasTool name ↔ name ∈ p.catalog.map ToolInfo.name
  has_iff_dispatched : ∀ name, p.hasTool name ↔ ∃ tool, lastUnder? tools name = some tool ∧
    ∀ occasion payload, p.call name occasion payload = tool.run occasion payload
  refused : ∀ name, ¬ p.hasTool name → ∀ occasion payload,
    p.call name occasion payload = .plain (.failed (.unknownTool name))

section
variable (id : String) (tools : List (String × Tool))

theorem Plugin.ofTools_eq : ofTools id tools = ⟨id, entered tools, pairwise_entered tools⟩ := by
  induction tools using List.reverseRecOn with
  | nil => rfl
  | append_singleton tools t ih =>
    obtain ⟨name, tool⟩ := t
    rw [ofTools] at ih
    rw [ofTools, List.foldl_append, ih]
    exact Plugin.ext rfl (entered_append tools name tool).symm

theorem Plugin.tool?_ofTools (name : String) :
    (ofTools id tools).tool? name = lastUnder? tools name := by
  rw [ofTools_eq]
  exact lookup_entered tools name

theorem Plugin.names_ofTools :
    (ofTools id tools).catalog.map ToolInfo.name = (entered tools).map Prod.fst := by
  rw [ofTools_eq, catalog, List.map_map]
  rfl

theorem Plugin.hasTool_ofTools (name : String) :
    (ofTools id tools).hasTool name ↔ name ∈ tools.map Prod.fst := by
  rw [hasTool, tool?_ofTools, isSome_lastUnder?]

theorem Plugin.ofTools_shows : (ofTools id tools).Shows tools where
  sorted := by
    rw [names_ofTools]
    exact pairwise_entered tools
  listed info := by
    rw [ofTools_eq, catalog, List.mem_map]
    constructor
    · rintro ⟨⟨name, tool⟩, ht, rfl⟩
      exact ⟨tool, mem_entered.mp ht, rfl⟩
    · rintro ⟨tool, ht, hd⟩
      refine ⟨(info.name, tool), mem_entered.mpr ht, ?_⟩
      rw [← hd]
  named name := by rw [names_ofTools, mem_names_entered]
  has_iff_listed name := by rw [hasTool_ofTools, names_ofTools, mem_names_entered]
  has_iff_dispatched name := by
    have hcall (tool : Tool) (ht : lastUnder? tools name = some tool) (occasion : Occasion)
        (payload : Payload) : (ofTools id tools).call name occasion payload =
          tool.run occasion payload := by
      rw [call, tool?_ofTools, ht]
    rw [hasTool, tool?_ofTools, Option.isSome_iff_exists]
    exact exists_congr fun tool => ⟨fun ht => ⟨ht, hcall tool ht⟩, fun ht => ht.1⟩
  refused name hno occasion payload := by
    have hnone : (ofTools id tools).tool? name = none := by
      simpa [hasTool] using hno
    rw [call, hnone]

end

/-- Plugins in the order in which they are registered: their ids, and their tools in the order of
their own registration. -/
abbrev Registrations := List (String × List (String × Tool))

def Registrations.registry (rs : Registrations) : Registry :=
  .ofPlugins (rs.map fun r => .ofTools r.1 r.2)

/-- Which plugin is found under an id, which ids and tools are listed, and which requests for one
tool pass the checks, told by the registrations. -/
structure Registry.Shows (r : Registry) (rs : Registrations) : Prop where
  found : ∀ id, r.lookup id = (lastUnder? rs id).map (Plugin.ofTools id)
  found_id : ∀ id p, r.lookup id = some p → p.id = id
  found_tools : ∀ id p tools, r.lookup id = some p → lastUnder? rs id = some tools → p.Shows tools
  sorted : r.ids.Pairwise (· < ·)
  named : ∀ id, id ∈ r.ids ↔ id ∈ rs.map Prod.fst
  catalog : r.catalog = r.ids.filterMap fun id => (r.lookup id).map fun p => (p.id, p.catalog)
  catalog_ids : r.catalog.map Prod.fst = r.ids
  listed_iff_valid : ∀ id, id ≠ "" → ∀ name,
    (∃ infos, (id, infos) ∈ r.catalog ∧ name ∈ infos.map ToolInfo.name) ↔
      ∃ p, validate r id [name] = .ok p

section
variable {r : Registry} {id name : String}

theorem Registry.catalog_ids (r : Registry) : r.catalog.map Prod.fst = r.ids := by
  rw [catalog, List.map_map]
  rfl

theorem Registry.catalog_eq (r : Registry) :
    r.catalog = r.ids.filterMap fun id => (r.lookup id).map fun p => (p.id, p.catalog) := by
  rw [ids, List.filterMap_map, catalog, ← List.filterMap_eq_map]
  refine List.filterMap_congr fun e he => ?_
  obtain ⟨id, p⟩ := e
  have hl : r.lookup id = some p := (mem_iff_lookup r.sorted).mp he
  simp [hl, id_of_lookup hl]

theorem Registry.mem_catalog {infos : List ToolInfo} :
    (id, infos) ∈ r.catalog ↔ ∃ p, r.lookup id = some p ∧ p.catalog = infos := by
  rw [catalog, List.mem_map]
  constructor
  · rintro ⟨⟨key, p⟩, hm, he⟩
    cases he
    exact ⟨p, (mem_iff_lookup r.sorted).mp hm, rfl⟩
  · rintro ⟨p, hl, rfl⟩
    exact ⟨(id, p), (mem_iff_lookup r.sorted).mpr hl, rfl⟩

theorem validate_singleton_iff (hid : id ≠ "") :
    (∃ p, validate r id [name] = .ok p) ↔ ∃ p, r.lookup id = some p ∧ p.hasTool name := by
  refine exists_congr fun p => ⟨fun h => ?_, fun h => ?_⟩
  · exact ⟨lookup_of_validate h, hasTool_of_validate h name List.mem_cons_self⟩
  · exact validate_eq_ok hid h.1 (List.cons_ne_nil _ _) fun tool ht => by
      rw [List.mem_singleton.mp ht]
      exact h.2

end

section
variable (rs : Registrations)

theorem Registrations.plugins_registry :
    rs.registry.plugins = entered (rs.map fun r => (r.1, Plugin.ofTools r.1 r.2)) := by
  induction rs using List.reverseRecOn with
  | nil => rfl
  | append_singleton rs r ih =>
    obtain ⟨id, tools⟩ := r
    rw [registry, Registry.ofPlugins] at ih ⊢
    simp only [List.map_append, List.map_singleton, List.foldl_append, entered_append, ← ih]
    rw [Plugin.ofTools_eq]
    rfl

theorem lastUnder?_map {α β : Type} (f : String → α → β) (entries : List (String × α))
    (key : String) :
    lastUnder? (entries.map fun e => (e.1, f e.1 e.2)) key =
      (lastUnder? entries key).map (f key) := by
  induction entries using List.reverseRecOn with
  | nil => rfl
  | append_singleton entries e ih =>
    obtain ⟨name, a⟩ := e
    rw [List.map_append, List.map_singleton, lastUnder?_append, lastUnder?_append, ih]
    by_cases h : key = name <;> simp [h]

theorem Registrations.lookup_registry (id : String) :
    rs.registry.lookup id = (lastUnder? rs id).map (Plugin.ofTools id) := by
  rw [Registry.lookup, plugins_registry, lookup_entered]
  exact lastUnder?_map Plugin.ofTools rs id

theorem Registrations.registry_shows : rs.registry.Shows rs where
  found := rs.lookup_registry
  found_id _ _ := Registry.id_of_lookup
  found_tools id p tools hp ht := by
    rw [lookup_registry, ht, Option.map_some, Option.some.injEq] at hp
    rw [← hp]
    exact Plugin.ofTools_shows id tools
  sorted := rs.registry.sorted
  named id := by
    rw [Registry.ids, plugins_registry, mem_names_entered, List.map_map]
    rfl
  catalog := rs.registry.catalog_eq
  catalog_ids := rs.registry.catalog_ids
  listed_iff_valid id hid name := by
    have hhas (p : Plugin) (hp : rs.registry.lookup id = some p) :
        p.hasTool name ↔ name ∈ p.catalog.map ToolInfo.name := by
      rw [lookup_registry, Option.map_eq_some_iff] at hp
      obtain ⟨tools, -, rfl⟩ := hp
      exact (Plugin.ofTools_shows id tools).has_iff_listed name
    rw [validate_singleton_iff hid]
    constructor
    · rintro ⟨infos, hm, hn⟩
      obtain ⟨p, hp, rfl⟩ := Registry.mem_catalog.mp hm
      exact ⟨p, hp, (hhas p hp).mpr hn⟩
    · rintro ⟨p, hp, ht⟩
      exact ⟨p.catalog, Registry.mem_catalog.mpr ⟨p, hp, rfl⟩,
        (hhas p hp).mp ht⟩

end

theorem Plugin.ofTools_perm (id : String) {tools tools' : List (String × Tool)}
    (hn : (tools.map Prod.fst).Nodup) (h : tools.Perm tools') :
    ofTools id tools' = ofTools id tools := by
  rw [ofTools_eq, ofTools_eq]
  exact Plugin.ext rfl (entered_perm hn h)

theorem Registrations.registry_perm {rs rs' : Registrations} (hn : (rs.map Prod.fst).Nodup)
    (h : rs.Perm rs') : Registrations.registry rs' = Registrations.registry rs := by
  have hnames : ((rs.map fun r => (r.1, Plugin.ofTools r.1 r.2)).map Prod.fst).Nodup := by
    rw [List.map_map]
    exact hn
  refine Registry.ext ?_
  rw [plugins_registry, plugins_registry, entered_perm hnames (h.map _)]

/-- Whatever is registered in whatever order, lookup, ids, catalog, checks and calls tell the same
of the plugins and their tools: the last one under each name. Where no name is registered twice, the
order makes no difference. -/
theorem registered_views_agree :
    (∀ rs : Registrations, rs.registry.Shows rs) ∧
    (∀ id tools, (Plugin.ofTools id tools).Shows tools) ∧
    (∀ rs rs' : Registrations, (rs.map Prod.fst).Nodup → rs.Perm rs' →
      rs'.registry = rs.registry) ∧
    ∀ id (tools tools' : List (String × Tool)), (tools.map Prod.fst).Nodup → tools.Perm tools' →
      Plugin.ofTools id tools' = Plugin.ofTools id tools := by
  refine ⟨Registrations.registry_shows, Plugin.ofTools_shows, ?_, ?_⟩
  · intro rs rs' hn h
    exact Registrations.registry_perm hn h
  · intro id tools tools' hn h
    exact Plugin.ofTools_perm id hn h

def echoTool : Tool := .pure "echo" .ok

def failingTool : Tool := .pure "fail" fun _ => .error (.failed "no")

/-- Two plugins under one id, the later one with two tools under one name. -/
def replacements : Registrations :=
  [("p", [("old", echoTool)]), ("a", []), ("p", [("t", failingTool), ("t", echoTool)])]

/-- The later one counts. -/
theorem registered_views_agree_replaced :
    let r := replacements.registry
    let distinct : Registrations := [("p", [("t", echoTool), ("s", failingTool)]), ("a", [])]
    r.lookup "p" = some ⟨"p", [("t", echoTool)], List.pairwise_singleton _ _⟩ ∧
    r.ids = ["a", "p"] ∧
    r.catalog = [("a", []), ("p", [⟨"t", "echo"⟩])] ∧
    "p" ≠ "" ∧ (∃ p, validate r "p" ["t"] = .ok p) ∧ (∀ p, validate r "p" ["old"] ≠ .ok p) ∧
    (distinct.map Prod.fst).Nodup ∧ distinct.Perm distinct.reverse ∧
    Registrations.registry distinct.reverse = distinct.registry ∧
    Plugin.ofTools "p" [("s", failingTool), ("t", echoTool)] =
      .ofTools "p" [("t", echoTool), ("s", failingTool)] := by
  intro r distinct
  obtain ⟨hshows, -, hplugins, htools⟩ := registered_views_agree
  have hn : (distinct.map Prod.fst).Nodup := by decide
  have hperm : distinct.Perm distinct.reverse := (List.reverse_perm distinct).symm
  have hvalid := (hshows replacements).listed_iff_valid "p" (by decide)
  refine ⟨(hshows replacements).found "p", rfl, rfl, by decide, (hvalid "t").mp ?_, fun p hp => ?_,
    hn, hperm, hplugins distinct distinct.reverse hn hperm,
    htools "p" _ _ (by decide) (.swap _ _ _)⟩
  · exact ⟨[⟨"t", "echo"⟩], List.mem_cons_of_mem _ List.mem_cons_self, List.mem_cons_self⟩
  · cases hp

end ToolPipeline
