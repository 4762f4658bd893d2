import ToolPipeline.Proofs.Pipeline.CourseAgreement

/-! What the checks of a request find: nothing to object to, or the first fault. They look for
faults in a fixed order, and go through the tools from the first one on. -/

namespace ToolPipeline

/-- At this place of the list stands the first tool that the plugin lacks. -/
structure Plugin.LacksFirst (p : Plugin) (tools : List String) (tool : String) (index : Nat) :
    Prop where
  here : tools[index]? = some tool
  lacks : p.hasTool tool = false
  least : ∀ i t, tools[i]? = some t → p.hasTool t = false → index ≤ i

section
variable {p : Plugin} {tools rest : List String} {name tool : String} {index : Nat}

theorem Plugin.LacksFirst.head_iff (h : p.hasTool name = false) :
    p.LacksFirst (name :: rest) tool index ↔ name = tool ∧ index = 0 := by
  constructor
  · intro hf
    obtain rfl : index = 0 := Nat.le_zero.mp (hf.least 0 name rfl h)
    exact ⟨Option.some.inj hf.here, rfl⟩
  · rintro ⟨rfl, rfl⟩
    exact ⟨rfl, h, fun _ _ _ _ => Nat.zero_le _⟩

theorem Plugin.LacksFirst.tail_iff (h : p.hasTool name = true) :
    p.LacksFirst (name :: rest) tool index ↔ ∃ n, index = n + 1 ∧ p.LacksFirst rest tool n := by
  constructor
  · rintro ⟨here, lacks, least⟩
    cases index with
    | zero =>
      obtain rfl : name = tool := Option.some.inj here
      simp [h] at lacks
    | succ n =>
      exact ⟨n, rfl, here, lacks, fun i t hi ht => Nat.le_of_succ_le_succ (least (i + 1) t hi ht)⟩
  · rintro ⟨n, rfl, here, lacks, least⟩
    refine ⟨here, lacks, fun i t hi ht => ?_⟩
    cases i with
    | zero =>
      obtain rfl : name = t := Option.some.inj hi
      simp [h] at ht
    | succ i => exact Nat.succ_le_succ (least i t hi ht)

theorem firstUnknown_eq_some_iff {start : Nat} :
    firstUnknown p start tools = some (tool, index) ↔
      ∃ n, index = start + n ∧ p.LacksFirst tools tool n := by
  induction tools generalizing start with
  | nil => exact ⟨nofun, fun ⟨_, _, h⟩ => nomatch h.here⟩
  | cons name rest ih =>
    unfold firstUnknown
    split
    · next h =>
      rw [ih]
      constructor
      · rintro ⟨n, rfl, hn⟩
        exact ⟨n + 1, by omega, (Plugin.LacksFirst.tail_iff h).mpr ⟨n, rfl, hn⟩⟩
      · rintro ⟨m, rfl, hm⟩
        obtain ⟨n, rfl, hn⟩ := (Plugin.LacksFirst.tail_iff h).mp hm
        exact ⟨n, by omega, hn⟩
    · next h =>
      have hf : p.hasTool name = false := by simpa using h
      rw [Option.some.injEq, Prod.mk.injEq]
      constructor
      · rintro ⟨rfl, rfl⟩
        exact ⟨0, rfl, (Plugin.LacksFirst.head_iff hf).mpr ⟨rfl, rfl⟩⟩
      · rintro ⟨n, rfl, hn⟩
        obtain ⟨rfl, rfl⟩ := (Plugin.LacksFirst.head_iff hf).mp hn
        exact ⟨rfl, rfl⟩

theorem Plugin.LacksFirst.of_take {longer : List String} (h : p.LacksFirst tools tool index)
    (hl : tools.take (index + 1) <+: longer) : p.LacksFirst longer tool index := by
  obtain ⟨more, rfl⟩ := hl
  have hlen : index < tools.length := (List.getElem?_eq_some_iff.mp h.here).1
  have hsame (i : Nat) (hi : i ≤ index) :
      (tools.take (index + 1) ++ more)[i]? = tools[i]? := by
    rw [List.getElem?_append_left (by rw [List.length_take]; omega),
      List.getElem?_take_of_lt (by omega)]
  refine ⟨(hsame index (Nat.le_refl index)).trans h.here, h.lacks, fun i t hi ht => ?_⟩
  refine Nat.le_of_not_lt fun hlt => ?_
  have hi' : tools[i]? = some t := (hsame i (Nat.le_of_lt hlt)).symm.trans hi
  exact Nat.not_lt.mpr (h.least i t hi' ht) hlt

end

/-- Nothing is wrong with a request for tools of this plugin. -/
structure Registry.Accepts (r : Registry) (pluginId : String) (tools : List String)
    (p : Plugin) : Prop where
  named : pluginId ≠ ""
  found : r.lookup pluginId = some p
  nonempty : tools ≠ []
  known : ∀ tool ∈ tools, p.hasTool tool = true

/-- What is wrong with a request, where nothing else is that is looked for before. -/
inductive Registry.Faults (r : Registry) (pluginId : String) (tools : List String) :
    ValidationError → Prop
  | unnamed (hid : pluginId = "") : Faults r pluginId tools .emptyPluginId
  | unfound (hid : pluginId ≠ "") (hp : r.lookup pluginId = none) :
    Faults r pluginId tools (.unknownPlugin pluginId)
  | empty {p : Plugin} (hid : pluginId ≠ "") (hp : r.lookup pluginId = some p)
    (ht : tools = []) : Faults r pluginId tools .emptyToolList
  | lacking {p : Plugin} {tool : String} {index : Nat} (hid : pluginId ≠ "")
    (hp : r.lookup pluginId = some p) (ht : tools ≠ []) (hf : p.LacksFirst tools tool index) :
    Faults r pluginId tools (.unknownTool pluginId tool index)

section
variable {r : Registry} {p : Plugin} {pluginId : String} {tools : List String}

theorem validate_eq_ok_iff_accepts :
    validate r pluginId tools = .ok p ↔ r.Accepts pluginId tools p := by
  rw [validate_eq_ok_iff]
  exact ⟨fun ⟨hid, hp, hne, ht⟩ => ⟨hid, hp, hne, ht⟩,
    fun h => ⟨h.named, h.found, h.nonempty, h.known⟩⟩

theorem faults_of_validate {error : ValidationError}
    (h : validate r pluginId tools = .error error) : r.Faults pluginId tools error := by
  unfold validate at h
  split at h
  · next hid =>
    cases h
    exact .unnamed hid
  · next hid =>
    split at h
    · next hp =>
      cases h
      exact .unfound hid hp
    · next p hp =>
      split at h
      · next ht =>
        cases h
        exact .empty hid hp ht
      · next ht =>
        split at h
        · next tool index hu =>
          cases h
          obtain ⟨n, rfl, hn⟩ := firstUnknown_eq_some_iff.mp hu
          rw [Nat.zero_add]
          exact .lacking hid hp ht hn
        · cases h

theorem Registry.Faults.validate_eq {error : ValidationError}
    (h : r.Faults pluginId tools error) : validate r pluginId tools = .error error := by
  cases h with
  | unnamed hid => simp [validate, hid]
  | unfound hid hp => simp [validate, hid, hp]
  | empty hid hp ht => simp [validate, hid, hp, ht]
  | @lacking p tool index hid hp ht hf =>
    have hu : firstUnknown p 0 tools = some (tool, index) :=
      firstUnknown_eq_some_iff.mpr ⟨index, (Nat.zero_add index).symm, hf⟩
    simp [validate, hid, hp, ht, hu]

theorem Registry.Accepts.shorten {first : List String} (h : r.Accepts pluginId tools p)
    (hne : first ≠ []) (hf : first <+: tools) : r.Accepts pluginId first p :=
  ⟨h.named, h.found, hne, fun tool ht => h.known tool (hf.subset ht)⟩

end

/-- The checks of a request give its plugin if there is nothing wrong with it, and its first fault
otherwise. What a list of tools has behind the first one that is lacking makes no difference, and a
list is accepted if all its beginnings are. -/
theorem checks_find_first_fault :
    (∀ (r : Registry) (pluginId : String) (tools : List String) (p : Plugin),
      validate r pluginId tools = .ok p ↔ r.Accepts pluginId tools p) ∧
    (∀ (r : Registry) (pluginId : String) (tools : List String) (error : ValidationError),
      validate r pluginId tools = .error error ↔ r.Faults pluginId tools error) ∧
    (∀ (r : Registry) (pluginId id tool : String) (tools longer : List String) (index : Nat),
      validate r pluginId tools = .error (.unknownTool id tool index) →
      tools.take (index + 1) <+: longer →
      validate r pluginId longer = .error (.unknownTool id tool index)) ∧
    ∀ (r : Registry) (pluginId : String) (tools : List String) (p : Plugin), tools ≠ [] →
      (validate r pluginId tools = .ok p ↔
        ∀ first, first ≠ [] → first <+: tools → validate r pluginId first = .ok p) := by
  refine ⟨fun r pluginId tools p => validate_eq_ok_iff_accepts,
    fun r pluginId tools error => ⟨faults_of_validate, Registry.Faults.validate_eq⟩, ?_, ?_⟩
  · intro r pluginId id tool tools longer index h hl
    cases faults_of_validate h with
    | lacking hid hp ht hf =>
      have hf' := hf.of_take hl
      have ht' : longer ≠ [] := by
        rintro rfl
        cases hf'.here
      exact (Registry.Faults.lacking hid hp ht' hf').validate_eq
  · intro r pluginId tools p hne
    constructor
    · intro h first hfirst hl
      exact validate_eq_ok_iff_accepts.mpr
        ((validate_eq_ok_iff_accepts.mp h).shorten hfirst hl)
    · intro h
      exact h tools hne List.prefix_rfl

/-- Two tools are lacking, and the first one is found, also if another one follows instead of the
second; without both the list is accepted, and so is its beginning. -/
theorem checks_find_first_fault_twice :
    let r := Registry.empty.register haltPlugin
    validate r "p" ["halt", "ghost", "halt", "other"] = .error (.unknownTool "p" "ghost" 1) ∧
    ["halt", "ghost", "halt", "other"].take 2 <+: ["halt", "ghost", "third"] ∧
    validate r "p" ["halt", "ghost", "third"] = .error (.unknownTool "p" "ghost" 1) ∧
    ["halt", "halt"] ≠ [] ∧ validate r "p" ["halt", "halt"] = .ok haltPlugin ∧
    validate r "p" ["halt"] = .ok haltPlugin := by
  intro r
  have hv : validate r "p" ["halt", "ghost", "halt", "other"] =
      .error (.unknownTool "p" "ghost" 1) := rfl
  have hl : ["halt", "ghost", "halt", "other"].take 2 <+: ["halt", "ghost", "third"] :=
    ⟨["third"], rfl⟩
  have hne : ["halt", "halt"] ≠ [] := List.cons_ne_nil _ _
  have ha : validate r "p" ["halt", "halt"] = .ok haltPlugin := rfl
  obtain ⟨-, -, hlonger, hshorter⟩ := checks_find_first_fault
  exact ⟨hv, hl, hlonger r "p" "p" "ghost" _ _ 1 hv hl, hne, ha,
    (hshorter r "p" _ haltPlugin hne).mp ha ["halt"] (List.cons_ne_nil _ _) ⟨["halt"], rfl⟩⟩

end ToolPipeline
