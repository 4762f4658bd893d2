import ToolPipeline.Pipeline.Validation

/-! What it takes for a request to pass the checks before its run. -/

namespace ToolPipeline

section
variable {r : Registry} {p : Plugin} {pluginId : String} {tools : List String}

theorem firstUnknown_eq_none_iff {index : Nat} :
    firstUnknown p index tools = none ↔ ∀ tool ∈ tools, p.hasTool tool := by
  induction tools generalizing index with
  | nil => simp [firstUnknown]
  | cons tool rest ih => by_cases ht : p.hasTool tool = true <;> simp [firstUnknown, ht, ih]

theorem validate_eq_ok_iff : validate r pluginId tools = .ok p ↔
    pluginId ≠ "" ∧ r.lookup pluginId = some p ∧ tools ≠ [] ∧ ∀ tool ∈ tools, p.hasTool tool := by
  constructor
  · intro h
    unfold validate at h
    split at h
    · cases h
    · next hid =>
      split at h
      · cases h
      · next q hq =>
        split at h
        · cases h
        · next hne =>
          split at h
          · cases h
          · next hu =>
            cases h
            exact ⟨hid, hq, hne, firstUnknown_eq_none_iff.mp hu⟩
  · rintro ⟨hid, hp, hne, ht⟩
    simp [validate, hid, hp, hne, firstUnknown_eq_none_iff.mpr ht]

theorem lookup_of_validate (h : validate r pluginId tools = .ok p) :
    r.lookup pluginId = some p :=
  (validate_eq_ok_iff.mp h).2.1

theorem ne_nil_of_validate (h : validate r pluginId tools = .ok p) : tools ≠ [] :=
  (validate_eq_ok_iff.mp h).2.2.1

theorem hasTool_of_validate (h : validate r pluginId tools = .ok p) :
    ∀ tool ∈ tools, p.hasTool tool :=
  (validate_eq_ok_iff.mp h).2.2.2

theorem validate_eq_ok (hid : pluginId ≠ "") (hp : r.lookup pluginId = some p) (hne : tools ≠ [])
    (h : ∀ tool ∈ tools, p.hasTool tool) : validate r pluginId tools = .ok p :=
  validate_eq_ok_iff.mpr ⟨hid, hp, hne, h⟩

end

end ToolPipeline
