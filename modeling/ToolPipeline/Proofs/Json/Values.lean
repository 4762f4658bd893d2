import ToolPipeline.Json.Basic

/-! Held values are known by what they are made of. -/

namespace ToolPipeline.Json.Value

@[simp]
theorem asObject?_object (o : Object) : (Value.object o).asObject? = some o := rfl

theorem asObject?_eq_some_iff {v : Value} {o : Object} :
    v.asObject? = some o ↔ v = .object o := by
  constructor
  · intro h
    obtain ⟨json, ordered⟩ := v
    cases json <;> simp [Value.asObject?] at h
    rw [← h]
    rfl
  · rintro rfl
    rfl

theorem object_inj {o p : Object} : object o = object p ↔ o = p := by
  constructor
  · intro h
    have ho := congrArg asObject? h
    simpa using ho
  · rintro rfl
    rfl

theorem asString?_eq_some_iff {v : Value} {s : String} :
    v.asString? = some s ↔ v = .string s := by
  constructor
  · intro h
    obtain ⟨json, ordered⟩ := v
    cases json <;> simp [Value.asString?] at h
    rw [← h]
    rfl
  · rintro rfl
    rfl

theorem asBool?_eq_some_iff {v : Value} {b : Bool} : v.asBool? = some b ↔ v = .bool b := by
  constructor
  · intro h
    obtain ⟨json, ordered⟩ := v
    cases json <;> simp [asBool?] at h
    rw [← h]
    rfl
  · rintro rfl
    rfl

theorem asObject?_eq_none_iff {v : Value} : v.asObject? = none ↔ ∀ o, v ≠ .object o := by
  simp only [Option.eq_none_iff_forall_ne_some, ne_eq, asObject?_eq_some_iff]

theorem asString?_eq_none_iff {v : Value} : v.asString? = none ↔ ∀ s, v ≠ .string s := by
  simp only [Option.eq_none_iff_forall_ne_some, ne_eq, asString?_eq_some_iff]

theorem items?_array (vs : List Value) : (array vs).items? = some vs := by
  simp only [array, items?, Option.some.injEq]
  refine List.ext_getElem (by simp) fun i h₁ h₂ => Value.ext_json ?_
  simp

theorem items?_eq_some_iff {v : Value} {vs : List Value} : v.items? = some vs ↔ v = .array vs := by
  constructor
  · intro h
    obtain ⟨json, ordered⟩ := v
    cases json <;> simp [items?] at h
    refine ext_json ?_
    simp [← h, array]
  · rintro rfl
    exact items?_array vs

theorem array_inj {vs ws : List Value} : array vs = array ws ↔ vs = ws := by
  constructor
  · intro h
    have hi := congrArg items? h
    simpa only [items?_array, Option.some.injEq] using hi
  · rintro rfl
    rfl

@[simp]
theorem asString?_string (s : String) : (string s).asString? = some s := rfl

theorem string_inj {s t : String} : string s = string t ↔ s = t := by
  constructor
  · intro h
    have ht := congrArg asString? h
    simpa using ht
  · rintro rfl
    rfl

end ToolPipeline.Json.Value
