import ToolPipeline.Proofs.NamedEntries
import ToolPipeline.Proofs.Json.Values

/-! Objects as maps: what an object holds under a key determines it, and inserting and erasing a
member change nothing under other keys. -/

namespace ToolPipeline.Json

theorem insertMember_eq_insertNamed (key : String) (v : Json) (members : List (String × Json)) :
    insertMember key v members = insertNamed key v members := by
  induction members with
  | nil => rfl
  | cons head rest ih =>
    obtain ⟨k, w⟩ := head
    simp only [insertMember, insertNamed, ih]

namespace Object

variable {o p : Object} {key : String} {v : Value}

theorem get?_map_json (o : Object) (key : String) :
    (o.get? key).map Value.json = o.members.lookup key := by
  unfold get?
  split
  · next h => simp [h]
  · next h => simp [h]

theorem get?_eq_some_iff : o.get? key = some v ↔ o.members.lookup key = some v.json := by
  rw [← get?_map_json]
  cases h : o.get? key with
  | none => simp
  | some w => simpa using ⟨fun he => he ▸ rfl, Value.ext_json⟩

theorem get?_eq_none_iff : o.get? key = none ↔ o.members.lookup key = none := by
  rw [← get?_map_json, Option.map_eq_none_iff]

theorem ext_get? (h : ∀ key, o.get? key = p.get? key) : o = p := by
  refine ext_members (eq_of_lookup o.sorted p.sorted fun key => ?_)
  rw [← get?_map_json, ← get?_map_json, h]

theorem get?_of_lookup {q : Object} {key' : String}
    (h : o.members.lookup key = q.members.lookup key') : o.get? key = q.get? key' := by
  rw [← get?_map_json, ← get?_map_json] at h
  cases ho : o.get? key <;> cases hq : q.get? key' <;> simp [ho, hq] at h ⊢
  exact Value.ext_json h

@[simp]
theorem get?_empty (key : String) : empty.get? key = none := get?_eq_none_iff.mpr rfl

theorem get?_insert (o : Object) (k : String) (v : Value) (key : String) :
    (o.insert k v).get? key = if key = k then some v else o.get? key := by
  have hl : (o.insert k v).members.lookup key =
      if key = k then some v.json else o.members.lookup key := by
    rw [← lookup_insertNamed, ← insertMember_eq_insertNamed]
    rfl
  by_cases h : key = k
  · rw [if_pos h] at hl ⊢
    exact get?_eq_some_iff.mpr hl
  · rw [if_neg h] at hl ⊢
    exact get?_of_lookup hl

@[simp]
theorem get?_insert_self (o : Object) (k : String) (v : Value) :
    (o.insert k v).get? k = some v := by
  simp [get?_insert]

theorem get?_erase (o : Object) (k key : String) :
    (o.erase k).get? key = if key = k then none else o.get? key := by
  have hl : (o.erase k).members.lookup key = _ := lookup_filter_ne k key o.members
  by_cases h : key = k
  · rw [if_pos h] at hl ⊢
    exact get?_eq_none_iff.mpr hl
  · rw [if_neg h] at hl ⊢
    exact get?_of_lookup hl

theorem toList_map_fst (o : Object) : o.toList.map Prod.fst = o.keys := by
  rw [toList, List.map_map]
  exact List.attach_map_val (l := o.members) (f := Prod.fst)

theorem nodup_keys (o : Object) : o.keys.Nodup := by
  refine List.Pairwise.imp (fun {a b} hlt he => ?_) o.sorted
  subst he
  exact String.lt_irrefl _ hlt

theorem mem_toList : (key, v) ∈ o.toList ↔ o.get? key = some v := by
  rw [get?_eq_some_iff, ← mem_iff_lookup o.sorted, toList, List.mem_map]
  constructor
  · rintro ⟨⟨m, hm⟩, -, he⟩
    cases he
    exact hm
  · intro hm
    exact ⟨⟨(key, v.json), hm⟩, List.mem_attach _ _, rfl⟩

theorem lookup_toList (o : Object) (key : String) : o.toList.lookup key = o.get? key := by
  refine Option.ext fun v => ?_
  rw [← mem_toList, ← mem_iff_lookup]
  rw [toList_map_fst]
  exact o.sorted

end Object

end ToolPipeline.Json
