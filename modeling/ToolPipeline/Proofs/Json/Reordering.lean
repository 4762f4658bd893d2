import ToolPipeline.Proofs.Json.TakenTrees

/-! Trees that differ in the order of their members only. No shape makes anything else of the one
than of the other. -/

namespace ToolPipeline.Json

/-- In one place of the tree the members of an object, no two of which have one key, may stand in
another order. -/
inductive Reordered : Json → Json → Prop where
  | refl (t : Json) : Reordered t t
  | members {members members' : List (String × Json)} (hn : (keys members).Nodup)
    (h : members.Perm members') : Reordered (.object members) (.object members')
  | item (before : List Json) {t t' : Json} (after : List Json) (h : Reordered t t') :
    Reordered (.array (before ++ t :: after)) (.array (before ++ t' :: after))
  | member (before : List (String × Json)) (key : String) {t t' : Json}
    (after : List (String × Json)) (h : Reordered t t') :
    Reordered (.object (before ++ (key, t) :: after)) (.object (before ++ (key, t') :: after))

def SameMember (m m' : String × Json) : Prop := m.1 = m'.1 ∧ Reordered m.2 m'.2

theorem forall₂_insert {α : Type} {R : α → α → Prop} (hrefl : ∀ a, R a a) (before after : List α)
    {a b : α} (h : R a b) : List.Forall₂ R (before ++ a :: after) (before ++ b :: after) :=
  List.rel_append (List.forall₂_same.mpr fun c _ => hrefl c)
    (.cons h (List.forall₂_same.mpr fun c _ => hrefl c))

section
variable {α : Type} {depth : α → Nat}

theorem deepest_perm {parts parts' : List α} (h : parts.Perm parts') :
    deepest depth parts' = deepest depth parts := by
  refine Nat.le_antisymm (deepest_le_iff.mpr fun a ha => ?_) (deepest_le_iff.mpr fun a ha => ?_)
  · exact deepest_le_iff.mp (Nat.le_refl _) a (h.mem_iff.mpr ha)
  · exact deepest_le_iff.mp (Nat.le_refl _) a (h.mem_iff.mp ha)

end

namespace Reordered

section
variable {t t' : Json} {items : List Json} {members : List (String × Json)}

theorem of_array (h : Reordered (.array items) t') :
    ∃ items', t' = .array items' ∧ List.Forall₂ Reordered items items' := by
  cases h with
  | refl => exact ⟨items, rfl, List.forall₂_same.mpr fun t _ => .refl t⟩
  | item before after h => exact ⟨_, rfl, forall₂_insert .refl before after h⟩

theorem of_object (h : Reordered (.object members) t') : ∃ members', t' = .object members' ∧
    ((keys members).Nodup ∧ members.Perm members' ∨ List.Forall₂ SameMember members members') := by
  have hsame (m : String × Json) : SameMember m m := ⟨rfl, .refl m.2⟩
  cases h with
  | refl => exact ⟨members, rfl, .inr (List.forall₂_same.mpr fun m _ => hsame m)⟩
  | members hn h => exact ⟨_, rfl, .inl ⟨hn, h⟩⟩
  | member before key after h => exact ⟨_, rfl, .inr (forall₂_insert hsame before after ⟨rfl, h⟩)⟩

theorem kind_eq (h : Reordered t t') : t'.kind = t.kind := by
  cases h <;> rfl

theorem hold_eq (h : Reordered t t') : hold t' = hold t := by
  induction h with
  | refl => rfl
  | members hn h => exact hold_perm hn h
  | item before after h ih => simp [hold, holdItems_eq, ih]
  | member before key after h ih => simp [hold, holdMembers_eq, ih]

theorem forall_numbers_iff {P : Number → Prop} (h : Reordered t t') :
    (∀ n ∈ t'.numbers, P n) ↔ ∀ n ∈ t.numbers, P n := by
  induction h with
  | refl => exact Iff.rfl
  | members hn h =>
    rw [numbers, numbers, forall_memberNumbers_iff, forall_memberNumbers_iff]
    exact forall_congr' fun m => imp_congr_left h.mem_iff.symm
  | item before after h ih =>
    simp only [numbers, forall_itemNumbers_iff, List.forall_mem_append, List.forall_mem_cons, ih]
  | member before key after h ih =>
    simp only [numbers, forall_memberNumbers_iff, List.forall_mem_append, List.forall_mem_cons, ih]

theorem nesting_eq (h : Reordered t t') : t'.nesting = t.nesting := by
  induction h with
  | refl => rfl
  | members hn h => rw [nesting, nesting, membersNesting_eq, membersNesting_eq, deepest_perm h]
  | item before after h ih =>
    have hnesting := forall₂_insert (R := fun t t' : Json => t'.nesting = t.nesting) (fun _ => rfl)
      before after ih
    rw [nesting, nesting, itemsNesting_eq, itemsNesting_eq, deepest_of_forall₂ hnesting]
  | @member before key t t' after h ih =>
    have hnesting := forall₂_insert (R := fun m m' : String × Json => m'.2.nesting = m.2.nesting)
      (fun _ => rfl) before after (a := (key, t)) (b := (key, t')) ih
    rw [nesting, nesting, membersNesting_eq, membersNesting_eq, deepest_of_forall₂ hnesting]

end

end Reordered

section
variable {t t' : Json} {items items' : List Json} {members members' : List (String × Json)}

theorem keys_eq_of_forall₂ (h : List.Forall₂ SameMember members members') :
    keys members' = keys members := by
  induction h with
  | nil => rfl
  | cons hm _ ih =>
    rw [keys, List.map_cons, ← hm.1]
    exact congrArg _ ih

theorem lookup_of_forall₂ (h : List.Forall₂ SameMember members members') (key : String) :
    Option.Rel Reordered (members.lookup key) (members'.lookup key) := by
  induction h with
  | nil => exact .none
  | @cons m m' rest rest' hm _ ih =>
    obtain ⟨hkey, hm⟩ := hm
    rw [lookup_cons_ite, lookup_cons_ite, ← hkey]
    split
    · exact .some hm
    · exact ih

theorem getElem?_of_forall₂ (h : List.Forall₂ Reordered items items') (index : Nat) :
    Option.Rel Reordered items[index]? items'[index]? := by
  induction h generalizing index with
  | nil => exact .none
  | cons ht _ ih =>
    cases index with
    | zero => exact .some ht
    | succ index => exact ih index

theorem Reordered.given (h : Reordered t t') (index : Nat) (name : String) :
    Option.Rel Reordered (given? t index name) (given? t' index name) := by
  cases t with
  | array items =>
    obtain ⟨items', rfl, hitems⟩ := h.of_array
    exact getElem?_of_forall₂ hitems index
  | object members =>
    obtain ⟨members', rfl, ⟨hn, hperm⟩ | hmembers⟩ := h.of_object
    · rw [given?, given?, lookup_perm hn hperm]
      cases members.lookup name with
      | none => exact .none
      | some t => exact .some (.refl t)
    · exact lookup_of_forall₂ hmembers name
  | null | bool | number | string =>
    cases h
    exact .none

theorem Reordered.givesOnce (h : Reordered t t') {names : List String} (ho : GivesOnce names t) :
    GivesOnce names t' := by
  cases t with
  | array items =>
    obtain ⟨items', rfl, hitems⟩ := h.of_array
    exact Nat.le_trans (Nat.le_of_eq hitems.length_eq.symm) ho
  | object members =>
    obtain ⟨members', rfl, ⟨hn, hperm⟩ | hmembers⟩ := h.of_object
    · intro name hname
      have hcount : (keys members').count name = (keys members).count name :=
        (hperm.map Prod.fst).symm.count_eq name
      exact hcount ▸ ho name hname
    · exact fun name hname => keys_eq_of_forall₂ hmembers ▸ ho name hname
  | null | bool | number | string => cases ho

end

/-- A shape that makes the same of trees whose members are in another order. -/
structure Shape.Unordered (shape : Shape) : Prop where
  takes : ∀ {t t' : Json} {v : Value}, Reordered t t' → shape.Takes t v → shape.Takes t' v
  reach : ∀ {t t' : Json}, Reordered t t' → shape.reach t' = shape.reach t

theorem Shape.unordered_list {item : Shape} (h : item.Unordered) : (Shape.list item).Unordered where
  takes {t t' v} hr ht := by
    obtain ⟨items, vs, rfl, rfl, hvs⟩ := ht
    obtain ⟨items', rfl, hitems⟩ := hr.of_array
    refine ⟨items', vs, rfl, rfl, ?_⟩
    have hall : ∀ {items items' : List Json} {vs : List Value},
        List.Forall₂ Reordered items items' → List.Forall₂ item.Takes items vs →
          List.Forall₂ item.Takes items' vs := by
      intro items items' vs hitems hvs
      induction hitems generalizing vs with
      | nil => exact hvs
      | cons ht _ ih =>
        cases hvs with
        | cons hv hvs => exact .cons (h.takes ht hv) (ih hvs)
    exact hall hitems hvs
  reach {t t'} hr := by
    cases t with
    | array items =>
      obtain ⟨items', rfl, hitems⟩ := hr.of_array
      rw [Shape.reach, Shape.reach, deepest_of_forall₂ (hitems.imp fun _ _ ht => h.reach ht)]
    | object members =>
      obtain ⟨members', rfl, -⟩ := hr.of_object
      simp only [Shape.reach, hr.nesting_eq]
    | null | bool | number | string =>
      cases hr
      rfl

theorem Fields.filled_reordered {t t' : Json} {o : Object} (hr : Reordered t t') :
    ∀ {fields : Fields} {index : Nat}, (∀ shape ∈ fields.shapes, shape.Unordered) →
      fields.Filled t index o → fields.Filled t' index o
  | .nil, _, _, _ => trivial
  | .cons name shape default rest, index, hfields, h => by
    obtain ⟨hshape, hrest⟩ := List.forall_mem_cons.mp hfields
    obtain ⟨⟨v, hv, hgiven⟩, hfilled⟩ := h
    refine ⟨⟨v, hv, ?_⟩, filled_reordered hr hrest hfilled⟩
    have hrel := hr.given index name
    generalize given? t index name = x at hrel hgiven
    generalize given? t' index name = y at hrel ⊢
    cases hrel with
    | none => exact hgiven
    | some ht => exact hshape.takes ht hgiven

theorem Fields.memberReach_reordered {fields : Fields}
    (h : ∀ shape ∈ fields.shapes, shape.Unordered) {t t' : Json} (hr : Reordered t t')
    (key : String) :
    fields.memberReach key t' = fields.memberReach key t := by
  rw [memberReach_eq, memberReach_eq]
  cases hf : fields.field? key with
  | none => rfl
  | some f => exact (h f.1 (mem_shapes_of_field? hf)).reach hr

theorem Fields.itemsReach_reordered : ∀ {fields : Fields} {items items' : List Json},
    (∀ shape ∈ fields.shapes, shape.Unordered) → List.Forall₂ Reordered items items' →
      fields.itemsReach items' = fields.itemsReach items
  | .nil, _, _, _, h => by cases h <;> rfl
  | .cons _ shape _ rest, _, _, hfields, h => by
    obtain ⟨hshape, hrest⟩ := List.forall_mem_cons.mp hfields
    cases h with
    | nil => rfl
    | cons ht hitems =>
      rw [itemsReach, itemsReach, hshape.reach ht, itemsReach_reordered hrest hitems]

theorem Shape.unordered_record (name : String) {fields : Fields}
    (h : ∀ shape ∈ fields.shapes, shape.Unordered) : (Shape.record name fields).Unordered where
  takes {t t' v} hr ht := by
    obtain ⟨o, rfl, honce, hfilled, hout⟩ := ht
    exact ⟨o, rfl, hr.givesOnce honce, Fields.filled_reordered hr h hfilled, hout⟩
  reach {t t'} hr := by
    cases t with
    | array items =>
      obtain ⟨items', rfl, hitems⟩ := hr.of_array
      rw [Shape.reach, Shape.reach, Fields.itemsReach_reordered h hitems]
    | object members =>
      obtain ⟨members', rfl, ⟨hn, hperm⟩ | hmembers⟩ := hr.of_object
      · rw [Shape.reach, Shape.reach, deepest_perm hperm]
      · rw [Shape.reach, Shape.reach, deepest_of_forall₂ (hmembers.imp fun m m' hm => ?_)]
        rw [← hm.1, Fields.memberReach_reordered h hm.2]
    | null | bool | number | string =>
      cases hr
      rfl

theorem Shape.unordered_of_nesting {shape : Shape} (hreach : ∀ t, shape.reach t = t.nesting)
    (htakes : ∀ {t t' v}, Reordered t t' → shape.Takes t v → shape.Takes t' v) :
    shape.Unordered where
  takes := htakes
  reach hr := by rw [hreach, hreach, hr.nesting_eq]

theorem Shape.unordered (shape : Shape) : shape.Unordered := by
  induction shape using Shape.induction with
  | any =>
    exact unordered_of_nesting Plain.any.reach_eq fun hr ht => ht.trans hr.hold_eq.symm
  | object =>
    exact unordered_of_nesting Plain.object.reach_eq fun hr ht =>
      ⟨hr.kind_eq.trans ht.1, ht.2.trans hr.hold_eq.symm⟩
  | string =>
    exact unordered_of_nesting Plain.string.reach_eq fun hr ht =>
      ⟨hr.kind_eq.trans ht.1, ht.2.trans hr.hold_eq.symm⟩
  | boolean =>
    exact unordered_of_nesting Plain.boolean.reach_eq fun hr ht =>
      ⟨hr.kind_eq.trans ht.1, ht.2.trans hr.hold_eq.symm⟩
  | natural name most =>
    refine unordered_of_nesting (fun t => by simp [reach]) fun hr ht => ?_
    obtain ⟨n, rfl, hn⟩ := ht
    cases hr
    exact ⟨n, rfl, hn⟩
  | list item ih => exact unordered_list ih
  | record name fields ih => exact unordered_record name ih

end ToolPipeline.Json
