import Mathlib.Data.List.Forall2
import ToolPipeline.Proofs.EnteredEntries
import ToolPipeline.Proofs.Json.Members

/-! Trees as they are written: how deep they nest, which numbers they have, and what is held of
them. -/

namespace ToolPipeline.Json

theorem induction {P : Json → Prop} (null : P .null) (bool : ∀ b, P (.bool b))
    (number : ∀ n, P (.number n)) (string : ∀ s, P (.string s))
    (array : ∀ items, (∀ v ∈ items, P v) → P (.array items))
    (object : ∀ members, (∀ m ∈ members, P m.2) → P (.object members)) (v : Json) : P v :=
  @Json.rec P (fun items => ∀ v ∈ items, P v) (fun members => ∀ m ∈ members, P m.2)
    (fun m => P m.2) null bool number string array object nofun
    (fun _ _ hv hrest => List.forall_mem_cons.mpr ⟨hv, hrest⟩) nofun
    (fun _ _ hm hrest => List.forall_mem_cons.mpr ⟨hm, hrest⟩) (fun _ _ hv => hv) v

def deepest {α : Type} (depth : α → Nat) (parts : List α) : Nat :=
  parts.foldr (fun a n => max (depth a) n) 0

@[simp]
theorem deepest_nil {α : Type} (depth : α → Nat) : deepest depth [] = 0 := rfl

@[simp]
theorem deepest_cons {α : Type} (depth : α → Nat) (a : α) (parts : List α) :
    deepest depth (a :: parts) = max (depth a) (deepest depth parts) := rfl

theorem deepest_le_iff {α : Type} {depth : α → Nat} {parts : List α} {n : Nat} :
    deepest depth parts ≤ n ↔ ∀ a ∈ parts, depth a ≤ n := by
  induction parts with
  | nil => simp
  | cons a rest ih =>
    rw [List.forall_mem_cons, ← ih]
    exact Nat.max_le

theorem deepest_of_forall₂ {α : Type} {depth depth' : α → Nat} {parts parts' : List α}
    (h : List.Forall₂ (fun a b => depth' b = depth a) parts parts') :
    deepest depth' parts' = deepest depth parts := by
  induction h with
  | nil => rfl
  | cons ha _ ih => rw [deepest_cons, deepest_cons, ha, ih]

mutual
def nesting : Json → Nat
  | .array items => itemsNesting items + 1
  | .object members => membersNesting members + 1
  | _ => 0

def itemsNesting : List Json → Nat
  | [] => 0
  | v :: rest => max (nesting v) (itemsNesting rest)

def membersNesting : List (String × Json) → Nat
  | [] => 0
  | (_, v) :: rest => max (nesting v) (membersNesting rest)
end

theorem itemsNesting_eq (items : List Json) : itemsNesting items = deepest nesting items := by
  induction items with
  | nil => rfl
  | cons v rest ih =>
    rw [itemsNesting, ih]
    rfl

theorem membersNesting_eq (members : List (String × Json)) :
    membersNesting members = deepest (fun m => m.2.nesting) members := by
  induction members with
  | nil => rfl
  | cons m rest ih =>
    rw [membersNesting, ih]
    rfl

theorem nesting_array_le_iff {items : List Json} {n : Nat} :
    nesting (.array items) ≤ n + 1 ↔ ∀ v ∈ items, v.nesting ≤ n := by
  rw [nesting, itemsNesting_eq, Nat.add_le_add_iff_right, deepest_le_iff]

theorem nesting_object_le_iff {members : List (String × Json)} {n : Nat} :
    nesting (.object members) ≤ n + 1 ↔ ∀ m ∈ members, m.2.nesting ≤ n := by
  rw [nesting, membersNesting_eq, Nat.add_le_add_iff_right, deepest_le_iff]

mutual
def numbers : Json → List Number
  | .number n => [n]
  | .array items => itemNumbers items
  | .object members => memberNumbers members
  | _ => []

def itemNumbers : List Json → List Number
  | [] => []
  | v :: rest => numbers v ++ itemNumbers rest

def memberNumbers : List (String × Json) → List Number
  | [] => []
  | (_, v) :: rest => numbers v ++ memberNumbers rest
end

theorem forall_itemNumbers_iff {P : Number → Prop} {items : List Json} :
    (∀ n ∈ itemNumbers items, P n) ↔ ∀ v ∈ items, ∀ n ∈ v.numbers, P n := by
  induction items with
  | nil => simp [itemNumbers]
  | cons v rest ih => rw [itemNumbers, List.forall_mem_append, ih, List.forall_mem_cons]

theorem forall_memberNumbers_iff {P : Number → Prop} {members : List (String × Json)} :
    (∀ n ∈ memberNumbers members, P n) ↔ ∀ m ∈ members, ∀ n ∈ m.2.numbers, P n := by
  induction members with
  | nil => simp [memberNumbers]
  | cons m rest ih => rw [memberNumbers, List.forall_mem_append, ih, List.forall_mem_cons]

inductive Keyed (P : String → Prop) : Json → Prop where
  | null : Keyed P .null
  | bool (b : Bool) : Keyed P (.bool b)
  | number (n : Number) : Keyed P (.number n)
  | string (s : String) : Keyed P (.string s)
  | array {items : List Json} (h : ∀ v ∈ items, Keyed P v) : Keyed P (.array items)
  | object {members : List (String × Json)} (hkeys : ∀ m ∈ members, P m.1)
    (h : ∀ m ∈ members, Keyed P m.2) : Keyed P (.object members)

theorem keyed_of_forall {P : String → Prop} (h : ∀ key, P key) (t : Json) : Keyed P t := by
  induction t using Json.induction with
  | null => exact .null
  | bool b => exact .bool b
  | number n => exact .number n
  | string s => exact .string s
  | array items ih => exact .array ih
  | object members ih => exact .object (fun m _ => h m.1) ih

theorem keyed_of_nesting {P : String → Prop} {t : Json} (h : t.nesting = 0) : Keyed P t := by
  cases t with
  | null => exact .null
  | bool b => exact .bool b
  | number n => exact .number n
  | string s => exact .string s
  | array | object => cases h

theorem Object.get?_ofList (entries : List (String × Value)) (key : String) :
    (Object.ofList entries).get? key = lastUnder? entries key := by
  induction entries using List.reverseRecOn with
  | nil => exact Object.get?_empty key
  | append_singleton entries m ih =>
    have hlast : Object.ofList (entries ++ [m]) = (Object.ofList entries).insert m.1 m.2 := by
      rw [Object.ofList, List.foldl_append]
      rfl
    rw [hlast, Object.get?_insert, ih, lastUnder?_append]

mutual
/-- What is held of a tree. Of several members of one key the last one stays. -/
def hold : Json → Value
  | .null => .null
  | .bool b => .bool b
  | .number n => .number n
  | .string s => .string s
  | .array items => .array (holdItems items)
  | .object members => .object (.ofList (holdMembers members))

def holdItems : List Json → List Value
  | [] => []
  | v :: rest => hold v :: holdItems rest

def holdMembers : List (String × Json) → List (String × Value)
  | [] => []
  | (key, v) :: rest => (key, hold v) :: holdMembers rest
end

theorem holdItems_eq (items : List Json) : holdItems items = items.map hold := by
  induction items with
  | nil => rfl
  | cons v rest ih => rw [holdItems, ih, List.map_cons]

theorem holdMembers_eq (members : List (String × Json)) :
    holdMembers members = members.map fun m => (m.1, hold m.2) := by
  induction members with
  | nil => rfl
  | cons m rest ih => rw [holdMembers, ih, List.map_cons]

theorem map_fst_holdMembers (members : List (String × Json)) :
    (holdMembers members).map Prod.fst = keys members := by
  rw [holdMembers_eq, List.map_map]
  rfl

theorem get?_hold {members : List (String × Json)} (hn : (keys members).Nodup) (key : String) :
    (Object.ofList (holdMembers members)).get? key = (members.lookup key).map hold := by
  rw [Object.get?_ofList, lastUnder?_of_nodup (by rwa [map_fst_holdMembers]), holdMembers_eq,
    lookup_map_snd]

theorem hold_json (v : Value) : hold v.json = v := by
  obtain ⟨t, ht⟩ := v
  refine Value.ext_json ?_
  induction t using Json.induction with
  | null | bool | number | string => rfl
  | array items ih =>
    have hitems := itemsOrdered_iff.mp (show ItemsOrdered items from ht)
    have hheld : items.map (fun v => (hold v).json) = items :=
      (List.map_congr_left fun v hv => ih v hv (hitems v hv)).trans (List.map_id' items)
    simp only [hold, Value.array, holdItems_eq, List.map_map]
    exact congrArg Json.array hheld
  | object members ih =>
    let o : Object := ⟨members, ht⟩
    have hheld : Object.ofList (holdMembers members) = o := by
      refine Object.ext_get? fun key => ?_
      rw [get?_hold o.nodup_keys]
      cases hv : o.get? key with
      | none => rw [Object.get?_eq_none_iff.mp hv, Option.map_none]
      | some v =>
        have hm : members.lookup key = some v.json := Object.get?_eq_some_iff.mp hv
        rw [hm, Option.map_some]
        exact congrArg some (Value.ext_json (ih _ (Object.mem_of_lookup hm) v.ordered))
    rw [hold, hheld]
    rfl

/-- The order of members does not show in what is held, if their keys differ. -/
theorem hold_perm {members members' : List (String × Json)} (hn : (keys members).Nodup)
    (h : members.Perm members') : hold (.object members') = hold (.object members) := by
  refine Value.object_inj.mpr (Object.ext_get? fun key => ?_)
  rw [Object.get?_ofList, Object.get?_ofList]
  refine lastUnder?_perm (by rwa [map_fst_holdMembers]) ?_ key
  rw [holdMembers_eq, holdMembers_eq]
  exact h.map _

end ToolPipeline.Json
