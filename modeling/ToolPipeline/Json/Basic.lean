import ToolPipeline.Text.Octets

/-! JSON values. `Json` is a tree whose objects list their members as written; a `Json.Value` is
a tree that is held in memory, where every object has its keys in strictly increasing order. -/

namespace ToolPipeline

/-- Whole numbers between -2^63 and 2^64 stay whole; all others are kept as floats. -/
inductive Number where
  | int (n : Int)
  | float (x : Float)

inductive Json where
  | null
  | bool (b : Bool)
  | number (n : Number)
  | string (s : String)
  | array (items : List Json)
  | object (members : List (String × Json))
  deriving Inhabited

namespace Json

inductive Kind where
  | null | boolean | number | string | array | object
  deriving DecidableEq, Repr

def Kind.name : Kind → String
  | .null => "null"
  | .boolean => "boolean"
  | .number => "number"
  | .string => "string"
  | .array => "array"
  | .object => "object"

def kind : Json → Kind
  | .null => .null
  | .bool _ => .boolean
  | .number _ => .number
  | .string _ => .string
  | .array _ => .array
  | .object _ => .object

def keys (members : List (String × Json)) : List String := members.map Prod.fst

mutual
def Ordered : Json → Prop
  | .array items => ItemsOrdered items
  | .object members => (keys members).Pairwise (· < ·) ∧ MembersOrdered members
  | _ => True

def ItemsOrdered : List Json → Prop
  | [] => True
  | v :: rest => Ordered v ∧ ItemsOrdered rest

def MembersOrdered : List (String × Json) → Prop
  | [] => True
  | (_, v) :: rest => Ordered v ∧ MembersOrdered rest
end

theorem itemsOrdered_iff {items : List Json} : ItemsOrdered items ↔ ∀ v ∈ items, Ordered v := by
  induction items with
  | nil => simp [ItemsOrdered]
  | cons v rest ih => simp [ItemsOrdered, ih]

theorem membersOrdered_iff {members : List (String × Json)} :
    MembersOrdered members ↔ ∀ m ∈ members, Ordered m.2 := by
  induction members with
  | nil => simp [MembersOrdered]
  | cons m rest ih => simp [MembersOrdered, ih]

structure Value where
  json : Json
  ordered : json.Ordered

/-- An object as it is held in memory: its members in increasing order of their keys. -/
structure Object where
  members : List (String × Json)
  ordered : (Json.object members).Ordered

namespace Value

theorem ext_json {v w : Value} (h : v.json = w.json) : v = w := by
  cases v; cases w; cases h; rfl

def null : Value := ⟨.null, by simp [Ordered]⟩
def bool (b : Bool) : Value := ⟨.bool b, by simp [Ordered]⟩
def number (n : Number) : Value := ⟨.number n, by simp [Ordered]⟩
def int (n : Int) : Value := number (.int n)
def string (s : String) : Value := ⟨.string s, by simp [Ordered]⟩

instance : Inhabited Value := ⟨null⟩

def array (items : List Value) : Value :=
  ⟨.array (items.map Value.json), by
    simp only [Ordered, itemsOrdered_iff, List.mem_map]
    rintro _ ⟨v, _, rfl⟩
    exact v.ordered⟩

def object (o : Object) : Value := ⟨.object o.members, o.ordered⟩

def kind (v : Value) : Kind := v.json.kind

def asObject? : Value → Option Object
  | ⟨.object members, h⟩ => some ⟨members, h⟩
  | _ => none

def asString? (v : Value) : Option String :=
  match v.json with
  | .string s => some s
  | _ => none

def asBool? (v : Value) : Option Bool :=
  match v.json with
  | .bool b => some b
  | _ => none

def asInt? (v : Value) : Option Int :=
  match v.json with
  | .number (.int n) => some n
  | _ => none

def items? : Value → Option (List Value)
  | ⟨.array items, h⟩ =>
    some (items.attach.map fun v => ⟨v.1, itemsOrdered_iff.1 (by simpa [Ordered] using h) _ v.2⟩)
  | _ => none

end Value

/-- Puts a member in its place among increasing keys, instead of an earlier one of that key. -/
def insertMember (key : String) (v : Json) : List (String × Json) → List (String × Json)
  | [] => [(key, v)]
  | (k, w) :: rest =>
    if key < k then (key, v) :: (k, w) :: rest
    else if key = k then (key, v) :: rest
    else (k, w) :: insertMember key v rest

theorem mem_insertMember {key : String} {v : Json} {m : String × Json}
    {members : List (String × Json)} (h : m ∈ insertMember key v members) :
    m = (key, v) ∨ m ∈ members := by
  induction members with
  | nil => simpa [insertMember] using h
  | cons head rest ih =>
    obtain ⟨k, w⟩ := head
    unfold insertMember at h
    split at h
    · simpa using h
    · split at h
      · simp only [List.mem_cons] at h ⊢
        rcases h with h | h
        · exact .inl h
        · exact .inr (.inr h)
      · simp only [List.mem_cons] at h ⊢
        rcases h with h | h
        · exact .inr (.inl h)
        · rcases ih h with h | h
          · exact .inl h
          · exact .inr (.inr h)

theorem lt_of_not_lt_of_ne {a b : String} (h : ¬ a < b) (hne : a ≠ b) : b < a := by
  rcases String.le_total a b with hab | hba
  · exact absurd (String.le_antisymm hab (String.not_lt.1 h)) hne
  · exact String.not_le.1 fun hab => hne (String.le_antisymm hab hba)

theorem pairwise_insertMember {key : String} {v : Json} {members : List (String × Json)}
    (h : (keys members).Pairwise (· < ·)) :
    (keys (insertMember key v members)).Pairwise (· < ·) := by
  induction members with
  | nil => simp [insertMember, keys]
  | cons head rest ih =>
    obtain ⟨k, w⟩ := head
    simp only [keys, List.map_cons, List.pairwise_cons, List.mem_map] at h
    obtain ⟨hk, hrest⟩ := h
    unfold insertMember
    split
    · next hlt =>
      simp only [keys, List.map_cons, List.pairwise_cons, List.mem_cons, List.mem_map]
      refine ⟨?_, ?_, hrest⟩
      · rintro k' (rfl | hk')
        · exact hlt
        · exact String.lt_trans hlt (hk _ hk')
      · exact hk
    · split
      · next heq =>
        subst heq
        simp only [keys, List.map_cons, List.pairwise_cons, List.mem_map]
        exact ⟨hk, hrest⟩
      · next hnlt hne =>
        simp only [keys, List.map_cons, List.pairwise_cons, List.mem_map]
        refine ⟨?_, ih hrest⟩
        rintro k' ⟨m, hm, rfl⟩
        rcases mem_insertMember hm with rfl | hm
        · exact lt_of_not_lt_of_ne hnlt hne
        · exact hk _ ⟨m, hm, rfl⟩

namespace Object

theorem ext_members {o p : Object} (h : o.members = p.members) : o = p := by
  cases o; cases p; cases h; rfl

def empty : Object := ⟨[], by simp [Ordered, keys, MembersOrdered]⟩

instance : Inhabited Object := ⟨empty⟩

theorem sorted (o : Object) : (Json.keys o.members).Pairwise (· < ·) := by
  have := o.ordered
  simp only [Ordered] at this
  exact this.1

theorem ordered_of_mem {o : Object} {m : String × Json} (h : m ∈ o.members) : m.2.Ordered := by
  have := o.ordered
  simp only [Ordered, membersOrdered_iff] at this
  exact this.2 m h

def keys (o : Object) : List String := Json.keys o.members

def insert (o : Object) (key : String) (v : Value) : Object where
  members := insertMember key v.json o.members
  ordered := by
    simp only [Ordered, membersOrdered_iff]
    refine ⟨pairwise_insertMember o.sorted, fun m hm => ?_⟩
    rcases mem_insertMember hm with rfl | hm
    · exact v.ordered
    · exact ordered_of_mem hm

def erase (o : Object) (key : String) : Object where
  members := o.members.filter (·.1 != key)
  ordered := by
    simp only [Ordered, membersOrdered_iff]
    refine ⟨?_, fun m hm => ordered_of_mem (List.mem_filter.1 hm).1⟩
    exact o.sorted.sublist (List.filter_sublist.map Prod.fst)

theorem mem_of_lookup {key : String} {v : Json} {members : List (String × Json)}
    (h : members.lookup key = some v) : (key, v) ∈ members := by
  induction members with
  | nil => simp at h
  | cons head rest ih =>
    obtain ⟨k, w⟩ := head
    rw [List.lookup_cons] at h
    split at h
    · next hk =>
      have hk := eq_of_beq hk
      cases h
      simp [hk]
    · exact List.mem_cons_of_mem _ (ih h)

def get? (o : Object) (key : String) : Option Value :=
  match h : o.members.lookup key with
  | none => none
  | some v => some ⟨v, ordered_of_mem (mem_of_lookup h)⟩

/-- Builds an object member by member; of several members of one key the last one stays. -/
def ofList (members : List (String × Value)) : Object :=
  members.foldl (fun o m => o.insert m.1 m.2) empty

def toList (o : Object) : List (String × Value) :=
  o.members.attach.map fun m => (m.1.1, ⟨m.1.2, ordered_of_mem m.2⟩)

def toValue (o : Object) : Value := .object o

end Object

end Json

end ToolPipeline
