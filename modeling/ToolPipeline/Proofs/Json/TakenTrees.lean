import ToolPipeline.Proofs.Json.RecordTexts
import ToolPipeline.Proofs.Json.SpelledTrees

/-! What shapes make of trees. The text of a tree is read by a shape as what the shape makes of the
tree: in whatever order members stand, with or without fields that have defaults, with members of
other names, and with the fields of a record in a list. -/

namespace ToolPipeline.Json

namespace Fields

def names : Fields → List String
  | .nil => []
  | .cons name _ _ rest => name :: rest.names

def shapes : Fields → List Shape
  | .nil => []
  | .cons _ shape _ rest => shape :: rest.shapes

end Fields

/-- What a tree gives for a field: the member of its name, or the item in its place. -/
def given? (t : Json) (index : Nat) (name : String) : Option Json :=
  match t with
  | .object members => members.lookup name
  | .array items => items[index]?
  | _ => none

/-- Whether a tree may be a record of some fields: each of them is given at most once. -/
def GivesOnce (names : List String) : Json → Prop
  | .object members => ∀ name ∈ names, (keys members).count name ≤ 1
  | .array items => items.length ≤ names.length
  | _ => False

mutual
/-- What a shape makes of a tree. -/
def Shape.Takes : Shape → Json → Value → Prop
  | .any, t, v => v = hold t
  | .object, t, v => t.kind = .object ∧ v = hold t
  | .string, t, v => t.kind = .string ∧ v = hold t
  | .boolean, t, v => t.kind = .boolean ∧ v = hold t
  | .natural _ most, t, v => ∃ n : Nat, t = .number (.int n) ∧ n ≤ most ∧ v = .int n
  | .list item, t, v => ∃ items vs, t = .array items ∧ v = .array vs ∧
      List.Forall₂ item.Takes items vs
  | .record _ fields, t, v => ∃ o, v = .object o ∧ GivesOnce fields.names t ∧
      fields.Filled t 0 o ∧ ∀ name, name ∉ fields.names → o.get? name = none

/-- The fields of an object are what a tree gives for them, or their defaults. -/
def Fields.Filled : Fields → Json → Nat → Object → Prop
  | .nil, _, _, _ => True
  | .cons name shape default rest, t, index, o =>
    (∃ v, o.get? name = some v ∧
      match given? t index name with
      | some given => shape.Takes given v
      | none => default = some v) ∧ rest.Filled t (index + 1) o
end

mutual
/-- How deep a shape looks into a tree. Members that have no field are passed over. -/
def Shape.reach : Shape → Json → Nat
  | .list item, .array items => deepest item.reach items + 1
  | .record _ fields, .object members => deepest (fun m => fields.memberReach m.1 m.2) members + 1
  | .record _ fields, .array items => fields.itemsReach items + 1
  | _, t => t.nesting

def Fields.memberReach : Fields → String → Json → Nat
  | .nil, _, _ => 0
  | .cons name shape _ rest, key, t => if name = key then shape.reach t else rest.memberReach key t

def Fields.itemsReach : Fields → List Json → Nat
  | .cons _ shape _ rest, t :: items => max (shape.reach t) (rest.itemsReach items)
  | _, _ => 0
end

theorem Shape.induction {P : Shape → Prop} (any : P .any) (object : P .object) (string : P .string)
    (boolean : P .boolean) (natural : ∀ name most, P (.natural name most))
    (list : ∀ item, P item → P (.list item))
    (record : ∀ name fields, (∀ shape ∈ fields.shapes, P shape) → P (.record name fields))
    (shape : Shape) : P shape :=
  @Shape.rec P (fun fields => ∀ shape ∈ fields.shapes, P shape) any object string boolean natural
    list record nofun (fun _ _ _ _ hshape hrest => List.forall_mem_cons.mpr ⟨hshape, hrest⟩) shape

theorem Shape.Plain.reach_eq {shape : Shape} (h : shape.Plain) (t : Json) :
    shape.reach t = t.nesting := by
  induction h generalizing t with
  | any | object | string | boolean => simp [reach]
  | list _ ih =>
    cases t with
    | array items =>
      rw [reach, nesting, itemsNesting_eq,
        deepest_of_forall₂ (List.forall₂_same.mpr fun t _ => (ih t).symm)]
    | null | bool | number | string | object => simp [reach]

def Shape.Recovering (shape : Shape) : Prop :=
  ∀ t v core, (∀ n ∈ t.numbers, n.IsWhole) → shape.Takes t v → Spells t core →
    Recovers shape.read (shape.reach t) core v

theorem Recovers.congr {α : Type} {reader reader' : Nat → List Piece → Result α} {n : Nat}
    {core : List Char} {a : α} (h : Recovers reader n core a)
    (he : ∀ depth s rest, skipSpace s = core.map .char ++ rest → reader' depth s = reader depth s) :
    Recovers reader' n core a where
  starts := h.starts
  reaches depth s rest hr hs := by
    rw [he depth s rest hs]
    exact h.reaches depth s rest hr hs

theorem read_object_eq {depth : Nat} {s tail : List Piece} (hs : skipSpace s = .char '{' :: tail) :
    Shape.object.read depth s = readValue depth s := by
  unfold readValue
  cases depth <;> simp only [Shape.read, hs]

theorem Shape.recovering_any : Shape.any.Recovering := by
  intro t v core hn hv hs
  cases hv
  exact (spelled_recovered hn hs).congr fun depth s rest _ => by rw [Shape.read]

theorem Shape.recovering_object : Shape.object.Recovering := by
  rintro t v core hn ⟨hk, rfl⟩ hs
  have h := spelled_recovered hn hs
  cases t with
  | object members =>
    obtain ⟨blank, parts, -, -, rfl⟩ := hs
    exact h.congr fun depth s rest he => read_object_eq he
  | null | bool | number | string | array => cases hk

theorem Shape.recovering_string : Shape.string.Recovering := by
  rintro t v core hn ⟨hk, rfl⟩ hs
  have h := spelled_recovered hn hs
  cases t with
  | string t =>
    cases hs
    refine h.congr fun depth s rest he => ?_
    unfold readValue
    rw [Shape.read, he]
    rfl
  | null | bool | number | object | array => cases hk

theorem Shape.recovering_boolean : Shape.boolean.Recovering := by
  rintro t v core hn ⟨hk, rfl⟩ hs
  have h := spelled_recovered hn hs
  cases t with
  | bool b =>
    cases hs
    refine h.congr fun depth s rest he => ?_
    unfold readValue
    rw [Shape.read, he]
    cases b <;> rfl
  | null | string | number | object | array => cases hk

theorem Shape.recovering_list {item : Shape} (hitem : item.Recovering) :
    (Shape.list item).Recovering := by
  rintro t v core hn ⟨items, vs, rfl, rfl, hvs⟩ ⟨blank, parts, hblank, hparts, rfl⟩
  have hnumbers := forall_itemNumbers_iff.mp hn
  have hitems := items_recovered
    (fun t ht core v hs hv => hitem t v core (hnumbers t ht) hv hs) hparts hvs
  rw [Shape.reach]
  refine .of_bracketed rfl (by decide) (fun s tail hs => ?_) (fun depth s rest hs => ?_)
  · exact ⟨.ahead .tooDeep (.char '[' :: tail), by simp only [Shape.read, hs], rfl⟩
  · have hread := (readItems_recovered hitems hblank depth rest).map fun r => (Value.array r.1, r.2)
    simp only [Shape.read, hs]
    exact hread

theorem readNatural_of_digit {name : String} {most : Nat} {s : List Piece}
    (h : (digitOf? s).isSome = true) {n : Number} {rest : List Piece}
    (hn : readNumber true s = .ok (n, rest)) {v : Value}
    (hv : naturalMismatch n name most = .ok v) : readNatural name most s = .ok (v, rest) := by
  unfold readNatural
  split
  · cases h
  · simp only [h, if_true, hn, hv]

theorem Shape.recovering_natural (name : String) (most : Nat) :
    (Shape.natural name most).Recovering := by
  rintro t v core hn ⟨n, rfl, hmost, rfl⟩ hs
  cases hs
  have hwhole : (Number.int n).IsWhole := hn _ List.mem_cons_self
  have hstart := (spelled_recovered (t := .number (.int n)) hn rfl).starts
  obtain ⟨_, hi, -, hfit⟩ := hwhole
  obtain rfl := Number.int.inj hi
  have htext : numberText (.int n) = Decimal.digitsOf n := by
    rw [numberText, Decimal.intDigits, if_neg (by omega), Int.natAbs_natCast]
  have hle : n ≤ largestSignificand := by
    unfold largestSignificand
    omega
  refine ⟨hstart, fun depth s rest hr he => .of_eq rfl ?_⟩
  have hread := (hr.readNumber true hle).trans (hr.readTail_positive n)
  rw [Shape.read, he]
  rw [chars, htext]
  exact readNatural_of_digit (isSome_digitOf?_digitsOf n rest) hread
    (naturalMismatch_eq_ok_iff.mpr ⟨n, hmost, rfl, rfl⟩)

theorem Reaches.settleObject {α : Type} {fits : Prop} {x : Result α} {r : α × List Piece}
    (h : Reaches fits x r) : Reaches fits (settleObject x) r where
  fit hf := settleObject_eq_ok_iff.mpr (h.fit hf)
  tooDeep hn := by
    obtain ⟨f, rfl, hc⟩ := h.tooDeep hn
    unfold Json.settleObject
    split
    · next he =>
      cases he
      split
      · exact ⟨f, rfl, hc⟩
      · split <;> exact ⟨_, rfl, hc⟩
    · next he => exact absurd rfl (he f)

theorem Reaches.settleList {α : Type} {fits : Prop} {x : Result α} {r : α × List Piece}
    (h : Reaches fits x r) : Reaches fits (settleList x) r where
  fit hf := settleList_eq_ok_iff.mpr (h.fit hf)
  tooDeep hn := by
    obtain ⟨f, rfl, hc⟩ := h.tooDeep hn
    unfold Json.settleList
    split
    · next he =>
      cases he
      split
      · exact ⟨f, rfl, hc⟩
      · split <;> exact ⟨_, rfl, hc⟩
    · next he => exact absurd rfl (he f)

namespace Fields

def field? : Fields → String → Option (Shape × Option Value)
  | .nil, _ => none
  | .cons name shape default rest, key =>
    if name = key then some (shape, default) else rest.field? key

theorem find?_readers (depth : Nat) (key : String) : ∀ fields : Fields,
    (fields.readers depth).find? (·.name == key) =
      (fields.field? key).map fun f => ⟨key, fun s => f.1.read depth s, f.2⟩
  | .nil => by
    rw [readers]
    rfl
  | .cons name shape default rest => by
    rw [readers, field?]
    by_cases hk : name = key
    · simp [hk]
    · rw [if_neg hk, List.find?_cons_of_neg (by simpa using hk), find?_readers depth key rest]

theorem map_name_readers (depth : Nat) : ∀ fields : Fields,
    (fields.readers depth).map FieldReader.name = fields.names
  | .nil => by
    rw [readers]
    rfl
  | .cons name shape default rest => by
    rw [readers, names, List.map_cons, map_name_readers depth rest]

theorem memberReach_eq (key : String) (t : Json) : ∀ fields : Fields,
    fields.memberReach key t = ((fields.field? key).map fun f => f.1.reach t).getD 0
  | .nil => by rw [memberReach]; rfl
  | .cons name shape default rest => by
    rw [memberReach, field?]
    by_cases hk : name = key
    · simp [hk]
    · rw [if_neg hk, if_neg hk, memberReach_eq key t rest]

theorem mem_names_iff {key : String} : ∀ {fields : Fields},
    key ∈ fields.names ↔ ∃ f, fields.field? key = some f
  | .nil => by simp [names, field?]
  | .cons name shape default rest => by
    rw [names, field?, List.mem_cons, mem_names_iff]
    by_cases hk : name = key
    · simp [hk]
    · simp [hk, Ne.symm hk]

theorem mem_shapes_of_field? {key : String} {f : Shape × Option Value} : ∀ {fields : Fields},
    fields.field? key = some f → f.1 ∈ fields.shapes
  | .nil, h => by cases h
  | .cons name shape default rest, h => by
    rw [field?] at h
    rw [shapes]
    split at h
    · cases h
      exact List.mem_cons_self
    · exact List.mem_cons_of_mem _ (mem_shapes_of_field? h)

theorem Filled.field {t : Json} {o : Object} {key : String} {f : Shape × Option Value} :
    ∀ {fields : Fields} {index : Nat}, fields.Filled t index o → fields.field? key = some f →
      ∃ i v, o.get? key = some v ∧
        match given? t i key with
        | some given => f.1.Takes given v
        | none => f.2 = some v
  | .nil, _, _, hf => by cases hf
  | .cons name shape default rest, index, h, hf => by
    rw [Fields.Filled] at h
    rw [field?] at hf
    split at hf
    · next hk =>
      cases hf
      obtain ⟨v, hv, hgiven⟩ := h.1
      exact ⟨index, v, hk ▸ hv, hk ▸ hgiven⟩
    · exact Filled.field h.2 hf

end Fields

section
variable {fields : Fields} {key : String} {t : Json} {core part : List Char} {read o : Object}

def readFieldsAt (fields : Fields) (depth : Nat) : String → Object → List Piece → Result Object :=
  readField (fields.readers depth)

theorem passOver_recovered (hn : ∀ n ∈ t.numbers, n.IsWhole) (hs : Spells t core) :
    Recovers (fun _ => passOver) 0 core () := by
  have h := spelled_recovered hn hs
  refine ⟨h.starts, fun depth s rest hr he => .of_eq rfl ?_⟩
  have hv := (h.reaches t.nesting s rest hr he).fit (Nat.le_refl _)
  exact map_eq_ok_iff.mpr ⟨rest, skipValue_of_readValue hv, rfl⟩

theorem unknown_recovered (hf : fields.field? key = none) (hn : ∀ n ∈ t.numbers, n.IsWhole)
    (hs : Spells t core) (hpart : Padded core part) (read : Object) :
    MemberRecovered (readFieldsAt fields) 0 key read part read := by
  obtain ⟨after, hafter, hvalue⟩ := readMemberValue_recovered (passOver_recovered hn hs) hpart
  refine ⟨after, hafter, fun depth s rest hr he => ?_⟩
  have hskipped := (hvalue depth key s rest hr he).map fun r => (read, r.2)
  rw [readFieldsAt, readField, Fields.find?_readers, hf]
  exact hskipped

theorem known_recovered {f : Shape × Option Value} {n : Nat} {v : Value}
    (hf : fields.field? key = some f) (hread : read.get? key = none)
    (h : Recovers f.1.read n core v) (hpart : Padded core part) :
    MemberRecovered (readFieldsAt fields) n key read part (read.insert key v) := by
  obtain ⟨after, hafter, hvalue⟩ := readMemberValue_recovered h hpart
  refine ⟨after, hafter, fun depth s rest hr he => ?_⟩
  have hmember := (hvalue depth key s rest hr he).map fun r => (read.insert key r.1, r.2)
  rw [readFieldsAt, readField, Fields.find?_readers, hf]
  simp only [Option.map_some, hread, Option.isSome_none, Bool.false_eq_true, if_false]
  exact hmember

theorem members_taken (hfields : ∀ shape ∈ fields.shapes, shape.Recovering)
    {members : List (String × Json)} {parts : List (List Char)}
    (hn : ∀ m ∈ members, ∀ n ∈ m.2.numbers, n.IsWhole) (hs : MembersSpelled members parts)
    (htaken : ∀ m ∈ members, ∀ f, fields.field? m.1 = some f →
      ∃ v, o.get? m.1 = some v ∧ f.1.Takes m.2 v)
    (honce : ∀ key ∈ fields.names, (keys members).count key ≤ 1)
    (hread : ∀ key ∈ fields.names, key ∈ keys members → read.get? key = none) :
    ∃ all, MembersRecovered (readFieldsAt fields)
        (deepest (fun m => fields.memberReach m.1 m.2) members) read parts all ∧
      ∀ key, all.get? key =
        if key ∈ fields.names ∧ key ∈ keys members then o.get? key else read.get? key := by
  induction members generalizing parts read with
  | nil =>
    cases hs
    exact ⟨read, .nil read, fun key => by simp [keys]⟩
  | cons m rest ih =>
    obtain ⟨name, core, part, more, hname, hcore, hpart, hmore, rfl⟩ := hs
    obtain ⟨hm, hnrest⟩ := List.forall_mem_cons.mp hn
    obtain ⟨htm, htrest⟩ := List.forall_mem_cons.mp htaken
    have hkeys : keys (m :: rest) = m.1 :: keys rest := rfl
    have horest (key : String) (hk : key ∈ fields.names) : (keys rest).count key ≤ 1 := by
      have ho := honce key hk
      rw [hkeys, List.count_cons] at ho
      omega
    have hreach : fields.memberReach m.1 m.2 = _ := Fields.memberReach_eq m.1 m.2 fields
    cases hf : fields.field? m.1 with
    | none =>
      -- no field has this name: the member is passed over, however deep it nests
      have hnot : m.1 ∉ fields.names := by
        simp [Fields.mem_names_iff, hf]
      obtain ⟨all, hall, hget⟩ := ih hnrest hmore htrest horest fun key hk hkr =>
        hread key hk (List.mem_cons_of_mem _ hkr)
      refine ⟨all, .cons hname ?_ hall, fun key => ?_⟩
      · simp only [hreach, hf]
        exact unknown_recovered hf hm hcore hpart read
      · rw [hget, hkeys]
        by_cases hk : key = m.1
        · subst hk
          simp [hnot]
        · simp [hk]
    | some f =>
      -- the field is given here and nowhere else, so that it has not been read before
      have hmem : m.1 ∈ fields.names := Fields.mem_names_iff.mpr ⟨f, hf⟩
      obtain ⟨v, hv, htakes⟩ := htm f hf
      have hnone : read.get? m.1 = none := hread m.1 hmem List.mem_cons_self
      have hout : m.1 ∉ keys rest := by
        intro hin
        have ho := honce m.1 hmem
        have hpos := List.count_pos_iff.mpr hin
        rw [hkeys, List.count_cons_self] at ho
        omega
      have hrecovers := hfields f.1 (Fields.mem_shapes_of_field? hf) m.2 v core hm htakes hcore
      have hlater (key : String) (hk : key ∈ fields.names) (hkr : key ∈ keys rest) :
          (read.insert m.1 v).get? key = none := by
        have hne : key ≠ m.1 := fun he => hout (he ▸ hkr)
        rw [Object.get?_insert, if_neg hne]
        exact hread key hk (List.mem_cons_of_mem _ hkr)
      obtain ⟨all, hall, hget⟩ := ih hnrest hmore htrest horest hlater
      refine ⟨all, .cons hname ?_ hall, fun key => ?_⟩
      · simp only [hreach, hf]
        exact known_recovered hf hnone hrecovers hpart
      · rw [hget, hkeys, Object.get?_insert]
        by_cases hk : key = m.1
        · subst hk
          simp [hout, hmem, hv]
        · simp [hk]

theorem complete_taken {members : List (String × Json)} {all : Object}
    (hfilled : fields.Filled (.object members) 0 o)
    (hout : ∀ name, name ∉ fields.names → o.get? name = none)
    (hall : ∀ key, all.get? key =
      if key ∈ fields.names ∧ key ∈ keys members then o.get? key else none) (depth : Nat) :
    complete all (fields.readers depth) = .ok o := by
  have hheld (key : String) :
      (all.get? key).or (defaultOf (fields.readers depth) key) = o.get? key := by
    rw [hall, defaultOf, Fields.find?_readers]
    cases hf : fields.field? key with
    | none =>
      have hnot : key ∉ fields.names := by
        simp [Fields.mem_names_iff, hf]
      simp [hnot, hout key hnot]
    | some f =>
      obtain ⟨i, v, hv, hgiven⟩ := hfilled.field hf
      have hmem : key ∈ fields.names := Fields.mem_names_iff.mpr ⟨f, hf⟩
      rw [given?] at hgiven
      cases hlookup : members.lookup key with
      | none =>
        have hnot : key ∉ keys members := lookup_eq_none_iff.mp hlookup
        rw [hlookup] at hgiven
        simp [hnot, hv, show f.2 = some v from hgiven]
      | some t =>
        have hin : key ∈ keys members := mem_names_of_lookup hlookup
        simp [hmem, hin, hv]
  have hgiven (field : TextField) (hfield : field ∈ fields.readers depth) :
      ((all.get? field.name).or (defaultOf (fields.readers depth) field.name)).isSome := by
    have hname : field.name ∈ fields.names := by
      rw [← Fields.map_name_readers depth]
      exact List.mem_map_of_mem hfield
    obtain ⟨f, hf⟩ := Fields.mem_names_iff.mp hname
    obtain ⟨-, v, hv, -⟩ := hfilled.field hf
    rw [hheld, hv]
    rfl
  obtain ⟨o', ho'⟩ := complete_ok_iff.mpr hgiven
  have he : o' = o := Object.ext_get? fun key => (get?_of_complete ho' key).trans (hheld key)
  rw [ho', he]

theorem record_recovered {name : String} {members : List (String × Json)}
    (hfields : ∀ shape ∈ fields.shapes, shape.Recovering)
    (hn : ∀ n ∈ (Json.object members).numbers, n.IsWhole)
    (ht : (Shape.record name fields).Takes (.object members) (.object o))
    (hs : Spells (.object members) core) :
    Recovers (Shape.record name fields).read
      ((Shape.record name fields).reach (.object members)) core (.object o) := by
  obtain ⟨_, ho, honce, hfilled, hout⟩ := ht
  cases Value.object_inj.mp ho
  obtain ⟨blank, parts, hblank, hparts, rfl⟩ := hs
  have htaken (m : String × Json) (hm : m ∈ members) (f : Shape × Option Value)
      (hf : fields.field? m.1 = some f) : ∃ v, o.get? m.1 = some v ∧ f.1.Takes m.2 v := by
    obtain ⟨i, v, hv, hgiven⟩ := hfilled.field hf
    have honce := honce m.1 (Fields.mem_names_iff.mpr ⟨f, hf⟩)
    rw [given?, lookup_of_count_le_one honce hm] at hgiven
    exact ⟨v, hv, hgiven⟩
  have hempty (key : String) (_ : key ∈ fields.names) (_ : key ∈ keys members) :
      Object.empty.get? key = none := Object.get?_empty key
  obtain ⟨all, hall, hget⟩ := members_taken hfields (forall_memberNumbers_iff.mp hn) hparts htaken
    honce hempty
  have hcomplete := complete_taken hfilled hout (by simpa using hget)
  rw [Shape.reach]
  refine .of_bracketed rfl (by decide) (fun s tail hs => ?_) (fun depth s rest hs => ?_)
  · exact ⟨.ahead .tooDeep (.char '{' :: tail), by simp only [Shape.read, hs], rfl⟩
  · have hmembers := readMembers_recovered hall hblank depth rest
    simp only [Shape.read, hs]
    refine Reaches.settleObject ⟨fun hfit => ?_, fun hdeep => ?_⟩
    · have he := hmembers.fit hfit
      rw [readFieldsAt] at he
      simp only [he, hcomplete]
      rfl
    · obtain ⟨f, he, hf⟩ := hmembers.tooDeep hdeep
      rw [readFieldsAt] at he
      simp only [he]
      exact ⟨f, rfl, hf⟩

end

theorem Fields.itemsReach_nil (fields : Fields) : fields.itemsReach [] = 0 := by
  cases fields <;> rw [Fields.itemsReach] <;> simp

/-- The items of a text leave behind what the shapes of the fields in their places make of them,
and for the fields behind them the defaults. -/
theorem fieldItems_taken {given : List Json} {o : Object} (expected : String) (depth : Nat)
    (rest : List Piece) : ∀ (read : Object) {fields : Fields} {index : Nat} {items : List Json}
    {parts : List (List Char)} {s : List Piece},
    (∀ shape ∈ fields.shapes, shape.Recovering) → given.drop index = items →
    (∀ t ∈ items, ∀ n ∈ t.numbers, n.IsWhole) → items.length ≤ fields.names.length →
    fields.Filled (.array given) index o → ItemsSpelled items parts →
    Awaits ']' (index == 0) parts rest s →
    ∃ all tail, skipSpace tail = .char ']' :: rest ∧
      (∀ key, all.get? key = if key ∈ fields.names then o.get? key else read.get? key) ∧
      Reaches (fields.itemsReach items ≤ depth)
        (readFieldItems expected index read (fields.readers depth) s) (all, tail)
  | read, .nil, index, items, parts, s, _, _, _, hlen, _, hparts, hs => by
    obtain rfl := List.eq_nil_of_length_eq_zero (Nat.le_zero.mp hlen)
    cases hparts
    refine ⟨read, s, hs.closing rfl, fun key => by simp [Fields.names], .of_eq rfl ?_⟩
    rw [Fields.readers, readFieldItems]
  | read, .cons name shape default more, index, items, parts, s, hfields, hitems, hn, hlen, hfilled,
      hparts, hs => by
    obtain ⟨hshape, hmore⟩ := List.forall_mem_cons.mp hfields
    obtain ⟨⟨v, hv, hgiven⟩, hfilled⟩ := hfilled
    have hhead : given[index]? = items.head? := by rw [← List.head?_drop, hitems]
    have htail : given.drop (index + 1) = items.tail := by rw [← List.tail_drop, hitems]
    have hget (all : Object) (hall : ∀ key, all.get? key =
        if key ∈ more.names then o.get? key else (read.insert name v).get? key) (key : String) :
        all.get? key = if key ∈ (Fields.cons name shape default more).names then o.get? key
          else read.get? key := by
      rw [hall, Fields.names, Object.get?_insert]
      by_cases hk : key = name
      · simp [hk, hv]
      · simp [hk]
    rw [given?, hhead] at hgiven
    rw [Fields.readers]
    cases items with
    | nil =>
      -- the list has ended: this field and those behind it have their defaults
      cases hparts
      obtain rfl : default = some v := hgiven
      obtain ⟨all, tail, hclose, hall, hreach⟩ := fieldItems_taken expected depth rest
        (read.insert name v) hmore htail (List.forall_mem_nil _) (Nat.zero_le _) hfilled rfl
        (skipSpace_cons rfl rest : Awaits ']' false [] rest (.char ']' :: rest))
      refine ⟨all, tail, hclose, hget all hall, ?_⟩
      rw [List.tail_nil, Fields.itemsReach_nil] at hreach
      rw [Fields.itemsReach_nil, readFieldItems, nextItem_close hs]
      exact hreach
    | cons t items =>
      obtain ⟨core, part, parts, hcore, hpart, hparts, rfl⟩ := hparts
      obtain ⟨ht, hn⟩ := List.forall_mem_cons.mp hn
      obtain ⟨text, after, hnext, hitem, hafter⟩ :=
        nextItem_part hs hpart (hshape t v core ht hgiven hcore)
      obtain ⟨all, tail, hclose, hall, hreach⟩ := fieldItems_taken expected depth rest
        (read.insert name v) hmore htail hn (Nat.le_of_succ_le_succ hlen) hfilled hparts hafter
      refine ⟨all, tail, hclose, hget all hall, ?_⟩
      refine (hitem depth).andThen hreach (fun he => ?_) (fun f he => ?_)
      · rw [readFieldItems, hnext]
        simp only [he]
      · refine ⟨f.under (.index index), ?_, rfl⟩
        rw [readFieldItems, hnext]
        simp only [he]

theorem listed_recovered {fields : Fields} {name : String} {items : List Json} {o : Object}
    {core : List Char} (hfields : ∀ shape ∈ fields.shapes, shape.Recovering)
    (hn : ∀ n ∈ (Json.array items).numbers, n.IsWhole)
    (ht : (Shape.record name fields).Takes (.array items) (.object o))
    (hs : Spells (.array items) core) :
    Recovers (Shape.record name fields).read
      ((Shape.record name fields).reach (.array items)) core (.object o) := by
  obtain ⟨_, ho, hlen, hfilled, hout⟩ := ht
  cases Value.object_inj.mp ho
  obtain ⟨blank, parts, hblank, hparts, rfl⟩ := hs
  rw [Shape.reach]
  refine .of_bracketed rfl (by decide) (fun s tail hs => ?_) (fun depth s rest hs => ?_)
  · exact ⟨.ahead .tooDeep (.char '[' :: tail), by simp only [Shape.read, hs], rfl⟩
  · obtain ⟨all, tail, hclose, hall, hreach⟩ := fieldItems_taken
      (listExpectation name (fields.readers depth).length) depth rest .empty hfields
      List.drop_zero (forall_itemNumbers_iff.mp hn) hlen hfilled hparts (awaits_opened hblank)
    have he : all = o := Object.ext_get? fun key => by
      by_cases hk : key ∈ fields.names
      · rw [hall, if_pos hk]
      · rw [hall, if_neg hk, hout key hk, Object.get?_empty]
    subst he
    simp only [Shape.read, hs]
    refine Reaches.settleList ⟨fun hfit => ?_, fun hdeep => ?_⟩
    · simp only [hreach.fit hfit, readListEnd_of_closing hclose]
      rfl
    · obtain ⟨f, he, hf⟩ := hreach.tooDeep hdeep
      simp only [he]
      exact ⟨f, rfl, hf⟩

theorem Shape.recovering_record (name : String) {fields : Fields}
    (hfields : ∀ shape ∈ fields.shapes, shape.Recovering) :
    (Shape.record name fields).Recovering := by
  rintro t v core hn ht hs
  obtain ⟨o, rfl, honce, -⟩ := id ht
  cases t with
  | object members => exact record_recovered hfields hn ht hs
  | array items => exact listed_recovered hfields hn ht hs
  | null | bool | number | string => cases honce

theorem Shape.recovering (shape : Shape) : shape.Recovering := by
  induction shape using Shape.induction with
  | any => exact recovering_any
  | object => exact recovering_object
  | string => exact recovering_string
  | boolean => exact recovering_boolean
  | natural name most => exact recovering_natural name most
  | list item ih => exact recovering_list ih
  | record name fields ih => exact recovering_record name ih

/-- A whole text, with any blanks around it, is read as what a shape makes of its tree, unless it
nests too deep. -/
theorem Shape.parsePieces_taken {shape : Shape} {t : Json} {v : Value} {core text : List Char}
    (hn : ∀ n ∈ t.numbers, n.IsWhole) (ht : shape.Takes t v) (hs : Spells t core)
    (htext : Padded core text) :
    (shape.reach t ≤ depthLimit → shape.parsePieces (text.map .char) = .ok v) ∧
      (depthLimit < shape.reach t → ∃ f, shape.parsePieces (text.map .char) = .error f ∧
        f.cause = .flaw .tooDeep) :=
  (shape.recovering t v core hn ht hs).readWhole htext depthLimit

end ToolPipeline.Json
