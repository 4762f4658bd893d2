import ToolPipeline.Proofs.Json.TakenTrees

/-! What is read of a text stays within bounds: it nests no deeper than it may, and its whole
numbers are among those that are read as such. -/

namespace ToolPipeline.Json

section
variable {s rest : List Piece} {positive : Bool} {significand : Nat} {shift i : Int} {n : Number}

theorem readDigits_le {count significand' count' : Nat} {more : Bool}
    (hs : significand ≤ largestSignificand)
    (h : readDigits significand count s = ((significand', count', more), rest)) :
    significand' ≤ largestSignificand := by
  induction s generalizing significand count with
  | nil =>
    cases h
    exact hs
  | cons p s ih =>
    unfold readDigits at h
    split at h
    · split at h
      · simp only at h
        split at h
        · next hnext => exact ih hnext h
        · cases h
          exact hs
      · cases h
        exact hs
    · cases h
      exact hs

theorem float_of_scaledNumber (h : scaledNumber positive significand shift s = .ok (n, rest)) :
    ∃ x, n = .float x := by
  unfold scaledNumber at h
  split at h
  · cases h
  · cases h
    exact ⟨_, rfl⟩

theorem float_of_readExponent :
    readExponent positive significand shift s = .ok (n, rest) → ∃ x, n = .float x := by
  fun_cases readExponent positive significand shift s <;> intro h
  case case3 => exact float_of_scaledNumber h
  case case5 =>
    cases h
    exact ⟨_, rfl⟩
  all_goals cases h

theorem float_of_readFraction :
    readFraction positive significand shift s = .ok (n, rest) → ∃ x, n = .float x := by
  fun_cases readFraction positive significand shift s <;> intro h
  case case1 => cases h
  case case2 => exact float_of_readExponent h
  case case3 => exact float_of_scaledNumber h

theorem float_of_readLongTail (h : readLongTail positive significand s = .ok (n, rest)) :
    ∃ x, n = .float x := by
  unfold readLongTail at h
  simp only at h
  split at h
  · exact float_of_readFraction h
  · split at h
    · exact float_of_readExponent h
    · exact float_of_scaledNumber h

theorem whole_of_readTail (hs : significand ≤ largestSignificand)
    (h : readTail positive significand s = .ok (.int i, rest)) : (Number.int i).IsWhole := by
  have hpos : 0 < Nat.pow 2 64 := by decide
  unfold largestSignificand at hs
  unfold readTail at h
  split at h
  · cases (float_of_readFraction h).choose_spec
  · split at h
    · cases (float_of_readExponent h).choose_spec
    · split at h
      · cases h
        exact ⟨_, rfl, by omega, by omega⟩
      · split at h
        · cases h
        · next hsmall =>
          cases h
          exact ⟨_, rfl, by omega, by omega⟩

theorem digit_le {d : Nat} (h : digitOf? s = some (d, rest)) : d ≤ 9 := by
  unfold digitOf? at h
  split at h
  · split at h
    · next c _ hc =>
      cases h
      have hc := Char.isDigit_iff_toNat.mp hc
      have hzero : '0'.toNat = 48 := rfl
      have hnine : '9'.toNat = 57 := rfl
      omega
    · cases h
  · cases h

theorem whole_of_readNumber :
    readNumber positive s = .ok (.int i, rest) → (Number.int i).IsWhole := by
  fun_cases readNumber positive s <;> intro h
  case case4 => exact whole_of_readTail (Nat.zero_le _) h
  case case5 d tail hne hd significand count after hdigits =>
    have hfirst : d ≤ largestSignificand := Nat.le_trans (digit_le hd) (by decide)
    exact whole_of_readTail (readDigits_le hfirst hdigits) h
  case case6 => cases (float_of_readLongTail h).choose_spec
  all_goals cases h

end

/-- A tree that nests at most so deep and has no whole number out of range. -/
structure Bounded (depth : Nat) (t : Json) : Prop where
  nests : t.nesting ≤ depth
  whole : ∀ n ∈ t.numbers, ∀ i, n = .int i → n.IsWhole

theorem bounded_array_iff {depth : Nat} {items : List Json} :
    Bounded (depth + 1) (.array items) ↔ ∀ t ∈ items, Bounded depth t := by
  constructor
  · rintro ⟨hn, hw⟩ t ht
    exact ⟨nesting_array_le_iff.mp hn t ht, forall_itemNumbers_iff.mp hw t ht⟩
  · intro h
    exact ⟨nesting_array_le_iff.mpr fun t ht => (h t ht).nests,
      forall_itemNumbers_iff.mpr fun t ht => (h t ht).whole⟩

theorem bounded_object_iff {depth : Nat} {members : List (String × Json)} :
    Bounded (depth + 1) (.object members) ↔ ∀ m ∈ members, Bounded depth m.2 := by
  constructor
  · rintro ⟨hn, hw⟩ m hm
    exact ⟨nesting_object_le_iff.mp hn m hm, forall_memberNumbers_iff.mp hw m hm⟩
  · intro h
    exact ⟨nesting_object_le_iff.mpr fun m hm => (h m hm).nests,
      forall_memberNumbers_iff.mpr fun m hm => (h m hm).whole⟩

theorem Object.forall_members_iff {P : Json → Prop} {o : Object} :
    (∀ m ∈ o.members, P m.2) ↔ ∀ key v, o.get? key = some v → P v.json := by
  constructor
  · intro h key v hv
    exact h (key, v.json) (Object.mem_of_lookup (Object.get?_eq_some_iff.mp hv))
  · rintro h ⟨key, t⟩ hm
    have hlookup := (mem_iff_lookup o.sorted).mp hm
    exact h key ⟨t, Object.ordered_of_mem hm⟩ (Object.get?_eq_some_iff.mpr hlookup)

section
variable {P : Value → Prop} {s rest : List Piece}

theorem readItems_forall {item : List Piece → Result Value} {vs : List Value}
    (h : ∀ s v rest, item s = .ok (v, rest) → P v) (hs : readItems item s = .ok (vs, rest)) :
    ∀ v ∈ vs, P v := by
  have hfrom (budget index : Nat) (read : List Value) (s : List Piece) (hread : ∀ v ∈ read, P v)
      (hs : readItemsFrom item budget index read s = .ok (vs, rest)) : ∀ v ∈ vs, P v := by
    induction budget generalizing index read s with
    | zero =>
      cases hs
      simpa using hread
    | succ budget ih =>
      unfold readItemsFrom at hs
      split at hs
      · cases hs
      · cases hs
        simpa using hread
      · split at hs
        · cases hs
        · next v next hv =>
          exact ih _ _ _ (List.forall_mem_cons.mpr ⟨h _ _ _ hv, hread⟩) hs
  exact hfrom _ _ _ _ (List.forall_mem_nil P) hs

theorem of_readMemberValue {value : List Piece → Result Value} {key : String} {v : Value}
    (h : ∀ s v rest, value s = .ok (v, rest) → P v)
    (hs : readMemberValue value key s = .ok (v, rest)) : P v := by
  unfold readMemberValue at hs
  split at hs
  · cases hs
  · split at hs
    · cases hs
    · next hv =>
      cases hs
      exact h _ _ _ hv

def Object.All (P : Value → Prop) (o : Object) : Prop := ∀ key v, o.get? key = some v → P v

theorem Object.All.insert {o : Object} {key : String} {v : Value} (h : o.All P) (hv : P v) :
    (o.insert key v).All P := by
  intro key' w hw
  rw [Object.get?_insert] at hw
  split at hw
  · cases hw
    exact hv
  · exact h key' w hw

theorem Object.all_empty : Object.empty.All P := by
  intro key v hv
  rw [Object.get?_empty] at hv
  cases hv

theorem readObject_all {value : List Piece → Result Value} {o : Object}
    (h : ∀ s v rest, value s = .ok (v, rest) → P v) (hs : readObject value s = .ok (o, rest)) :
    o.All P := by
  obtain ⟨⟨o', tail⟩, hm, he⟩ := map_eq_ok_iff.mp hs
  cases he
  refine readMembersFrom_invariant (I := Object.All P) (fun key read s next rest hread hn => ?_)
    Object.all_empty hm
  obtain ⟨⟨v, tail⟩, hv, he⟩ := map_eq_ok_iff.mp hn
  cases he
  exact hread.insert (of_readMemberValue h hv)

theorem readFieldItems_all {fields : List TextField} {expected : String} {index : Nat}
    {o all : Object}
    (hread : ∀ field ∈ fields, ∀ s v rest, field.read s = .ok (v, rest) → P v)
    (hdefault : ∀ field ∈ fields, ∀ v, field.default = some v → P v) (ho : o.All P)
    (h : readFieldItems expected index o fields s = .ok (all, rest)) : all.All P := by
  induction fields generalizing index o s with
  | nil =>
    cases h
    exact ho
  | cons field fields ih =>
    obtain ⟨hfirst, hread⟩ := List.forall_mem_cons.mp hread
    obtain ⟨hown, hdefault⟩ := List.forall_mem_cons.mp hdefault
    unfold readFieldItems at h
    split at h
    · cases h
    · split at h
      · cases h
      · next v tail hv => exact ih hread hdefault (ho.insert (hfirst _ _ _ hv)) h
    · split at h
      · cases h
      · next v hv => exact ih hread hdefault (ho.insert (hown v hv)) h

variable {fields : List TextField} {v : Value}
  (hread : ∀ field ∈ fields, ∀ s v rest, field.read s = .ok (v, rest) → P v)
  (hdefault : ∀ field ∈ fields, ∀ v, field.default = some v → P v)
include hread

theorem readField_all {key : String} {o next : Object} (ho : o.All P)
    (h : readField fields key o s = .ok (next, rest)) : next.All P := by
  unfold readField at h
  split at h
  · obtain ⟨_, -, he⟩ := map_eq_ok_iff.mp h
    cases he
    exact ho
  · next field hfield =>
    split at h
    · cases h
    · obtain ⟨⟨v, tail⟩, hv, he⟩ := map_eq_ok_iff.mp h
      cases he
      exact ho.insert (of_readMemberValue (hread field (List.mem_of_find?_eq_some hfield)) hv)

include hdefault

theorem readRecordMembers_all (h : readRecordMembers fields s = .ok (v, rest)) :
    ∃ o, v = .object o ∧ o.All P := by
  have h := settleObject_eq_ok_iff.mp h
  split at h
  · cases h
  · next read tail hm =>
    have hall : read.All P := readMembersFrom_invariant (I := Object.All P)
      (fun key read s next rest hr hn => readField_all hread hr hn) Object.all_empty hm
    split at h
    · cases h
    · next o hc =>
      cases h
      refine ⟨o, rfl, fun key w hw => ?_⟩
      rw [get?_of_complete hc] at hw
      cases hg : read.get? key with
      | some u =>
        rw [hg] at hw
        cases hw
        exact hall key w hg
      | none =>
        rw [hg, Option.none_or, defaultOf] at hw
        obtain ⟨field, hfield, hd⟩ := Option.bind_eq_some_iff.mp hw
        exact hdefault field (List.mem_of_find?_eq_some hfield) w hd

theorem readRecordItems_all {name : String} (h : readRecordItems name fields s = .ok (v, rest)) :
    ∃ o, v = .object o ∧ o.All P := by
  have h := settleList_eq_ok_iff.mp h
  split at h
  · cases h
  · next o tail ho =>
    obtain ⟨_, -, he⟩ := map_eq_ok_iff.mp h
    cases he
    exact ⟨o, rfl, readFieldItems_all hread hdefault Object.all_empty ho⟩

end

mutual
/-- Whether the defaults of a shape are within bounds where they are filled in. -/
def Shape.DefaultsBounded : Shape → Nat → Prop
  | .list item, depth + 1 => item.DefaultsBounded depth
  | .record _ fields, depth + 1 => fields.DefaultsBounded depth
  | _, _ => True

def Fields.DefaultsBounded : Fields → Nat → Prop
  | .nil, _ => True
  | .cons _ shape default rest, depth => shape.DefaultsBounded depth ∧
      (∀ v, default = some v → Bounded depth v.json) ∧ rest.DefaultsBounded depth
end

section
variable {depth : Nat} {s rest : List Piece} {v : Value}

theorem bounded_number {positive : Bool} {n : Number}
    (h : readNumber positive s = .ok (n, rest)) : Bounded depth (.number n) where
  nests := Nat.zero_le depth
  whole m hm i hi := by
    obtain rfl := List.mem_singleton.mp hm
    subst hi
    exact whole_of_readNumber h

theorem bounded_of_no_numbers {t : Json} (hn : t.nesting = 0) (hw : t.numbers = []) :
    Bounded depth t where
  nests := hn ▸ Nat.zero_le depth
  whole n hm := by
    rw [hw] at hm
    cases hm

theorem readScalar_bounded (h : readScalar s = .ok (v, rest)) : Bounded depth v.json := by
  unfold readScalar at h
  split at h
  case h_1 => cases h
  case h_5 =>
    obtain ⟨⟨n, _⟩, hn, he⟩ := map_eq_ok_iff.mp h
    cases he
    exact bounded_number hn
  case h_7 =>
    split at h
    · obtain ⟨⟨n, _⟩, hn, he⟩ := map_eq_ok_iff.mp h
      cases he
      exact bounded_number hn
    · cases h
  all_goals
    obtain ⟨_, -, he⟩ := map_eq_ok_iff.mp h
    cases he
    exact bounded_of_no_numbers rfl rfl

theorem readValue_bounded (h : readValue depth s = .ok (v, rest)) : Bounded depth v.json := by
  induction depth generalizing s v rest with
  | zero =>
    cases spelled_of_readValue h with
    | scalar _ _ h => exact readScalar_bounded h
  | succ depth ih =>
    cases spelled_of_readValue h with
    | list _ hi =>
      have hitems := readItems_forall (fun _ _ _ hv => ih hv) hi
      exact bounded_array_iff.mpr (List.forall_mem_map.mpr hitems)
    | object _ ho =>
      have hmembers := readObject_all (fun _ _ _ hv => ih hv) ho
      exact bounded_object_iff.mpr (Object.forall_members_iff.mpr hmembers)
    | scalar _ _ h => exact readScalar_bounded h

theorem readNatural_bounded {name : String} {most : Nat}
    (h : readNatural name most s = .ok (v, rest)) : Bounded depth v.json := by
  unfold readNatural at h
  simp only at h
  split at h
  · exact absurd h refuse_ne_ok
  · cases h
  · next n tail hn =>
    have hread : ∃ positive s', readNumber positive s' = .ok (n, tail) := by
      split at hn
      · exact ⟨_, _, Option.some.inj hn⟩
      · split at hn
        · exact ⟨_, _, Option.some.inj hn⟩
        · cases hn
    obtain ⟨positive, s', hread⟩ := hread
    split at h
    · cases h
    · next w hw =>
      cases h
      obtain ⟨k, -, rfl, rfl⟩ := naturalMismatch_eq_ok_iff.mp hw
      exact bounded_number hread

def Shape.ReadBounded (shape : Shape) : Prop :=
  ∀ depth s v rest, shape.DefaultsBounded depth → shape.read depth s = .ok (v, rest) →
    Bounded depth v.json

theorem Fields.readers_bounded : ∀ {fields : Fields}, (∀ shape ∈ fields.shapes, shape.ReadBounded) →
    fields.DefaultsBounded depth → ∀ field ∈ fields.readers depth,
      (∀ s v rest, field.read s = .ok (v, rest) → Bounded depth v.json) ∧
        ∀ v, field.default = some v → Bounded depth v.json
  | .nil, _, _, field, hfield => by
    rw [readers] at hfield
    cases hfield
  | .cons name shape default more, hfields, hd, field, hfield => by
    obtain ⟨hshape, hmore⟩ := List.forall_mem_cons.mp hfields
    obtain ⟨hown, hdefault, hrest⟩ := hd
    rw [readers] at hfield
    rcases List.mem_cons.mp hfield with rfl | hfield
    · exact ⟨fun s v rest h => hshape depth s v rest hown h, hdefault⟩
    · exact readers_bounded hmore hrest field hfield

theorem Shape.readBounded_record (name : String) {fields : Fields}
    (hfields : ∀ shape ∈ fields.shapes, shape.ReadBounded) :
    (Shape.record name fields).ReadBounded := by
  intro depth s v rest hd h
  simp only [Shape.read] at h
  split at h
  · cases h
  · cases h
  · have hreaders := Fields.readers_bounded hfields hd
    obtain ⟨o, rfl, ho⟩ := readRecordMembers_all (fun f hf => (hreaders f hf).1)
      (fun f hf => (hreaders f hf).2) h
    exact bounded_object_iff.mpr (Object.forall_members_iff.mpr ho)
  · have hreaders := Fields.readers_bounded hfields hd
    obtain ⟨o, rfl, ho⟩ := readRecordItems_all (fun f hf => (hreaders f hf).1)
      (fun f hf => (hreaders f hf).2) h
    exact bounded_object_iff.mpr (Object.forall_members_iff.mpr ho)
  · exact absurd h refuse_ne_ok

theorem Shape.Plain.readBounded {shape : Shape} (h : shape.Plain) : shape.ReadBounded :=
  fun _ _ _ _ _ hr => readValue_bounded (h.readValue_of_read hr)

theorem Shape.readBounded (shape : Shape) : shape.ReadBounded := by
  induction shape using Shape.induction with
  | any => exact Plain.any.readBounded
  | object => exact Plain.object.readBounded
  | string => exact Plain.string.readBounded
  | boolean => exact Plain.boolean.readBounded
  | natural name most =>
    intro depth s v rest _ h
    rw [Shape.read] at h
    exact readNatural_bounded h
  | list item ih =>
    intro depth s v rest hd h
    simp only [Shape.read] at h
    split at h
    · cases h
    · next tail depth hs =>
      obtain ⟨⟨vs, after⟩, hi, he⟩ := map_eq_ok_iff.mp h
      cases he
      have hitems := readItems_forall (fun s v rest hv => ih depth s v rest hd hv) hi
      exact bounded_array_iff.mpr (List.forall_mem_map.mpr hitems)
    · exact absurd h refuse_ne_ok
  | record name fields ih => exact readBounded_record name ih

theorem Shape.parsePieces_bounded {shape : Shape} (hd : shape.DefaultsBounded depthLimit)
    (h : shape.parsePieces s = .ok v) : Bounded depthLimit v.json := by
  obtain ⟨rest, hr, -⟩ := readWhole_eq_ok_iff.mp h
  exact shape.readBounded depthLimit s v rest hd hr

end

end ToolPipeline.Json
