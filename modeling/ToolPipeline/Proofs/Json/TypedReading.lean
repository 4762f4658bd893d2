import ToolPipeline.Proofs.Json.HeldRecord

/-! Reading a text by a shape gives nothing else than reading it as a value does. -/

namespace ToolPipeline.Json

/-- The two brackets and everything else that a value can start with. -/
inductive Spelled : Nat → List Piece → Value → List Piece → Prop where
  | list {depth : Nat} {s tail rest : List Piece} {vs : List Value}
    (hs : skipSpace s = .char '[' :: tail) (h : readItems (readValue depth) tail = .ok (vs, rest)) :
    Spelled (depth + 1) s (.array vs) rest
  | object {depth : Nat} {s tail rest : List Piece} {o : Object}
    (hs : skipSpace s = .char '{' :: tail) (h : readObject (readValue depth) tail = .ok (o, rest)) :
    Spelled (depth + 1) s (.object o) rest
  | scalar {depth : Nat} {s rest : List Piece} {v : Value}
    (hlist : ∀ tail, skipSpace s ≠ .char '[' :: tail)
    (hobject : ∀ tail, skipSpace s ≠ .char '{' :: tail)
    (h : readScalar (skipSpace s) = .ok (v, rest)) : Spelled depth s v rest

section
variable {depth : Nat} {s rest : List Piece} {v : Value}

theorem spelled_of_readValue (h : readValue depth s = .ok (v, rest)) : Spelled depth s v rest := by
  unfold readValue at h
  split at h
  · next tail hs =>
    split at h
    · cases h
    · obtain ⟨⟨vs, after⟩, hi, he⟩ := map_eq_ok_iff.mp h
      cases he
      exact .list hs hi
  · next tail hs =>
    split at h
    · cases h
    · obtain ⟨⟨o, after⟩, ho, he⟩ := map_eq_ok_iff.mp h
      cases he
      exact .object hs ho
  · next hlist hobject => exact .scalar hlist hobject h

/-- The first unit of a scalar tells what kind of value it is. -/
structure Headed (s : List Piece) (v : Value) : Prop where
  list : ∀ vs, v ≠ .array vs
  object : ∀ o, v ≠ .object o
  string : ∀ t, v = .string t → ∃ tail, s = .char '"' :: tail
  bool : ∀ b, v = .bool b → ∃ tail, s = .char 't' :: tail ∨ s = .char 'f' :: tail

theorem headed_of_readScalar (h : readScalar s = .ok (v, rest)) : Headed s v := by
  have hne {v w : Value} (hk : v.kind ≠ w.kind) : v ≠ w := fun he => hk (he ▸ rfl)
  have hnumber (n : Number) (s : List Piece) : Headed s (.number n) :=
    ⟨fun vs => hne nofun, fun o => hne nofun, fun t he => absurd he (hne nofun),
      fun b he => absurd he (hne nofun)⟩
  unfold readScalar at h
  split at h
  case h_1 => cases h
  case h_2 =>
    obtain ⟨_, -, he⟩ := map_eq_ok_iff.mp h
    cases he
    exact ⟨fun vs => hne nofun, fun o => hne nofun, fun t he => absurd he (hne nofun),
      fun b he => absurd he (hne nofun)⟩
  case h_3 tail | h_4 tail =>
    obtain ⟨_, -, he⟩ := map_eq_ok_iff.mp h
    cases he
    exact ⟨fun vs => hne nofun, fun o => hne nofun, fun t he => absurd he (hne nofun),
      fun b _ => ⟨tail, by simp⟩⟩
  case h_5 =>
    obtain ⟨⟨n, _⟩, -, he⟩ := map_eq_ok_iff.mp h
    cases he
    exact hnumber n _
  case h_6 tail =>
    obtain ⟨_, -, he⟩ := map_eq_ok_iff.mp h
    cases he
    exact ⟨fun vs => hne nofun, fun o => hne nofun, fun t _ => ⟨tail, rfl⟩,
      fun b he => absurd he (hne nofun)⟩
  case h_7 =>
    split at h
    · obtain ⟨⟨n, _⟩, -, he⟩ := map_eq_ok_iff.mp h
      cases he
      exact hnumber n _
    · cases h

theorem refuse_ne_ok {α : Type} {expected : String} {r : α × List Piece} :
    refuse expected s ≠ .ok r := by
  unfold refuse
  split
  · simp
  · simp
  · split <;> simp

theorem readItemsFrom_mono {α : Type} {item item' : List Piece → Result α}
    (h : ∀ s r, item s = .ok r → item' s = .ok r) {budget index : Nat} {read : List α}
    {r : List α × List Piece} (hr : readItemsFrom item budget index read s = .ok r) :
    readItemsFrom item' budget index read s = .ok r := by
  induction budget generalizing index read s with
  | zero => exact hr
  | succ budget ih =>
    unfold readItemsFrom at hr ⊢
    split at hr
    · cases hr
    · next hn => simpa [hn] using hr
    · next s' hn =>
      split at hr
      · cases hr
      · next v rest hv =>
        simp only [h _ _ hv]
        exact ih hr

theorem Shape.Plain.readValue_of_read {shape : Shape} (h : shape.Plain)
    (hr : shape.read depth s = .ok (v, rest)) : readValue depth s = .ok (v, rest) := by
  induction h generalizing depth s v rest with
  | any => simpa only [Shape.read] using hr
  | object =>
    simp only [Shape.read] at hr
    unfold readValue
    split at hr
    · cases hr
    · next hs => simpa only [hs] using hr
    · exact absurd hr refuse_ne_ok
  | string =>
    simp only [Shape.read] at hr
    unfold readValue
    split at hr
    · next hs =>
      rw [hs]
      exact hr
    · exact absurd hr refuse_ne_ok
  | boolean =>
    simp only [Shape.read] at hr
    unfold readValue
    split at hr
    · next hs =>
      rw [hs]
      exact hr
    · next hs =>
      rw [hs]
      exact hr
    · exact absurd hr refuse_ne_ok
  | list _ ih =>
    simp only [Shape.read] at hr
    unfold readValue
    split at hr
    · cases hr
    · next hs =>
      simp only [hs]
      obtain ⟨⟨vs, tail⟩, hi, hv⟩ := map_eq_ok_iff.mp hr
      have hm := readItemsFrom_mono (fun s ⟨u, tail⟩ hir => ih hir) hi
      simp only [readItems, hm, Except.map]
      exact congrArg Except.ok hv
    · exact absurd hr refuse_ne_ok

def readAny (depth : Nat) (key : String) (o : Object) (s : List Piece) : Result Object :=
  (readMemberValue (readValue depth) key s).map fun (v, rest) => (o.insert key v, rest)

theorem readMemberValue_mono {α : Type} {value value' : List Piece → Result α} {key : String}
    (h : ∀ s r, value s = .ok r → value' s = .ok r) {r : α × List Piece}
    (hr : readMemberValue value key s = .ok r) : readMemberValue value' key s = .ok r := by
  unfold readMemberValue at hr ⊢
  split at hr
  · cases hr
  · next tail ht =>
    split at hr
    · cases hr
    · next r' hv => simpa only [h _ _ hv] using hr

theorem readObject_of_readValue {o : Object} (h : readValue depth s = .ok (.object o, rest)) :
    ∃ d tail, depth = d + 1 ∧ skipSpace s = .char '{' :: tail ∧
      readObject (readValue d) tail = .ok (o, rest) := by
  generalize hv : Value.object o = v at h
  cases spelled_of_readValue h with
  | list hs hi => exact absurd (congrArg Value.kind hv) nofun
  | object hs ho =>
    obtain rfl := Value.object_inj.mp hv
    exact ⟨_, _, rfl, hs, ho⟩
  | scalar hlist hobject hr => exact absurd hv.symm ((headed_of_readScalar hr).object o)

end

/-- Where one reader of items gives what another one gives, in other terms, it gives the list of
that. -/
theorem readItemsFrom_sim {α β : Type} {item : List Piece → Result α}
    {item' : List Piece → Result β} {f : β → α}
    (h : ∀ s a rest, item s = .ok (a, rest) → ∃ b, item' s = .ok (b, rest) ∧ f b = a)
    {budget index : Nat} {read : List β} {s : List Piece} {as : List α} {rest : List Piece}
    (hs : readItemsFrom item budget index (read.map f) s = .ok (as, rest)) :
    ∃ bs, readItemsFrom item' budget index read s = .ok (bs, rest) ∧ bs.map f = as := by
  induction budget generalizing index read s with
  | zero =>
    cases hs
    exact ⟨_, rfl, List.map_reverse⟩
  | succ budget ih =>
    unfold readItemsFrom at hs ⊢
    split at hs
    · cases hs
    · next tail =>
      cases hs
      exact ⟨read.reverse, rfl, List.map_reverse⟩
    · next tail =>
      split at hs
      · cases hs
      · next a next ha =>
        obtain ⟨b, hb, rfl⟩ := h _ _ _ ha
        simp only [hb]
        exact ih hs

theorem readMembersFrom_sim {σ τ : Type} {member : String → σ → List Piece → Result σ}
    {member' : String → τ → List Piece → Result τ} {R : σ → τ → Prop}
    (h : ∀ key read read' s next rest, R read read' → member key read s = .ok (next, rest) →
      ∃ next', member' key read' s = .ok (next', rest) ∧ R next next')
    {budget : Nat} {first : Bool} {read : σ} {read' : τ} {s : List Piece} {all : σ}
    {rest : List Piece} (hr : R read read')
    (hs : readMembersFrom member budget first read s = .ok (all, rest)) :
    ∃ all', readMembersFrom member' budget first read' s = .ok (all', rest) ∧ R all all' := by
  induction budget generalizing first read read' s with
  | zero =>
    cases hs
    exact ⟨_, rfl, hr⟩
  | succ budget ih =>
    unfold readMembersFrom at hs ⊢
    split at hs
    · cases hs
    · next tail =>
      cases hs
      exact ⟨_, rfl, hr⟩
    · next key tail =>
      split at hs
      · cases hs
      · next next tail' hm =>
        obtain ⟨next', hm', hn'⟩ := h _ _ _ _ _ _ hr hm
        simp only [hm']
        exact ih hn' hs

theorem readMembersFrom_invariant {σ : Type} {I : σ → Prop}
    {member : String → σ → List Piece → Result σ}
    (h : ∀ key read s next rest, I read → member key read s = .ok (next, rest) → I next)
    {budget : Nat} {first : Bool} {read all : σ} {s rest : List Piece} (hread : I read)
    (hs : readMembersFrom member budget first read s = .ok (all, rest)) : I all := by
  induction budget generalizing first read s with
  | zero =>
    cases hs
    exact hread
  | succ budget ih =>
    unfold readMembersFrom at hs
    split at hs
    · cases hs
    · cases hs
      exact hread
    · split at hs
      · cases hs
      · next next _ hm => exact ih (h _ _ _ _ _ hread hm) hs

theorem readMemberValue_sim {α β : Type} {value : List Piece → Result α}
    {value' : List Piece → Result β} {R : α → β → Prop} {key : String} {s : List Piece} {a : α}
    {rest : List Piece}
    (h : ∀ s a rest, value s = .ok (a, rest) → ∃ b, value' s = .ok (b, rest) ∧ R a b)
    (hs : readMemberValue value key s = .ok (a, rest)) :
    ∃ b, readMemberValue value' key s = .ok (b, rest) ∧ R a b := by
  unfold readMemberValue at hs ⊢
  split at hs
  · cases hs
  · next tail ht =>
    split at hs
    · cases hs
    · next r hv =>
      cases hs
      obtain ⟨b, hb, hab⟩ := h _ _ _ hv
      exact ⟨b, by simp only [hb], hab⟩

theorem readObject_mono {value value' : List Piece → Result Value}
    (h : ∀ s r, value s = .ok r → value' s = .ok r) {s : List Piece} {p : Object × List Piece}
    (hs : readObject value s = .ok p) : readObject value' s = .ok p := by
  obtain ⟨⟨o, after⟩, hm, rfl⟩ := map_eq_ok_iff.mp hs
  have hstep (key : String) (read read' : Object) (s : List Piece) (next : Object)
      (rest : List Piece) (hr : read = read')
      (hn : (readMemberValue value key s).map (fun (v, rest) => (read.insert key v, rest)) =
        .ok (next, rest)) :
      ∃ next', (readMemberValue value' key s).map (fun (v, rest) => (read'.insert key v, rest)) =
        .ok (next', rest) ∧ next = next' := by
    subst hr
    obtain ⟨r, hr, he⟩ := map_eq_ok_iff.mp hn
    exact ⟨next, map_eq_ok_iff.mpr ⟨r, readMemberValue_mono h hr, he⟩, rfl⟩
  obtain ⟨o', ho', rfl⟩ := readMembersFrom_sim hstep rfl hm
  exact map_eq_ok_iff.mpr ⟨(o, after), ho', rfl⟩

section
variable {fields : List TextField} {depth budget : Nat} {first : Bool} {read o r : Object}
  {s rest rest' : List Piece} {key : String}

theorem isSome_get?_of_readMembersFrom
    (h : readMembersFrom (readAny depth) budget first read s = .ok (o, rest))
    (hk : (read.get? key).isSome) : (o.get? key).isSome := by
  refine readMembersFrom_invariant (I := fun o => (o.get? key).isSome) ?_ hk h
  intro name read s next tail hread hm
  obtain ⟨⟨v, end'⟩, -, he⟩ := map_eq_ok_iff.mp hm
  cases he
  rw [Object.get?_insert]
  split
  · rfl
  · exact hread

theorem readAny_of_readField {field : TextField} {p : Object × List Piece}
    (hf : ∀ field ∈ fields, ∀ s r, field.read s = .ok r → readValue depth s = .ok r)
    (hk : fields.find? (·.name == key) = some field)
    (h : readField fields key read s = .ok p) : readAny depth key read s = .ok p := by
  unfold readField at h
  simp only [hk] at h
  split at h
  · cases h
  · obtain ⟨q, hq, he⟩ := map_eq_ok_iff.mp h
    have hv := readMemberValue_mono (hf field (List.mem_of_find?_eq_some hk)) hq
    exact map_eq_ok_iff.mpr ⟨q, hv, he⟩

/-- If every member of an object has a field, the members are those of the record. -/
theorem readMembersFrom_eq
    (hf : ∀ field ∈ fields, ∀ s r, field.read s = .ok r → readValue depth s = .ok r)
    (hr : readMembersFrom (readField fields) budget first read s = .ok (r, rest))
    (ho : readMembersFrom (readAny depth) budget first read s = .ok (o, rest'))
    (hk : ∀ key, (o.get? key).isSome → (fields.find? (·.name == key)).isSome) :
    r = o ∧ rest = rest' := by
  induction budget generalizing first read s with
  | zero =>
    cases hr
    cases ho
    exact ⟨rfl, rfl⟩
  | succ budget ih =>
    unfold readMembersFrom at hr ho
    split at hr
    · cases hr
    · next tail hn =>
      simp only [hn] at ho
      cases hr
      cases ho
      exact ⟨rfl, rfl⟩
    · next name tail hn =>
      simp only [hn] at ho
      split at hr
      · cases hr
      · next next tail' hm =>
        split at ho
        · cases ho
        · next next' tail'' hm' =>
          have hs : (o.get? name).isSome := by
            refine isSome_get?_of_readMembersFrom ho ?_
            obtain ⟨_, -, he⟩ := map_eq_ok_iff.mp hm'
            cases he
            simp
          obtain ⟨field, hfield⟩ := Option.isSome_iff_exists.mp (hk name hs)
          have he := readAny_of_readField hf hfield hm
          rw [hm', Except.ok.injEq] at he
          cases he
          exact ih hr ho

theorem settleObject_eq_ok_iff {α : Type} {x : Result α} {p : α × List Piece} :
    settleObject x = .ok p ↔ x = .ok p := by
  unfold settleObject
  split
  · split
    · simp
    · split <;> simp
  · rfl

theorem readRecordMembers_eq {v : Value}
    (hf : ∀ field ∈ fields, ∀ s r, field.read s = .ok r → readValue depth s = .ok r)
    (hr : readRecordMembers fields s = .ok (v, rest))
    (ho : readObject (readValue depth) s = .ok (o, rest'))
    (hk : ∀ key, (o.get? key).isSome = (fields.find? (·.name == key)).isSome) :
    v = .object o ∧ rest = rest' := by
  unfold readRecordMembers at hr
  rw [settleObject_eq_ok_iff] at hr
  obtain ⟨⟨_, tail⟩, hm', he⟩ := map_eq_ok_iff.mp ho
  cases he
  split at hr
  · cases hr
  · next r tail' hm =>
    obtain ⟨rfl, rfl⟩ := readMembersFrom_eq hf hm hm' fun key h => hk key ▸ h
    split at hr
    · cases hr
    · next p hc =>
      cases hr
      refine ⟨Value.object_inj.mpr (Object.ext_get? fun key => ?_), rfl⟩
      rw [get?_of_complete hc]
      cases hv : r.get? key with
      | some v => rfl
      | none =>
        have hn := hk key
        rw [hv, Option.isSome_none, eq_comm, Option.isSome_eq_false_iff,
          Option.isNone_iff_eq_none] at hn
        simp [defaultOf, hn]

end

section
variable {s : List Piece} {v : Value} {o : Object} {name : String} {fields : Fields}

theorem readWhole_eq_ok_iff {α : Type} {reader : List Piece → Result α} {a : α} :
    readWhole reader s = .ok a ↔ ∃ rest, reader s = .ok (a, rest) ∧ readEnd rest = .ok () := by
  have hm {x : Except Fault α} : x.mapError (·.report s) = .ok a ↔ x = .ok a := by
    cases x <;> simp [mapError_ok, mapError_error]
  simp only [readWhole, hm, bind_eq_ok_iff]
  constructor
  · rintro ⟨⟨b, rest⟩, hr, ⟨⟩, he, hb⟩
    cases hb
    exact ⟨rest, hr, he⟩
  · rintro ⟨rest, hr, he⟩
    exact ⟨(a, rest), hr, (), he, rfl⟩

/-- A text that spells an object with all the fields of a record, and no other members, spells that
record if it spells one at all. -/
theorem parsePieces_record_eq
    (hf : ∀ depth, ∀ field ∈ fields.readers depth, ∀ s r,
      field.read s = .ok r → readValue depth s = .ok r)
    (hk : ∀ depth key, (o.get? key).isSome =
      ((fields.readers depth).find? (·.name == key)).isSome)
    (hr : (Shape.record name fields).parsePieces s = .ok v)
    (ho : parsePieces s = .ok (.object o)) : v = .object o := by
  obtain ⟨rest, hr, -⟩ := readWhole_eq_ok_iff.mp hr
  obtain ⟨rest', ho, -⟩ := readWhole_eq_ok_iff.mp ho
  obtain ⟨depth, tail, hd, hs, ho⟩ := readObject_of_readValue ho
  simp only [Shape.read, hd, hs] at hr
  exact (readRecordMembers_eq (hf depth) hr ho (hk depth)).1

end

end ToolPipeline.Json
