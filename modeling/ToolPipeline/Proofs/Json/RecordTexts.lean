import ToolPipeline.Proofs.Json.RecordMembers

/-! Records as whole texts. A text that spells a value is read as a record if that value is one and
no field is given twice; a list of more items than there are fields is taken for a flaw. -/

namespace ToolPipeline.Json

section
variable {s rest tail : List Piece} {depth : Nat}

theorem readListEnd_of_closing (h : skipSpace s = .char ']' :: rest) :
    readListEnd s = .ok rest := by
  simp only [readListEnd, h]

theorem readListEnd_of_nextItem (h : nextItem false s = .ok (true, tail)) :
    readListEnd s = .error (.ahead .trailingCharacters tail) := by
  unfold nextItem at h
  split at h
  · cases h
  · cases h
  · next p next hclose hs =>
    simp only [Bool.false_eq_true, if_false] at h
    split at h
    · next hp =>
      subst hp
      obtain ⟨after, ha, he⟩ := map_eq_ok_iff.mp h
      cases he
      unfold afterListComma at ha
      simp only [readListEnd, hs]
      split at ha
      · cases ha
      · cases ha
      · next hend =>
        cases ha
        split
        · next hs => exact absurd hs (hend _)
        · rfl
    · cases h

theorem nextItem_of_closing (first : Bool) (h : skipSpace s = .char ']' :: rest) :
    nextItem first s = .ok (false, .char ']' :: rest) := by
  simp only [nextItem, h]

end

section
variable {depth index : Nat} {texts : List TextField} {helds : List ValueField} {read : Object}
  {s rest : List Piece} {expected expected' : String}

theorem readFieldItems_of_closing (ha : Agreeing depth texts helds)
    (hs : skipSpace s = .char ']' :: rest) {w : Value}
    (hw : checkFieldItems expected' index read helds [] = .ok w) :
    ∃ o after, w = .object o ∧ readFieldItems expected index read texts s = .ok (o, after) ∧
      readListEnd after = .ok rest := by
  induction ha generalizing index read s with
  | nil =>
    cases hw
    exact ⟨read, s, rfl, rfl, readListEnd_of_closing hs⟩
  | @cons text held texts helds hname hdefault hread ha ih =>
    unfold checkFieldItems at hw
    unfold readFieldItems
    rw [nextItem_of_closing _ hs, hdefault]
    split at hw
    · cases hw
    · simp only [hname]
      exact ih rfl hw

theorem readFieldItems_misjudged_of_closing (ha : Agreeing depth texts helds)
    (hs : skipSpace s = .char ']' :: rest) {m : Misfit}
    (hm : checkFieldItems expected' index read helds [] = .error m) :
    Misjudged (readFieldItems expected index read texts s) := by
  induction ha generalizing index read s with
  | nil => cases hm
  | @cons text held texts helds hname hdefault hread ha ih =>
    unfold checkFieldItems at hm
    unfold readFieldItems
    rw [nextItem_of_closing _ hs, hdefault]
    split at hm
    · exact ⟨_, rfl, rfl⟩
    · simp only [hname]
      exact ih rfl hm

/-- What becomes of a list that spells the fields of a record in order. -/
structure FieldItems (expected expected' : String) (index : Nat) (read : Object)
    (texts : List TextField) (helds : List ValueField) (s rest : List Piece) (vs : List Value) :
    Prop where
  misfit : ∀ m, checkFieldItems expected' index read helds vs = .error m →
    Misjudged (readFieldItems expected index read texts s)
  fit : ∀ w, checkFieldItems expected' index read helds vs = .ok w →
    ∃ o after, w = .object o ∧ readFieldItems expected index read texts s = .ok (o, after) ∧
      (vs.length ≤ texts.length → readListEnd after = .ok rest) ∧
      (texts.length < vs.length →
        ∃ left, readListEnd after = .error (.ahead .trailingCharacters left))

theorem readItemsFrom_extends {budget : Nat} {items us : List Value}
    (hs : readItemsFrom (readValue depth) budget index items s = .ok (us, rest)) :
    ∃ vs, us = items.reverse ++ vs := by
  have hread (s : List Piece) (v : Value) (rest : List Piece)
      (hv : readValue depth s = .ok (v, rest)) : Judged True (readValue depth s) (v, rest) :=
    ⟨fun _ => hv, fun hn => absurd trivial hn⟩
  obtain ⟨vs, he, -⟩ := judged_items hread hs
  exact ⟨vs, he⟩

theorem length_lt_of_item {first : Bool} {tail next : List Piece} {v : Value}
    (hn : nextItem first s = .ok (true, tail)) (hv : readValue depth tail = .ok (v, next)) :
    next.length < s.length := by
  obtain ⟨start, hf, rfl⟩ := follows_of_nextItem hn
  rw [readValue_skipSpace] at hv
  have hnext := (PassesItem.of_value (passesValue_of_readValue hv)).length_lt
  exact Nat.lt_of_lt_of_le hnext hf.length_le

theorem FieldItems.cons {text : TextField} {held : ValueField} {v : Value} {vs : List Value}
    {tail next : List Piece} (hname : text.name = held.name)
    (hkeep : ∀ w, held.read v = .ok w → w = v)
    (hn : nextItem (index == 0) s = .ok (true, tail))
    (hj : Judged (held.read v = .ok v) (text.read tail) (v, next))
    (h : FieldItems expected expected' (index + 1) (read.insert held.name v) texts helds next rest
      vs) :
    FieldItems expected expected' index read (text :: texts) (held :: helds) s rest (v :: vs) := by
  constructor
  · intro m hm
    unfold checkFieldItems at hm
    unfold readFieldItems
    simp only [hn]
    split at hm
    · next he =>
      have hnot : ¬ held.read v = .ok v := fun hr => by
        rw [hr] at he
        cases he
      obtain ⟨f, hf, hmis⟩ := hj.misfit hnot
      simp only [hf]
      exact ⟨_, rfl, hmis⟩
    · next w hw =>
      have hr := within_eq_ok_iff.mp hw
      obtain rfl := hkeep w hr
      simp only [hj.fit hr, hname]
      exact h.misfit m hm
  · intro w hw
    unfold checkFieldItems at hw
    unfold readFieldItems
    simp only [hn]
    split at hw
    · cases hw
    · next u hu =>
      have hr := within_eq_ok_iff.mp hu
      obtain rfl := hkeep u hr
      simp only [hj.fit hr, hname]
      obtain ⟨o, after, ho, hread, hle, hlt⟩ := h.fit w hw
      refine ⟨o, after, ho, hread, fun hl => hle ?_, fun hl => hlt ?_⟩
      · exact Nat.le_of_succ_le_succ hl
      · exact Nat.lt_of_succ_lt_succ hl

theorem fieldItems_of_readItemsFrom (ha : Agreeing depth texts helds)
    (hk : ∀ held ∈ helds, ∀ v w, held.read v = .ok w → w = v) {budget : Nat}
    {items us : List Value} (hb : s.length < budget) (hindex : 0 < index ∨ texts ≠ [])
    (hs : readItemsFrom (readValue depth) budget index items s = .ok (us, rest)) :
    ∃ vs, us = items.reverse ++ vs ∧
      FieldItems expected expected' index read texts helds s rest vs := by
  induction ha generalizing budget index read items s with
  | nil =>
    -- no field is left: the list ends here, or a comma is one thing too many
    cases budget with
    | zero => exact absurd hb (Nat.not_lt_zero _)
    | succ budget =>
      have hpos : (index == 0) = false := by
        have h0 : 0 < index := hindex.resolve_right fun h => h rfl
        simpa using Nat.ne_of_gt h0
      unfold readItemsFrom at hs
      rw [hpos] at hs
      split at hs
      · cases hs
      · next hn =>
        obtain ⟨tail, rfl, hclose⟩ := skipSpace_of_nextItem hn
        cases hs
        refine ⟨[], (List.append_nil _).symm, ⟨fun m hm => ?_, fun w hw => ?_⟩⟩
        · cases hm
        · cases hw
          exact ⟨read, s, rfl, rfl, fun _ => readListEnd_of_closing hclose,
            fun hl => absurd hl (Nat.not_lt_zero _)⟩
      · next tail hn =>
        split at hs
        · cases hs
        · next v next hv =>
          obtain ⟨vs, rfl⟩ := readItemsFrom_extends hs
          refine ⟨v :: vs, by simp, ⟨fun m hm => ?_, fun w hw => ?_⟩⟩
          · cases hm
          · cases hw
            exact ⟨read, s, rfl, rfl, fun hl => absurd hl (Nat.not_succ_le_zero _),
              fun _ => ⟨tail, readListEnd_of_nextItem hn⟩⟩
  | @cons text held texts helds hname hdefault hread ha ih =>
    have ha' : Agreeing depth (text :: texts) (held :: helds) := .cons hname hdefault hread ha
    obtain ⟨hkeep, hk⟩ := List.forall_mem_cons.mp hk
    cases budget with
    | zero => exact absurd hb (Nat.not_lt_zero _)
    | succ budget =>
      unfold readItemsFrom at hs
      split at hs
      · cases hs
      · next hn =>
        obtain ⟨tail, rfl, hclose⟩ := skipSpace_of_nextItem hn
        cases hs
        refine ⟨[], (List.append_nil _).symm,
          fun m hm => readFieldItems_misjudged_of_closing ha' hclose hm, fun w hw => ?_⟩
        obtain ⟨o, after, ho, hr, hend⟩ := readFieldItems_of_closing ha' hclose hw
        exact ⟨o, after, ho, hr, fun _ => hend, fun hl => absurd hl (Nat.not_lt_zero _)⟩
      · next tail hn =>
        split at hs
        · cases hs
        · next v next hv =>
          have hlen := length_lt_of_item hn hv
          obtain ⟨vs, rfl, h⟩ := @ih _ (read.insert held.name v) _ hk _ _ (by omega)
            (.inl (Nat.succ_pos _)) hs
          exact ⟨v :: vs, by simp, .cons hname (hkeep v) hn (hread _ _ _ hv) h⟩

end

def passOver (s : List Piece) : Result Unit := (skipValue s).map ((), ·)

/-- The names of the members of the object that a text spells, in order. Their values are passed
over; where that fails there are no names. -/
def namesIn (s : List Piece) : List String :=
  match skipSpace s with
  | .char '{' :: rest =>
    match readEntries passOver rest with
    | .ok (entries, _) => entries.map Prod.fst
    | .error _ => []
  | _ => []

section
variable {s tail after : List Piece} {depth : Nat}

theorem namesIn_of_readNamed {value : String → List Piece → Result Value}
    (hv : ∀ key s v rest, value key s = .ok (v, rest) → skipValue s = .ok rest)
    (hs : skipSpace s = .char '{' :: tail) {entries : List (String × Value)}
    (h : readNamed value tail = .ok (entries, after)) : namesIn s = entries.map Prod.fst := by
  have hstep (key : String) (read : List (String × Value)) (names : List (String × Unit))
      (s : List Piece) (next : List (String × Value)) (rest : List Piece)
      (hr : read.map Prod.fst = names.map Prod.fst)
      (hn : readEntry (value key) key read s = .ok (next, rest)) :
      ∃ next', readEntry passOver key names s = .ok (next', rest) ∧
        next.map Prod.fst = next'.map Prod.fst := by
    obtain ⟨⟨v, tail⟩, hm, he⟩ := map_eq_ok_iff.mp hn
    cases he
    obtain ⟨u, hu, -⟩ := readMemberValue_sim (R := fun _ _ => True) (fun s v rest hr =>
      ⟨(), map_eq_ok_iff.mpr ⟨rest, hv key s v rest hr, rfl⟩, trivial⟩) hm
    exact ⟨names ++ [(key, u)], map_eq_ok_iff.mpr ⟨(u, rest), hu, rfl⟩, by simp [hr]⟩
  have hnone : ([] : List (String × Value)).map Prod.fst =
      ([] : List (String × Unit)).map Prod.fst := rfl
  obtain ⟨names, hnames, he⟩ := readMembersFrom_sim hstep hnone h
  have hnames : readEntries passOver tail = .ok (names, after) := hnames
  simp only [namesIn, hs, hnames, he]

theorem namesIn_of_readEntries (hs : skipSpace s = .char '{' :: tail)
    {entries : List (String × Value)}
    (h : readEntries (readValue depth) tail = .ok (entries, after)) :
    namesIn s = entries.map Prod.fst :=
  namesIn_of_readNamed (readsFields_readValue [] depth).passes hs h

theorem namesIn_of_not_object (hs : ∀ tail, skipSpace s ≠ .char '{' :: tail) : namesIn s = [] := by
  unfold namesIn
  split
  · next h => exact absurd h (hs _)
  · rfl

end

section
variable {depth : Nat} {name : String} {fields : Fields} {s rest : List Piece} {v w : Value}

def Overlong (fields : Fields) (v : Value) : Prop := ∃ vs, v = .array vs ∧ fields.length < vs.length

theorem failsWith_settleList {α : Type} (x : Result α) : FailsWith x (settleList x) := by
  rintro f rfl
  unfold settleList
  simp only
  split
  · exact ⟨f, rfl, rfl⟩
  · split <;> exact ⟨_, rfl, rfl⟩

theorem read_record_eq_refuse (hlist : ∀ tail, skipSpace s ≠ .char '[' :: tail)
    (hobject : ∀ tail, skipSpace s ≠ .char '{' :: tail) :
    (Shape.record name fields).read depth s = refuse ("struct " ++ name) (skipSpace s) := by
  simp only [Shape.read]
  split
  · next hs => exact absurd hs (hobject _)
  · next hs => exact absurd hs (hlist _)
  · next hs => exact absurd hs (hobject _)
  · next hs => exact absurd hs (hlist _)
  · rfl

theorem settleList_eq_ok_iff {α : Type} {x : Result α} {p : α × List Piece} :
    settleList x = .ok p ↔ x = .ok p := by
  unfold settleList
  split
  · split
    · simp
    · split <;> simp
  · rfl

theorem Fields.length_readers (depth : Nat) :
    ∀ fields : Fields, (fields.readers depth).length = fields.length
  | .nil => by
    rw [Fields.readers]
    rfl
  | .cons _ _ _ rest => by
    rw [Fields.readers, List.length_cons, Fields.length_readers depth rest]
    rfl

theorem check_record_array (name : String) (fields : Fields) (vs : List Value) :
    (Shape.record name fields).check (.array vs) =
      checkFieldItems (listExpectation name fields.checkers.length) 0 Object.empty fields.checkers
        vs := by
  have ho : (Value.array vs).asObject? = none :=
    Value.asObject?_eq_none_iff.mpr fun o he => absurd (congrArg Value.kind he) nofun
  simp only [Shape.check, checkRecord, ho, Value.items?_array]

theorem check_record_scalar (hlist : ∀ vs, v ≠ .array vs) (hobject : ∀ o, v ≠ .object o) :
    (Shape.record name fields).check v ≠ .ok w := by
  have ho : v.asObject? = none := Value.asObject?_eq_none_iff.mpr hobject
  have hi : v.items? = none := by
    cases hv : v.items? with
    | none => rfl
    | some vs => exact absurd (Value.items?_eq_some_iff.mp hv) (hlist vs)
  simp only [Shape.check, checkRecord, ho, hi]
  exact wrongType_ne_ok

theorem Fields.Plain.keeps : ∀ {fields : Fields}, fields.Plain →
    ∀ held ∈ fields.checkers, ∀ v w, held.read v = .ok w → w = v
  | .nil, _ => by
    rw [Fields.checkers]
    exact List.forall_mem_nil _
  | .cons _ _ _ _, h => by
    rw [Fields.checkers]
    exact List.forall_mem_cons.mpr ⟨fun v w => h.1.eq_of_check, Fields.Plain.keeps h.2⟩

/-- Fields that can be read from texts and from held values alike. -/
structure Fields.Readable (fields : Fields) : Prop where
  plain : fields.Plain
  distinct : (fields.checkers.map FieldReader.name).Nodup
  nonempty : fields.length ≠ 0

theorem Fields.Readable.kept (hf : fields.Readable) : PlainFields fields.checkers :=
  ⟨hf.distinct, hf.plain.keeps⟩

theorem Fields.Readable.fieldItems (hf : fields.Readable) {tail : List Piece} {vs : List Value}
    (h : readItems (readValue depth) tail = .ok (vs, rest)) :
    FieldItems (listExpectation name (fields.readers depth).length)
      (listExpectation name fields.checkers.length) 0 Object.empty (fields.readers depth)
      fields.checkers tail rest vs := by
  have hne : fields.readers depth ≠ [] := fun he =>
    hf.nonempty (by rw [← Fields.length_readers depth, he, List.length_nil])
  obtain ⟨_, rfl, hitems⟩ := fieldItems_of_readItemsFrom (hf.plain.agreeing depth) hf.kept.keeps
    (Nat.lt_succ_self _) (.inr hne) h
  exact hitems

/-- A text that spells a value is read as a record if the value is one. -/
theorem Fields.Readable.read_of_check (hf : fields.Readable)
    (hv : readValue depth s = .ok (v, rest)) (hw : (Shape.record name fields).check v = .ok w)
    (hn : GivenOnce fields.checkers (namesIn s)) (hlong : ¬ Overlong fields v) :
    (Shape.record name fields).read depth s = .ok (w, rest) := by
  cases spelled_of_readValue hv with
  | @list depth _ tail _ vs hs hi =>
    rw [check_record_array] at hw
    obtain ⟨o, after, rfl, hr, hend, -⟩ := (hf.fieldItems hi).fit w hw
    have hle : vs.length ≤ (fields.readers depth).length := by
      rw [Fields.length_readers]
      exact Nat.le_of_not_lt fun hlt => hlong ⟨vs, rfl, hlt⟩
    simp only [Shape.read, hs, readRecordItems, hr, hend hle]
    rfl
  | object hs ho =>
    obtain ⟨entries, after, he, rfl, rfl⟩ := entries_of_readObject ho
    rw [checkRecord_object] at hw
    rw [namesIn_of_readEntries hs he] at hn
    simp only [Shape.read, hs]
    exact readRecordMembers_of_check (hf.plain.agreeing _) hf.kept (readsFields_readValue ..) he hw
      hn
  | scalar hlist hobject h =>
    have hh := headed_of_readScalar h
    exact absurd hw (check_record_scalar hh.list hh.object)

/-- If the value is no record, or a field is given twice, the text has a mismatch. -/
theorem Fields.Readable.read_misjudged (hf : fields.Readable)
    (hv : readValue depth s = .ok (v, rest))
    (hno : ¬ ((∃ w, (Shape.record name fields).check v = .ok w) ∧
      GivenOnce fields.checkers (namesIn s))) :
    Misjudged ((Shape.record name fields).read depth s) := by
  cases spelled_of_readValue hv with
  | @list depth _ tail _ vs hs hi =>
    have hobject (tail : List Piece) : skipSpace s ≠ .char '{' :: tail := by simp [hs]
    have hn : GivenOnce fields.checkers (namesIn s) := by
      rw [namesIn_of_not_object hobject]
      exact List.nodup_nil
    cases hc : (Shape.record name fields).check (.array vs) with
    | ok w => exact absurd ⟨⟨w, hc⟩, hn⟩ hno
    | error m =>
      rw [check_record_array] at hc
      obtain ⟨f, hr, hm⟩ := (hf.fieldItems hi).misfit m hc
      simp only [Shape.read, hs, readRecordItems, hr]
      exact Misjudged.failsWith ⟨f, rfl, hm⟩ (failsWith_settleList _)
  | object hs ho =>
    obtain ⟨entries, after, he, rfl, rfl⟩ := entries_of_readObject ho
    rw [checkRecord_object, namesIn_of_readEntries hs he] at hno
    simp only [Shape.read, hs]
    exact readRecordMembers_misjudged (hf.plain.agreeing _) (readsFields_readValue ..) he hno
  | scalar hlist hobject h =>
    rw [read_record_eq_refuse hlist hobject]
    have hs : Spelled depth s v rest := .scalar hlist hobject h
    exact refuse_misjudged hs _

/-- A list that goes on after all fields is no more than one that is followed by something. -/
theorem Fields.Readable.read_overlong (hf : fields.Readable)
    (hv : readValue depth s = .ok (v, rest)) (hw : (Shape.record name fields).check v = .ok w)
    (hlong : Overlong fields v) :
    ∃ left, (Shape.record name fields).read depth s = .error (.ahead .trailingCharacters left) := by
  obtain ⟨vs, rfl, hlt⟩ := hlong
  generalize hu : Value.array vs = u at hv
  cases spelled_of_readValue hv with
  | @list depth _ tail _ us hs hi =>
    obtain rfl := Value.array_inj.mp hu
    rw [check_record_array] at hw
    obtain ⟨o, after, rfl, hr, -, hend⟩ := (hf.fieldItems hi).fit w hw
    obtain ⟨left, hleft⟩ := hend (by rwa [Fields.length_readers])
    refine ⟨left, ?_⟩
    simp only [Shape.read, hs, readRecordItems, hr, hleft]
    rfl
  | object hs ho => cases congrArg Value.kind hu
  | scalar hlist hobject h => exact absurd hu.symm ((headed_of_readScalar h).list vs)

end

section
variable {depth index : Nat} {texts : List TextField} {read o : Object} {expected : String}
  {s rest after : List Piece}

/-- Where every member is a field, a record is a value. The names of the members are found by
passing over their values. -/
theorem readMembersFrom_of_readField
    (hread : ∀ text ∈ texts, ∀ s r, text.read s = .ok r → readValue depth s = .ok r)
    {budget : Nat} {first : Bool}
    (hs : readMembersFrom (readField texts) budget first read s = .ok (o, rest)) :
    ∃ more : List (String × Unit),
      (∀ names, readMembersFrom (readEntry passOver) budget first names s =
        .ok (names ++ more, rest)) ∧
      ((∀ m ∈ more, (texts.find? (·.name == m.1)).isSome) → ∀ p,
        ∃ q, readMembersFrom (readAny depth) budget first p s = .ok (q, rest)) := by
  induction budget generalizing first read s with
  | zero =>
    cases hs
    exact ⟨[], fun names => by rw [List.append_nil]; rfl, fun _ p => ⟨p, rfl⟩⟩
  | succ budget ih =>
    unfold readMembersFrom at hs
    split at hs
    · cases hs
    · next tail hn =>
      cases hs
      refine ⟨[], fun names => ?_, fun _ p => ⟨p, ?_⟩⟩
      · rw [List.append_nil, readMembersFrom]
        simp only [hn]
      · rw [readMembersFrom]
        simp only [hn]
    · next key tail hn =>
      split at hs
      · cases hs
      · next read' next hm =>
        obtain ⟨more, hnames, hvalues⟩ := ih hs
        have hpass : readMemberValue passOver key tail = .ok ((), next) ∧
            ((texts.find? (·.name == key)).isSome →
              ∃ v, readMemberValue (readValue depth) key tail = .ok (v, next)) := by
          unfold readField at hm
          split at hm
          · next hnone =>
            obtain ⟨⟨u, rest'⟩, hu, he⟩ := map_eq_ok_iff.mp hm
            cases he
            exact ⟨hu, fun hsome => by simp [hnone] at hsome⟩
          · next text ht =>
            split at hm
            · cases hm
            · obtain ⟨⟨v, rest'⟩, hv, he⟩ := map_eq_ok_iff.mp hm
              cases he
              have hv' := readMemberValue_mono (hread text (List.mem_of_find?_eq_some ht)) hv
              obtain ⟨u, hu, -⟩ := readMemberValue_sim (R := fun _ _ => True) (fun s v rest hv =>
                ⟨(), map_eq_ok_iff.mpr ⟨rest, skipValue_of_readValue hv, rfl⟩, trivial⟩) hv'
              exact ⟨hu, fun _ => ⟨v, hv'⟩⟩
        refine ⟨(key, ()) :: more, fun names => ?_, fun hall p => ?_⟩
        · rw [readMembersFrom]
          simp only [hn, readEntry, hpass.1, Except.map]
          have hh := hnames (names ++ [(key, ())])
          rw [List.append_assoc] at hh
          exact hh
        · obtain ⟨hkey, hmore⟩ := List.forall_mem_cons.mp hall
          obtain ⟨v, hv⟩ := hpass.2 hkey
          rw [readMembersFrom]
          simp only [hn, readAny, hv, Except.map]
          exact hvalues hmore _

theorem skipSpace_of_readListEnd (h : readListEnd s = .ok rest) :
    skipSpace s = .char ']' :: rest := by
  unfold readListEnd at h
  split at h
  · cases h
  · next hs =>
    cases h
    exact hs
  · split at h <;> cases h
  · cases h

theorem readListEnd_of_readFieldItems {tail : List Piece} (hs : skipSpace s = .char ']' :: tail)
    (h : readFieldItems expected index read texts s = .ok (o, after)) :
    readListEnd after = .ok tail := by
  induction texts generalizing index read s with
  | nil =>
    cases h
    exact readListEnd_of_closing hs
  | cons text texts ih =>
    unfold readFieldItems at h
    rw [nextItem_of_closing _ hs] at h
    simp only at h
    split at h
    · cases h
    · exact ih rfl h

theorem readItemsFrom_of_readFieldItems
    (hread : ∀ text ∈ texts, ∀ s r, text.read s = .ok r → readValue depth s = .ok r)
    {budget : Nat} (hb : s.length < budget) (items : List Value)
    (h : readFieldItems expected index read texts s = .ok (o, after))
    (hend : readListEnd after = .ok rest) :
    ∃ vs, readItemsFrom (readValue depth) budget index items s = .ok (vs, rest) := by
  induction texts generalizing budget index read items s with
  | nil =>
    cases h
    cases budget with
    | zero => exact absurd hb (Nat.not_lt_zero _)
    | succ budget =>
      rw [readItemsFrom, nextItem_of_closing _ (skipSpace_of_readListEnd hend)]
      exact ⟨_, rfl⟩
  | cons text texts ih =>
    obtain ⟨hfirst, hothers⟩ := List.forall_mem_cons.mp hread
    cases budget with
    | zero => exact absurd hb (Nat.not_lt_zero _)
    | succ budget =>
      rw [readItemsFrom]
      unfold readFieldItems at h
      split at h
      · cases h
      · next tail hn =>
        split at h
        · cases h
        · next v next hv =>
          have hv := hfirst _ _ hv
          have hlen := length_lt_of_item hn hv
          simp only [hn, hv]
          exact ih hothers (by omega) _ h
      · next tail hn =>
        obtain ⟨after', rfl, hs⟩ := skipSpace_of_nextItem hn
        split at h
        · cases h
        · have hclose := readListEnd_of_readFieldItems rfl h
          rw [hend, Except.ok.injEq] at hclose
          simp only [hn, hclose]
          exact ⟨_, rfl⟩

end

section
variable {depth : Nat} {name : String} {fields : Fields} {s rest : List Piece} {w : Value}

theorem Fields.Plain.readValue_of_read : ∀ {fields : Fields}, fields.Plain → ∀ depth,
    ∀ text ∈ fields.readers depth, ∀ s r, text.read s = .ok r → readValue depth s = .ok r
  | .nil, _, depth => by
    rw [Fields.readers]
    exact List.forall_mem_nil _
  | .cons _ _ _ rest, h, depth => by
    rw [Fields.readers]
    refine List.forall_mem_cons.mpr ⟨fun s r hr => h.1.readValue_of_read hr, ?_⟩
    exact Fields.Plain.readValue_of_read h.2 depth

/-- A text that is read as a record spells a value, unless it has a member that is no field. -/
theorem Fields.Readable.readValue_of_read (hf : fields.Readable)
    (h : (Shape.record name fields).read depth s = .ok (w, rest))
    (hnames : ∀ key ∈ namesIn s, isField fields.checkers key = true) :
    ∃ v, readValue depth s = .ok (v, rest) := by
  have hread := hf.plain.readValue_of_read
  simp only [Shape.read] at h
  unfold readValue
  split at h
  · cases h
  · cases h
  · next tail depth hs =>
    unfold readRecordMembers at h
    rw [settleObject_eq_ok_iff] at h
    split at h
    · cases h
    · next read after hm =>
      split at h
      · cases h
      · next o hc =>
        cases h
        obtain ⟨more, hmore, hvalues⟩ := readMembersFrom_of_readField (hread depth) hm
        have hpassed : readEntries passOver tail = .ok (more, after) := hmore []
        have hin : namesIn s = more.map Prod.fst := by
          simp only [namesIn, hs, hpassed]
        have hall (m : String × Unit) (hm : m ∈ more) :
            ((fields.readers depth).find? (·.name == m.1)).isSome := by
          have hk := hnames m.1 (hin ▸ List.mem_map_of_mem hm)
          rcases (hf.plain.agreeing depth).find? m.1 with ⟨-, hh⟩ | ⟨text, held, ht, -, -⟩
          · simp [isField, hh] at hk
          · rw [ht]
            rfl
        obtain ⟨q, hq⟩ := hvalues hall Object.empty
        refine ⟨.object q, ?_⟩
        simp only [hs]
        exact map_eq_ok_iff.mpr ⟨(q, after.drop 1), map_eq_ok_iff.mpr ⟨(q, after), hq, rfl⟩, rfl⟩
  · next tail depth hs =>
    unfold readRecordItems at h
    rw [settleList_eq_ok_iff] at h
    split at h
    · cases h
    · next o after hitems =>
      obtain ⟨tail', hend, he⟩ := map_eq_ok_iff.mp h
      cases he
      obtain ⟨vs, hvs⟩ :=
        readItemsFrom_of_readFieldItems (hread depth) (Nat.lt_succ_self _) [] hitems hend
      refine ⟨.array vs, ?_⟩
      simp only [hs]
      exact map_eq_ok_iff.mpr ⟨(vs, rest), hvs, rfl⟩
  · exact absurd h refuse_ne_ok

end

section
variable {name : String} {fields : Fields} {s : List Piece} {v w : Value}

theorem readWhole_error {α : Type} {reader : List Piece → Result α} {f : Fault}
    (h : reader s = .error f) : readWhole reader s = .error (f.report s) := by
  simp only [readWhole, h, bind, Except.bind, mapError_error]

theorem readWhole_trailing {α : Type} {reader : List Piece → Result α} {a : α} {rest : List Piece}
    (h : reader s = .ok (a, rest)) (hend : readEnd rest ≠ .ok ()) :
    ∃ f, readWhole reader s = .error f ∧ f.cause = .flaw .trailingCharacters := by
  unfold readEnd at hend
  cases hs : skipSpace rest with
  | nil => exact absurd (by rw [hs]) hend
  | cons p tail =>
    refine ⟨(Fault.ahead .trailingCharacters (p :: tail)).report s, ?_, rfl⟩
    simp only [readWhole, h, readEnd, hs, bind, Except.bind, mapError_error]

theorem Fields.Readable.parsePieces_of_check (hf : fields.Readable)
    (hv : parsePieces s = .ok v) (hw : (Shape.record name fields).check v = .ok w)
    (hn : GivenOnce fields.checkers (namesIn s)) (hlong : ¬ Overlong fields v) :
    (Shape.record name fields).parsePieces s = .ok w := by
  obtain ⟨rest, hr, hend⟩ := readWhole_eq_ok_iff.mp hv
  exact readWhole_eq_ok_iff.mpr ⟨rest, hf.read_of_check hr hw hn hlong, hend⟩

theorem Fields.Readable.parsePieces_mismatch (hf : fields.Readable) {rest : List Piece}
    (hv : readValue depthLimit s = .ok (v, rest))
    (hno : ¬ ((∃ w, (Shape.record name fields).check v = .ok w) ∧
      GivenOnce fields.checkers (namesIn s))) :
    ∃ f, (Shape.record name fields).parsePieces s = .error f ∧ isMismatch f.cause = true := by
  obtain ⟨f, he, hm⟩ := hf.read_misjudged hv hno
  exact ⟨_, readWhole_error he, hm⟩

theorem Fields.Readable.parsePieces_overlong (hf : fields.Readable) (hv : parsePieces s = .ok v)
    (hw : (Shape.record name fields).check v = .ok w) (hlong : Overlong fields v) :
    ∃ f, (Shape.record name fields).parsePieces s = .error f ∧
      f.cause = .flaw .trailingCharacters := by
  obtain ⟨rest, hr, -⟩ := readWhole_eq_ok_iff.mp hv
  obtain ⟨left, he⟩ := hf.read_overlong hr hw hlong
  exact ⟨_, readWhole_error he, rfl⟩

theorem Fields.Readable.parsePieces_trailing (hf : fields.Readable) {rest : List Piece}
    (hv : readValue depthLimit s = .ok (v, rest)) (hend : readEnd rest ≠ .ok ())
    (hw : (Shape.record name fields).check v = .ok w)
    (hn : GivenOnce fields.checkers (namesIn s)) :
    ∃ f, (Shape.record name fields).parsePieces s = .error f ∧
      f.cause = .flaw .trailingCharacters := by
  by_cases hlong : Overlong fields v
  · obtain ⟨left, he⟩ := hf.read_overlong hv hw hlong
    exact ⟨_, readWhole_error he, rfl⟩
  · exact readWhole_trailing (hf.read_of_check hv hw hn hlong) hend

/-- A text that is no value is taken for a record only where the value of another member is passed
over. -/
theorem Fields.Readable.mem_namesIn_of_parsePieces (hf : fields.Readable) {f : Failure}
    (hv : parsePieces s = .error f) (hw : (Shape.record name fields).parsePieces s = .ok w) :
    ∃ key ∈ namesIn s, isField fields.checkers key = false := by
  refine Classical.byContradiction fun hno => ?_
  have hall (key : String) (hk : key ∈ namesIn s) : isField fields.checkers key = true := by
    cases hi : isField fields.checkers key with
    | true => rfl
    | false => exact absurd ⟨key, hk, hi⟩ hno
  obtain ⟨rest, hr, hend⟩ := readWhole_eq_ok_iff.mp hw
  obtain ⟨v, hread⟩ := hf.readValue_of_read hr hall
  have hok : parsePieces s = .ok v := readWhole_eq_ok_iff.mpr ⟨rest, hread, hend⟩
  rw [hv] at hok
  cases hok

end

end ToolPipeline.Json
