import ToolPipeline.Proofs.Json.PlainShapes

/-! Reading a record from a held object: when it succeeds, and what every field then holds. -/

namespace ToolPipeline.Json

section
variable {σ ρ : Type} {fields : List (FieldReader σ ρ)} {read o : Object}

def defaultOf (fields : List (FieldReader σ ρ)) (name : String) : Option Value :=
  (fields.find? (·.name == name)).bind FieldReader.default

theorem defaultOf_cons (field : FieldReader σ ρ) (fields : List (FieldReader σ ρ))
    (name : String) :
    defaultOf (field :: fields) name =
      if field.name = name then field.default else defaultOf fields name := by
  by_cases h : field.name = name <;> simp [defaultOf, h]

theorem get?_of_complete (h : complete read fields = .ok o) (name : String) :
    o.get? name = (read.get? name).or (defaultOf fields name) := by
  induction fields generalizing read with
  | nil =>
    cases h
    simp [defaultOf]
  | cons field fields ih =>
    rw [defaultOf_cons]
    unfold complete at h
    cases hv : read.get? field.name with
    | some v =>
      rw [hv] at h
      rw [ih h]
      by_cases hn : field.name = name
      · simp [← hn, hv]
      · simp [hn]
    | none =>
      cases hd : field.default with
      | some v =>
        rw [hv, hd] at h
        rw [ih h, Object.get?_insert]
        by_cases hn : field.name = name
        · simp [← hn, hv]
        · simp [hn, Ne.symm hn]
      | none =>
        rw [hv, hd] at h
        cases h

/-- Only a field that has neither been read nor has a default can be missing. -/
theorem complete_ok_iff : (∃ o, complete read fields = .ok o) ↔
    ∀ field ∈ fields, ((read.get? field.name).or (defaultOf fields field.name)).isSome := by
  induction fields generalizing read with
  | nil => simp [complete]
  | cons field fields ih =>
    rw [List.forall_mem_cons, defaultOf_cons, if_pos rfl]
    unfold complete
    cases hv : read.get? field.name with
    | some v =>
      simp only [ih, Option.some_or, Option.isSome_some, true_and]
      refine forall₂_congr fun field' _ => ?_
      rw [defaultOf_cons]
      by_cases hn : field.name = field'.name
      · simp [← hn, hv]
      · simp [hn]
    | none =>
      cases hd : field.default with
      | some v =>
        simp only [ih, Option.none_or, Option.isSome_some, true_and]
        refine forall₂_congr fun field' _ => ?_
        rw [defaultOf_cons, Object.get?_insert]
        by_cases hn : field.name = field'.name
        · simp [← hn, hv, hd]
        · simp [hn, Ne.symm hn]
      | none => simp

end

section
variable {fields : List ValueField} {o read r : Object}

def readHeld (fields : List ValueField) (read : Object) (m : String × Value) :
    Except Misfit Object :=
  match fields.find? (·.name == m.1) with
  | none => .ok read
  | some field => within (.key m.1) ((field.read m.2).map (read.insert m.1))

/-- What the record read from an object holds under a name. -/
def filled? (fields : List ValueField) (o : Object) (name : String) : Option Value :=
  (fields.find? (·.name == name)).bind fun field =>
    match o.get? name with
    | some v => (field.read v).toOption
    | none => field.default

theorem checkMembers_eq_ok_iff {v : Value} : checkMembers fields o = .ok v ↔
    ∃ read r, o.toList.foldlM (readHeld fields) Object.empty = .ok read ∧
      complete read fields = .ok r ∧ v = .object r := by
  unfold checkMembers
  refine (bind_eq_ok_iff (x := o.toList.foldlM (readHeld fields) Object.empty)).trans ?_
  refine exists_congr fun read => ?_
  cases complete read fields <;> simp [misfit, eq_comm]

theorem readHeld_eq_ok_iff {m : String × Value} : readHeld fields read m = .ok r ↔
    (fields.find? (·.name == m.1) = none ∧ r = read) ∨
      ∃ field v, fields.find? (·.name == m.1) = some field ∧ field.read m.2 = .ok v ∧
        r = read.insert m.1 v := by
  unfold readHeld
  cases fields.find? (·.name == m.1) with
  | none => simp [eq_comm]
  | some field =>
    simp only [within_eq_ok_iff, map_eq_ok_iff]
    simp [eq_comm]

theorem get?_of_foldlM_readHeld {members : List (String × Value)}
    (hm : (members.map Prod.fst).Nodup)
    (h : members.foldlM (readHeld fields) read = .ok r) (name : String) :
    r.get? name = ((members.lookup name).bind fun v =>
      (fields.find? (·.name == name)).bind fun field => (field.read v).toOption).or
        (read.get? name) := by
  induction members generalizing read with
  | nil =>
    cases h
    simp
  | cons m members ih =>
    obtain ⟨key, v⟩ := m
    rw [List.foldlM_cons, bind_eq_ok_iff] at h
    obtain ⟨next, hn, hr⟩ := h
    rw [List.map_cons, List.nodup_cons] at hm
    rw [ih hm.2 hr, lookup_cons_ite]
    have hk : members.lookup key = none := by
      cases hl : members.lookup key with
      | none => rfl
      | some w => exact absurd (mem_names_of_lookup hl) hm.1
    rcases readHeld_eq_ok_iff.mp hn with ⟨hf, rfl⟩ | ⟨field, w, hf, hw, rfl⟩
    · by_cases he : name = key
      · subst he
        simp [hf]
      · simp [he]
    · by_cases he : name = key
      · subst he
        simp [hk, hf, hw, Except.toOption]
      · simp [he, Object.get?_insert]

theorem foldlM_readHeld_ok_iff {members : List (String × Value)} :
    (∃ r, members.foldlM (readHeld fields) read = .ok r) ↔
      ∀ m ∈ members, ∀ field, fields.find? (·.name == m.1) = some field →
        ∃ v, field.read m.2 = .ok v := by
  induction members generalizing read with
  | nil => simp [pure, Except.pure]
  | cons m members ih =>
    simp only [List.foldlM_cons, bind_eq_ok_iff, List.forall_mem_cons]
    constructor
    · rintro ⟨r, next, hn, hr⟩
      refine ⟨fun field hf => ?_, ih.mp ⟨r, hr⟩⟩
      rcases readHeld_eq_ok_iff.mp hn with ⟨hf', -⟩ | ⟨field', v, hf', hv, -⟩
      · simp [hf] at hf'
      · rw [hf, Option.some.injEq] at hf'
        exact ⟨v, hf' ▸ hv⟩
    · rintro ⟨hm, hr⟩
      have hn : ∃ next, readHeld fields read m = .ok next := by
        cases hf : fields.find? (·.name == m.1) with
        | none => exact ⟨read, readHeld_eq_ok_iff.mpr (.inl ⟨hf, rfl⟩)⟩
        | some field =>
          obtain ⟨v, hv⟩ := hm field hf
          exact ⟨_, readHeld_eq_ok_iff.mpr (.inr ⟨field, v, hf, hv, rfl⟩)⟩
      obtain ⟨next, hn⟩ := hn
      obtain ⟨r, hr⟩ := ih.mpr hr
      exact ⟨r, next, hn, hr⟩

theorem filled?_of_foldlM (h : o.toList.foldlM (readHeld fields) Object.empty = .ok read)
    (name : String) :
    filled? fields o name = (read.get? name).or (defaultOf fields name) := by
  have hm : (o.toList.map Prod.fst).Nodup := o.toList_map_fst ▸ o.nodup_keys
  rw [get?_of_foldlM_readHeld hm h, Object.lookup_toList, Object.get?_empty, Option.or_none]
  unfold filled? defaultOf
  cases hf : fields.find? (·.name == name) with
  | none => simp
  | some field =>
    cases hv : o.get? name with
    | none => simp
    | some v =>
      obtain ⟨w, hw⟩ := foldlM_readHeld_ok_iff.mp ⟨read, h⟩ (name, v)
        (Object.mem_toList.mpr hv) field hf
      simp [hw, Except.toOption]

theorem foldlM_ok_of_filled (h : ∀ field ∈ fields, (filled? fields o field.name).isSome) :
    ∃ read, o.toList.foldlM (readHeld fields) Object.empty = .ok read := by
  refine foldlM_readHeld_ok_iff.mpr fun m hm field hf => ?_
  have hn : field.name = m.1 := by simpa using List.find?_some hf
  have hs := h field (List.mem_of_find?_eq_some hf)
  simp only [hn, filled?, hf, Object.mem_toList.mp hm, Option.bind_some] at hs
  obtain ⟨v, hv⟩ := Option.isSome_iff_exists.mp hs
  exact ⟨v, toOption_eq_some_iff.mp hv⟩

theorem filled?_of_checkMembers {v : Value} (h : checkMembers fields o = .ok v) :
    (∀ field ∈ fields, (filled? fields o field.name).isSome) ∧
      ∃ r, v = .object r ∧ ∀ name, r.get? name = filled? fields o name := by
  obtain ⟨read, r, hr, hc, rfl⟩ := checkMembers_eq_ok_iff.mp h
  refine ⟨fun field hf => ?_, r, rfl, fun name => ?_⟩
  · rw [filled?_of_foldlM hr]
    exact complete_ok_iff.mp ⟨r, hc⟩ field hf
  · rw [filled?_of_foldlM hr, get?_of_complete hc]

theorem checkMembers_ok_iff : (∃ v, checkMembers fields o = .ok v) ↔
    ∀ field ∈ fields, (filled? fields o field.name).isSome := by
  constructor
  · rintro ⟨v, hv⟩
    exact (filled?_of_checkMembers hv).1
  · intro hs
    obtain ⟨read, hr⟩ := foldlM_ok_of_filled hs
    have hc : ∃ r, complete read fields = .ok r := by
      refine complete_ok_iff.mpr fun field hf => ?_
      rw [← filled?_of_foldlM hr]
      exact hs field hf
    obtain ⟨r, hc⟩ := hc
    exact ⟨.object r, checkMembers_eq_ok_iff.mpr ⟨read, r, hr, hc, rfl⟩⟩

end

theorem checkRecord_object (name : String) (fields : Fields) (o : Object) :
    (Shape.record name fields).check (.object o) = checkMembers fields.checkers o := by
  simp only [Shape.check, checkRecord, Value.asObject?_object]

/-- Fields of different names that take values over as they are, if they take them at all. -/
structure PlainFields (fields : List ValueField) : Prop where
  distinct : (fields.map FieldReader.name).Nodup
  keeps : ∀ field ∈ fields, ∀ v w, field.read v = .ok w → w = v

namespace PlainFields

variable {fields : List ValueField} {field : ValueField} {o : Object}

theorem find?_eq_some (hp : PlainFields fields) (hf : field ∈ fields) :
    fields.find? (·.name == field.name) = some field := by
  have hn := hp.distinct
  clear hp
  induction fields with
  | nil => cases hf
  | cons head rest ih =>
    rw [List.map_cons, List.nodup_cons] at hn
    rcases List.mem_cons.mp hf with rfl | hr
    · simp
    · have hne : head.name ≠ field.name := fun he => hn.1 (he ▸ List.mem_map_of_mem hr)
      rw [List.find?_cons_of_neg (by simpa using hne)]
      exact ih hr hn.2

theorem filled?_eq (hp : PlainFields fields) (hf : field ∈ fields)
    (hs : (filled? fields o field.name).isSome) :
    filled? fields o field.name = (o.get? field.name).or field.default := by
  simp only [filled?, hp.find?_eq_some hf, Option.bind_some] at hs ⊢
  cases hv : o.get? field.name with
  | none => simp
  | some v =>
    rw [hv] at hs
    obtain ⟨w, hw⟩ := Option.isSome_iff_exists.mp hs
    have hk := hp.keeps field hf v w (toOption_eq_some_iff.mp hw)
    rw [hw, hk, Option.some_or]

theorem checkMembers_ok_iff (hp : PlainFields fields) : (∃ v, checkMembers fields o = .ok v) ↔
    ∀ field ∈ fields, o.get? field.name = none ∧ field.default.isSome ∨
      ∃ v, o.get? field.name = some v ∧ field.read v = .ok v := by
  rw [Json.checkMembers_ok_iff]
  refine forall₂_congr fun field hf => ?_
  simp only [filled?, hp.find?_eq_some hf, Option.bind_some]
  cases hv : o.get? field.name with
  | none => simp
  | some v =>
    simp only [Option.isSome_iff_exists, toOption_eq_some_iff]
    constructor
    · rintro ⟨w, hw⟩
      exact .inr ⟨v, rfl, hp.keeps field hf v w hw ▸ hw⟩
    · rintro (⟨hn, -⟩ | ⟨u, hu, hr⟩)
      · cases hn
      · cases hu
        exact ⟨v, hr⟩

theorem get?_of_checkMembers (hp : PlainFields fields) {v : Value}
    (h : checkMembers fields o = .ok v) :
    ∃ r, v = .object r ∧
      ∀ field ∈ fields, r.get? field.name = (o.get? field.name).or field.default := by
  obtain ⟨hs, r, rfl, hg⟩ := filled?_of_checkMembers h
  exact ⟨r, rfl, fun field hf => (hg _).trans (hp.filled?_eq hf (hs field hf))⟩

end PlainFields

end ToolPipeline.Json
