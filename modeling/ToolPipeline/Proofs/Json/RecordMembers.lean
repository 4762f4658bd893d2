import ToolPipeline.Proofs.Json.Judgements
import ToolPipeline.Proofs.Json.Skipping

/-! Records whose text spells an object. They are read if every field is given at most once, with a
value that fits, and no field is missing; everything else is a mismatch. -/

namespace ToolPipeline.Json

def readEntry {α : Type} (value : List Piece → Result α) (key : String)
    (entries : List (String × α)) (s : List Piece) : Result (List (String × α)) :=
  (readMemberValue value key s).map fun (a, rest) => (entries ++ [(key, a)], rest)

/-- The members of an object in the order of its text, from after its opening brace up to its
closing brace. -/
def readEntries {α : Type} (value : List Piece → Result α) (s : List Piece) :
    Result (List (String × α)) :=
  readMembers (readEntry value) [] s

/-- The same where the reader of a value knows the key. -/
def readNamed {α : Type} (value : String → List Piece → Result α) (s : List Piece) :
    Result (List (String × α)) :=
  readMembers (fun key => readEntry (value key) key) [] s

section
variable {s rest : List Piece} {depth : Nat} {o : Object}

theorem entries_of_readObject (h : readObject (readValue depth) s = .ok (o, rest)) :
    ∃ entries after, readEntries (readValue depth) s = .ok (entries, after) ∧
      rest = after.drop 1 ∧ o = Object.ofList entries := by
  obtain ⟨⟨o', after⟩, hm, he⟩ := map_eq_ok_iff.mp h
  cases he
  have hstep (key : String) (read : Object) (entries : List (String × Value)) (s : List Piece)
      (next : Object) (rest : List Piece) (hr : read = Object.ofList entries)
      (hn : readAny depth key read s = .ok (next, rest)) :
      ∃ entries', readEntry (readValue depth) key entries s = .ok (entries', rest) ∧
        next = Object.ofList entries' := by
    obtain ⟨⟨v, tail⟩, hv, he⟩ := map_eq_ok_iff.mp hn
    cases he
    refine ⟨entries ++ [(key, v)], map_eq_ok_iff.mpr ⟨(v, rest), hv, rfl⟩, ?_⟩
    rw [hr, Object.ofList, Object.ofList, List.foldl_append]
    rfl
  have hm : readMembersFrom (readAny depth) (s.length + 1) true (Object.ofList []) s =
      .ok (o, after) := hm
  obtain ⟨entries, hentries, ho⟩ := readMembersFrom_sim hstep rfl hm
  exact ⟨entries, after, hentries, rfl, ho⟩

end

section
variable {entries : List (String × Value)} {read : Object} {key : String} {v : Value}

theorem get?_foldl_insert_of_not_mem (h : key ∉ entries.map Prod.fst) :
    (entries.foldl (fun o m => o.insert m.1 m.2) read).get? key = read.get? key := by
  induction entries generalizing read with
  | nil => rfl
  | cons m entries ih =>
    rw [List.map_cons, List.mem_cons, not_or] at h
    rw [List.foldl_cons, ih h.2, Object.get?_insert, if_neg h.1]

theorem mem_of_get?_foldl_insert
    (h : (entries.foldl (fun o m => o.insert m.1 m.2) read).get? key = some v) :
    (key, v) ∈ entries ∨ read.get? key = some v := by
  induction entries generalizing read with
  | nil => exact .inr h
  | cons m entries ih =>
    rcases ih h with hm | hg
    · exact .inl (List.mem_cons_of_mem _ hm)
    · rw [Object.get?_insert] at hg
      split at hg
      · next hk =>
        cases hg
        exact .inl (hk ▸ List.mem_cons_self)
      · exact .inr hg

theorem mem_of_get?_ofList (h : (Object.ofList entries).get? key = some v) :
    (key, v) ∈ entries := by
  rcases mem_of_get?_foldl_insert h with hm | hg
  · exact hm
  · rw [Object.get?_empty] at hg
    cases hg

theorem get?_foldl_insert_of_mem {p : String → Bool} (hp : p key = true)
    (hn : ((entries.map Prod.fst).filter p).Nodup) (h : (key, v) ∈ entries) :
    (entries.foldl (fun o m => o.insert m.1 m.2) read).get? key = some v := by
  induction entries generalizing read with
  | nil => cases h
  | cons m entries ih =>
    rw [List.map_cons, List.filter_cons] at hn
    rw [List.foldl_cons]
    rcases List.mem_cons.mp h with rfl | hm
    · rw [if_pos hp, List.nodup_cons] at hn
      have hnot : key ∉ entries.map Prod.fst := fun hk => hn.1 (List.mem_filter.mpr ⟨hk, hp⟩)
      rw [get?_foldl_insert_of_not_mem hnot, Object.get?_insert_self]
    · refine ih ?_ hm
      split at hn
      · exact (List.nodup_cons.mp hn).2
      · exact hn

end

/-- Readers of the same fields, from texts and from held values. -/
inductive Agreeing (depth : Nat) : List TextField → List ValueField → Prop where
  | nil : Agreeing depth [] []
  | cons {text : TextField} {held : ValueField} {texts : List TextField} {helds : List ValueField}
    (hname : text.name = held.name) (hdefault : text.default = held.default)
    (hread : ∀ s v rest, readValue depth s = .ok (v, rest) →
      Judged (held.read v = .ok v) (text.read s) (v, rest))
    (h : Agreeing depth texts helds) : Agreeing depth (text :: texts) (held :: helds)

def Fields.Plain : Fields → Prop
  | .nil => True
  | .cons _ shape _ rest => shape.Plain ∧ rest.Plain

theorem Fields.Plain.agreeing (depth : Nat) : ∀ {fields : Fields}, fields.Plain →
    Agreeing depth (fields.readers depth) fields.checkers
  | .nil, _ => by
    rw [Fields.readers, Fields.checkers]
    exact .nil
  | .cons _ _ _ _, h => by
    rw [Fields.readers, Fields.checkers]
    exact .cons rfl rfl (fun s v rest hv => h.1.judged hv) (Fields.Plain.agreeing depth h.2)

def isField (helds : List ValueField) (name : String) : Bool :=
  (helds.find? (·.name == name)).isSome

section
variable {depth : Nat} {texts : List TextField} {helds : List ValueField}

theorem Agreeing.complete_eq (h : Agreeing depth texts helds) (read : Object) :
    complete read texts = complete read helds := by
  induction h generalizing read with
  | nil => rfl
  | cons hname hdefault hread h ih =>
    unfold complete
    simp only [hname, hdefault, ih]

theorem Agreeing.find? (h : Agreeing depth texts helds) (key : String) :
    texts.find? (·.name == key) = none ∧ helds.find? (·.name == key) = none ∨
      ∃ text held, texts.find? (·.name == key) = some text ∧
        helds.find? (·.name == key) = some held ∧
        ∀ s v rest, readValue depth s = .ok (v, rest) →
          Judged (held.read v = .ok v) (text.read s) (v, rest) := by
  induction h with
  | nil => exact .inl ⟨rfl, rfl⟩
  | @cons text held texts helds hname hdefault hread h ih =>
    by_cases hk : held.name = key
    · exact .inr ⟨text, held, by simp [hname, hk], by simp [hk], hread⟩
    · have hk' : text.name ≠ key := hname ▸ hk
      simpa [hk, hk'] using ih

end

/-- Readers by key that read the value of every field, and pass over the values of other members if
they do not read them. -/
structure ReadsFields (helds : List ValueField) (depth : Nat)
    (value : String → List Piece → Result Value) : Prop where
  field : ∀ key, isField helds key = true → value key = readValue depth
  passes : ∀ key s v rest, value key s = .ok (v, rest) → skipValue s = .ok rest

theorem readsFields_readValue (helds : List ValueField) (depth : Nat) :
    ReadsFields helds depth fun _ => readValue depth :=
  ⟨fun _ _ => rfl, fun _ _ _ _ => skipValue_of_readValue⟩

def keep (helds : List ValueField) (read : Object) (m : String × Value) : Object :=
  if isField helds m.1 then read.insert m.1 m.2 else read

def FitsField (helds : List ValueField) (m : String × Value) : Prop :=
  ∀ held, helds.find? (·.name == m.1) = some held → held.read m.2 = .ok m.2

/-- Every member that is one of the fields fits, and no field has been read before. -/
def EntriesFit (helds : List ValueField) : Object → List (String × Value) → Prop
  | _, [] => True
  | read, m :: rest =>
    (isField helds m.1 = true → read.get? m.1 = none ∧ FitsField helds m) ∧
      EntriesFit helds (keep helds read m) rest

section
variable {depth : Nat} {texts : List TextField} {helds : List ValueField} {read : Object}
  {s rest : List Piece} {key : String} {v : Value} {value : String → List Piece → Result Value}

theorem judged_field (h : Agreeing depth texts helds) (hr : ReadsFields helds depth value)
    (hv : readMemberValue (value key) key s = .ok (v, rest)) :
    Judged (isField helds key = true → read.get? key = none ∧ FitsField helds (key, v))
      (readField texts key read s) (keep helds read (key, v), rest) := by
  obtain ⟨colon, hc, hcv⟩ := readColon_of_readMemberValue hv
  rcases h.find? key with ⟨ht, hh⟩ | ⟨text, held, ht, hh, hj⟩
  · have hno : isField helds key = false := by simp [isField, hh]
    refine ⟨fun _ => ?_, fun hn => absurd (fun hf => by simp [hno] at hf) hn⟩
    simp only [readField, ht, keep, hno, readMemberValue, hc, hr.passes _ _ _ _ hcv, Except.map,
      Bool.false_eq_true, if_false]
  · have hyes : isField helds key = true := by simp [isField, hh]
    have hfits : FitsField helds (key, v) ↔ held.read v = .ok v := by
      simp [FitsField, hh]
    rw [hr.field key hyes] at hcv
    have hjv := hj colon v rest hcv
    unfold readField
    simp only [ht]
    cases hg : read.get? key with
    | some w =>
      refine ⟨fun hf => absurd (hf hyes).1 (by simp), fun _ => ⟨_, if_pos rfl, rfl⟩⟩
    | none =>
      simp only [Option.isSome_none, Bool.false_eq_true, if_false, readMemberValue, hc]
      refine ⟨fun hf => ?_, fun hn => ?_⟩
      · rw [hjv.fit (hfits.mp (hf hyes).2)]
        simp only [Except.map, keep, hyes, if_true]
      · have hnot : ¬ held.read v = .ok v := fun hr => hn fun _ => ⟨trivial, hfits.mpr hr⟩
        obtain ⟨f, hf, hm⟩ := hjv.misfit hnot
        rw [hf]
        exact ⟨_, rfl, hm⟩

theorem judged_entries (h : Agreeing depth texts helds) (hr : ReadsFields helds depth value)
    {budget : Nat} {first : Bool} {entries all : List (String × Value)}
    (hs : readMembersFrom (fun key => readEntry (value key) key) budget first entries s =
      .ok (all, rest)) :
    ∃ more, all = entries ++ more ∧
      Judged (EntriesFit helds read more) (readMembersFrom (readField texts) budget first read s)
        (more.foldl (keep helds) read, rest) := by
  induction budget generalizing first entries read s with
  | zero =>
    cases hs
    exact ⟨[], (List.append_nil _).symm, fun _ => rfl, fun hn => absurd trivial hn⟩
  | succ budget ih =>
    unfold readMembersFrom at hs ⊢
    split at hs
    · cases hs
    · cases hs
      exact ⟨[], (List.append_nil _).symm, fun _ => rfl, fun hn => absurd trivial hn⟩
    · next key tail hn =>
      split at hs
      · cases hs
      · next entries' next hm =>
        obtain ⟨⟨v, after⟩, hv, he⟩ := map_eq_ok_iff.mp hm
        cases he
        have hj : Judged _ (readField texts key read tail) _ := judged_field h hr hv
        obtain ⟨more, rfl, hmore⟩ := @ih (keep helds read (key, v)) _ _ _ hs
        refine ⟨(key, v) :: more, by simp, fun hfit => ?_, fun hnot => ?_⟩
        · simp only [hj.fit hfit.1]
          exact hmore.fit hfit.2
        · by_cases hf : isField helds key = true → read.get? key = none ∧ FitsField helds (key, v)
          · simp only [hj.fit hf]
            exact hmore.misfit fun hfs => hnot ⟨hf, hfs⟩
          · obtain ⟨f, he, hm⟩ := hj.misfit hf
            simp only [he]
            exact ⟨_, rfl, hm⟩

end

section
variable {helds : List ValueField} {read : Object} {entries : List (String × Value)} {key : String}

def GivenOnce (helds : List ValueField) (names : List String) : Prop :=
  (names.filter (isField helds)).Nodup

theorem get?_keep (helds : List ValueField) (read : Object) (m : String × Value) (key : String) :
    (keep helds read m).get? key =
      if isField helds m.1 = true ∧ key = m.1 then some m.2 else read.get? key := by
  unfold keep
  by_cases hm : isField helds m.1 = true <;> simp [hm, Object.get?_insert]

theorem entriesFit_iff : EntriesFit helds read entries ↔
    (∀ m ∈ entries, isField helds m.1 = true → read.get? m.1 = none ∧ FitsField helds m) ∧
      GivenOnce helds (entries.map Prod.fst) := by
  induction entries generalizing read with
  | nil => simp [EntriesFit, GivenOnce]
  | cons m entries ih =>
    unfold EntriesFit GivenOnce
    rw [ih, List.forall_mem_cons, List.map_cons, List.filter_cons]
    by_cases hm : isField helds m.1 = true
    · rw [if_pos hm, List.nodup_cons, and_assoc]
      refine and_congr_right fun _ => ?_
      constructor
      · rintro ⟨hrest, hn⟩
        refine ⟨fun m' hm' hf => ?_, fun hmem => ?_, hn⟩
        · obtain ⟨hg, hfit⟩ := hrest m' hm' hf
          rw [get?_keep] at hg
          split at hg
          · cases hg
          · exact ⟨hg, hfit⟩
        · obtain ⟨hname, hf⟩ := List.mem_filter.mp hmem
          obtain ⟨m', hm', he⟩ := List.mem_map.mp hname
          obtain ⟨hg, -⟩ := hrest m' hm' (he ▸ hf)
          rw [get?_keep, if_pos ⟨hm, he⟩] at hg
          cases hg
      · rintro ⟨hrest, hnot, hn⟩
        refine ⟨fun m' hm' hf => ?_, hn⟩
        obtain ⟨hg, hfit⟩ := hrest m' hm' hf
        have hne : m'.1 ≠ m.1 := fun he =>
          hnot (List.mem_filter.mpr ⟨he ▸ List.mem_map_of_mem hm', hm⟩)
        rw [get?_keep, if_neg fun hh => hne hh.2]
        exact ⟨hg, hfit⟩
    · rw [if_neg hm]
      have hkeep (name : String) : (keep helds read m).get? name = read.get? name := by
        rw [get?_keep, if_neg fun hh => hm hh.1]
      simp only [hkeep, GivenOnce, and_assoc]

theorem get?_foldl_keep : (entries.foldl (keep helds) read).get? key =
    if isField helds key then (entries.foldl (fun o m => o.insert m.1 m.2) read).get? key
    else read.get? key := by
  -- the two objects may part at keys that are no field
  suffices hs : ∀ read' : Object, (isField helds key → read.get? key = read'.get? key) →
      (entries.foldl (keep helds) read).get? key =
        if isField helds key then (entries.foldl (fun o m => o.insert m.1 m.2) read').get? key
        else read.get? key from hs read fun _ => rfl
  induction entries generalizing read with
  | nil =>
    intro read' hr
    by_cases hk : isField helds key = true
    · simpa [hk] using hr hk
    · simp [hk]
  | cons m entries ih =>
    intro read' hr
    rw [List.foldl_cons, ih (read'.insert m.1 m.2), List.foldl_cons]
    · by_cases hk : isField helds key = true
      · simp [hk]
      · have hm : ¬ (isField helds m.1 = true ∧ key = m.1) := fun hh => hk (hh.2 ▸ hh.1)
        simp [hk, get?_keep, hm]
    · intro hk
      rw [get?_keep, Object.get?_insert, hr hk]
      by_cases he : key = m.1
      · simp [he, he ▸ hk]
      · simp [he]

end

section
variable {depth : Nat} {texts : List TextField} {helds : List ValueField}
  {s after : List Piece} {entries : List (String × Value)}
  {value : String → List Piece → Result Value}

theorem failsWith_settleObject {α : Type} (x : Result α) : FailsWith x (settleObject x) := by
  rintro f rfl
  unfold settleObject
  simp only
  split
  · exact ⟨f, rfl, rfl⟩
  · split <;> exact ⟨_, rfl, rfl⟩

theorem get?_kept (helds : List ValueField) (entries : List (String × Value)) (key : String) :
    (entries.foldl (keep helds) Object.empty).get? key =
      if isField helds key then (Object.ofList entries).get? key else none := by
  rw [get?_foldl_keep, Object.get?_empty]
  rfl

theorem entriesFit_of_checkMembers (hp : PlainFields helds)
    (hn : GivenOnce helds (entries.map Prod.fst)) {w : Value}
    (hw : checkMembers helds (Object.ofList entries) = .ok w) :
    EntriesFit helds Object.empty entries := by
  refine entriesFit_iff.mpr ⟨fun m hm hf => ⟨Object.get?_empty _, fun held hh => ?_⟩, hn⟩
  have hname : held.name = m.1 := by simpa using List.find?_some hh
  have hg : (Object.ofList entries).get? m.1 = some m.2 := get?_foldl_insert_of_mem hf hn hm
  rcases hp.checkMembers_ok_iff.mp ⟨w, hw⟩ held (List.mem_of_find?_eq_some hh) with
    ⟨hnone, -⟩ | ⟨v, hv, hr⟩
  · rw [hname, hg] at hnone
    cases hnone
  · rw [hname, hg, Option.some.injEq] at hv
    exact hv ▸ hr

theorem filled?_eq_kept (hfit : EntriesFit helds Object.empty entries) (name : String) :
    filled? helds (Object.ofList entries) name =
      ((entries.foldl (keep helds) Object.empty).get? name).or (defaultOf helds name) := by
  rw [get?_kept]
  unfold filled? defaultOf isField
  cases hh : helds.find? (·.name == name) with
  | none => rfl
  | some held =>
    cases hg : (Object.ofList entries).get? name with
    | none => simp
    | some v =>
      have hm := mem_of_get?_ofList hg
      have hyes : isField helds name = true := by simp [isField, hh]
      have hr := ((entriesFit_iff.mp hfit).1 _ hm hyes).2 held hh
      simp [hr, Except.toOption]

theorem judged_readNamed (ha : Agreeing depth texts helds) (hv : ReadsFields helds depth value)
    (hs : readNamed value s = .ok (entries, after)) :
    Judged (EntriesFit helds Object.empty entries) (readMembers (readField texts) Object.empty s)
      (entries.foldl (keep helds) Object.empty, after) := by
  obtain ⟨more, he, hj⟩ := judged_entries ha hv hs
  exact he ▸ hj

theorem readRecordMembers_of_check (ha : Agreeing depth texts helds) (hp : PlainFields helds)
    (hv : ReadsFields helds depth value) (hs : readNamed value s = .ok (entries, after)) {w : Value}
    (hw : checkMembers helds (Object.ofList entries) = .ok w)
    (hn : GivenOnce helds (entries.map Prod.fst)) :
    readRecordMembers texts s = .ok (w, after.drop 1) := by
  have hfit := entriesFit_of_checkMembers hp hn hw
  have hj := judged_readNamed ha hv hs
  obtain ⟨hfilled, r, rfl, hr⟩ := filled?_of_checkMembers hw
  have hcomplete : ∃ o, complete (entries.foldl (keep helds) Object.empty) helds = .ok o := by
    refine complete_ok_iff.mpr fun field hf => ?_
    rw [← filled?_eq_kept hfit]
    exact hfilled field hf
  obtain ⟨o, ho⟩ := hcomplete
  have hro : r = o := Object.ext_get? fun name => by
    rw [hr, filled?_eq_kept hfit, get?_of_complete ho]
  unfold readRecordMembers
  rw [hj.fit hfit]
  simp only [ha.complete_eq, ho, hro]
  rfl

theorem readRecordMembers_misjudged (ha : Agreeing depth texts helds)
    (hv : ReadsFields helds depth value) (hs : readNamed value s = .ok (entries, after))
    (hno : ¬ ((∃ w, checkMembers helds (Object.ofList entries) = .ok w) ∧
      GivenOnce helds (entries.map Prod.fst))) :
    Misjudged (readRecordMembers texts s) := by
  have hj := judged_readNamed ha hv hs
  refine Misjudged.failsWith ?_ (failsWith_settleObject _)
  by_cases hfit : EntriesFit helds Object.empty entries
  · have hn := (entriesFit_iff.mp hfit).2
    rw [hj.fit hfit]
    simp only [ha.complete_eq]
    cases hc : complete (entries.foldl (keep helds) Object.empty) helds with
    | error name => exact ⟨_, rfl, rfl⟩
    | ok o =>
      refine absurd ⟨?_, hn⟩ hno
      refine checkMembers_ok_iff.mpr fun field hf => ?_
      have hfilled := filled?_eq_kept hfit field.name
      rw [hfilled]
      exact complete_ok_iff.mp ⟨o, hc⟩ field hf
  · obtain ⟨f, hf, hm⟩ := hj.misfit hfit
    rw [hf]
    exact ⟨f, rfl, hm⟩

end

end ToolPipeline.Json
