import ToolPipeline.Proofs.Json.Flaws
import ToolPipeline.Proofs.Json.RecordTexts
import ToolPipeline.Proofs.Json.Trees

/-! Texts that are no values. What is read of such a text before its flaw decides what a reader by a
shape reports: the flaw, or a mismatch that stands before it. The values of members that are no
field are only passed over, so a flaw in them may go unseen. -/

namespace ToolPipeline.Json

/-- The items of a list before a flaw, and the text of the item that has the flaw, if it is in one.
-/
def itemsBefore {α : Type} (item : List Piece → Result α) :
    (budget : Nat) → (index : Nat) → List Piece → List α × Option (List Piece)
  | 0, _, _ => ([], none)
  | budget + 1, index, s =>
    match nextItem (index == 0) s with
    | .error _ => ([], none)
    | .ok (false, _) => ([], none)
    | .ok (true, s) =>
      match item s with
      | .error _ => ([], some s)
      | .ok (v, rest) =>
        let later := itemsBefore item budget (index + 1) rest
        (v :: later.1, later.2)

/-- The members of an object before a flaw, and the key and the text from there on of the member
that has the flaw, if it is behind a key. -/
def membersBefore {α : Type} (value : String → List Piece → Result α) :
    (budget : Nat) → (first : Bool) → List Piece →
      List (String × α) × Option (String × List Piece)
  | 0, _, _ => ([], none)
  | budget + 1, first, s =>
    match nextKey first s with
    | .error _ => ([], none)
    | .ok (none, _) => ([], none)
    | .ok (some key, s) =>
      match readMemberValue (value key) key s with
      | .error _ => ([], some (key, s))
      | .ok (a, rest) =>
        let later := membersBefore value budget false rest
        ((key, a) :: later.1, later.2)

/-- Reads the value of a field. Any other value is only passed over, and taken for `null`. -/
def looseValue (helds : List ValueField) (depth : Nat) (key : String) (s : List Piece) :
    Result Value :=
  if isField helds key then readValue depth s else (skipValue s).map (.null, ·)

/-- Reads a value of which only the fields matter, if it is an object. -/
def readLoosely (fields : Fields) (depth : Nat) (s : List Piece) : Result Value :=
  match skipSpace s, depth with
  | .char '{' :: rest, depth + 1 =>
    (readNamed (looseValue fields.checkers depth) rest).map fun (entries, rest) =>
      (.object (Object.ofList entries), rest.drop 1)
  | _, depth => readValue depth s

mutual
/-- Of a text that is no value, what is read before the flaw has the shape. -/
def Shape.FitsBefore (shape : Shape) (depth : Nat) (s : List Piece) : Prop :=
  match shape with
  | .any => True
  | .object => ∀ tail, skipSpace s ≠ .char '[' :: tail
  | .string | .boolean | .natural _ _ =>
    ∀ tail, skipSpace s ≠ .char '[' :: tail ∧ skipSpace s ≠ .char '{' :: tail
  | .list item =>
    match skipSpace s, depth with
    | .char '{' :: _, _ => False
    | .char '[' :: rest, depth + 1 =>
      let before := itemsBefore (readValue depth) (rest.length + 1) 0 rest
      (∀ v ∈ before.1, item.check v = .ok v) ∧
        ∀ text, before.2 = some text → item.FitsBefore depth text
    | _, _ => True
  | .record _ fields =>
    match skipSpace s, depth with
    | .char '{' :: rest, depth + 1 =>
      let before := membersBefore (looseValue fields.checkers depth) (rest.length + 1) true rest
      EntriesFit fields.checkers .empty before.1 ∧
        ∀ key text, before.2 = some (key, text) → isField fields.checkers key = true →
          key ∉ before.1.map Prod.fst ∧ fields.MemberFitsBefore depth key text
    | .char '[' :: rest, depth + 1 =>
      let before := itemsBefore (readValue depth) (rest.length + 1) 0 rest
      fields.ItemsFitBefore depth before.1 before.2
    | _, _ => True

/-- The items have the shapes of the first fields, and so has the text behind them what it begins
with. -/
def Fields.ItemsFitBefore (fields : Fields) (depth : Nat) (items : List Value)
    (next : Option (List Piece)) : Prop :=
  match fields, items, next with
  | .cons _ shape _ rest, v :: items, next =>
    shape.check v = .ok v ∧ rest.ItemsFitBefore depth items next
  | .cons _ shape _ _, [], some text => shape.FitsBefore depth text
  | _, _, _ => True

/-- What is read of the value behind a key and a colon has the shape of the field of that name. -/
def Fields.MemberFitsBefore (fields : Fields) (depth : Nat) (key : String) (text : List Piece) :
    Prop :=
  match fields with
  | .nil => True
  | .cons name shape _ rest =>
    if name = key then ∀ value, readColon text = .ok value → shape.FitsBefore depth value
    else rest.MemberFitsBefore depth key text
end

def Flawed {α : Type} (x : Result α) : Prop := ∃ f, x = .error f ∧ isMismatch f.cause = false

/-- What stands before a flaw decides between the flaw and a mismatch. -/
structure Blamed {α : Type} (fits : Prop) (x : Result α) : Prop where
  fit : fits → Flawed x
  misfit : ¬ fits → Misjudged x

section
variable {α β : Type} {fits fits' : Prop} {x : Result α} {y z : Result β} {r : α × List Piece}
  {f : Fault}

theorem OnlyFlaws.flawed (h : OnlyFlaws x) (hx : x = .error f) : Flawed x := ⟨f, hx, h.flaw f hx⟩

theorem Flawed.blamed (h : Flawed x) (hf : fits) : Blamed fits x :=
  ⟨fun _ => h, fun hn => absurd hf hn⟩

theorem Misjudged.blamed (h : Misjudged x) (hf : ¬ fits) : Blamed fits x :=
  ⟨fun hh => absurd hh hf, fun _ => h⟩

theorem Blamed.of_iff (h : Blamed fits x) (hf : fits ↔ fits') : Blamed fits' x :=
  ⟨fun hh => h.fit (hf.mpr hh), fun hh => h.misfit (hf.not.mpr hh)⟩

theorem Flawed.failsWith (h : Flawed x) (hz : FailsWith x z) : Flawed z := by
  obtain ⟨f, hx, hm⟩ := h
  obtain ⟨g, hg, hc⟩ := hz f hx
  exact ⟨g, hg, hc.trans hm⟩

theorem Blamed.failsWith (h : Blamed fits x) (hz : FailsWith x z) : Blamed fits z :=
  ⟨fun hh => (h.fit hh).failsWith hz, fun hh => (h.misfit hh).failsWith hz⟩

/-- Behind a part that is judged by itself, the rest is to blame if that part fits. -/
theorem Judged.blamed_and (h : Judged fits x r) (hz : FailsWith x z) (hy : x = .ok r → z = y)
    (hb : Blamed fits' y) : Blamed (fits ∧ fits') z := by
  by_cases hf : fits
  · rw [hy (h.fit hf)]
    exact hb.of_iff (by simp [hf])
  · exact ((h.misfit hf).failsWith hz).blamed fun hh => hf hh.1

end

/-- What a text that is no value can start with. -/
inductive Broken : Nat → List Piece → Prop where
  | deepList {s tail : List Piece} (hs : skipSpace s = .char '[' :: tail) : Broken 0 s
  | deepObject {s tail : List Piece} (hs : skipSpace s = .char '{' :: tail) : Broken 0 s
  | list {depth : Nat} {s tail : List Piece} {f : Fault} (hs : skipSpace s = .char '[' :: tail)
    (h : readItems (readValue depth) tail = .error f) : Broken (depth + 1) s
  | object {depth : Nat} {s tail : List Piece} {f : Fault} (hs : skipSpace s = .char '{' :: tail)
    (h : readObject (readValue depth) tail = .error f) : Broken (depth + 1) s
  | scalar {depth : Nat} {s : List Piece} {f : Fault}
    (hlist : ∀ tail, skipSpace s ≠ .char '[' :: tail)
    (hobject : ∀ tail, skipSpace s ≠ .char '{' :: tail)
    (h : readScalar (skipSpace s) = .error f) : Broken depth s

section
variable {depth : Nat} {s tail : List Piece} {f : Fault}

theorem broken_of_readValue (h : readValue depth s = .error f) : Broken depth s := by
  unfold readValue at h
  split at h
  · next hs =>
    split at h
    · exact .deepList hs
    · exact .list hs (map_eq_error_iff.mp h)
  · next hs =>
    split at h
    · exact .deepObject hs
    · exact .object hs (map_eq_error_iff.mp h)
  · next hlist hobject => exact .scalar hlist hobject h

theorem refuse_flawed {α : Type} (hlist : ∀ tail, s ≠ .char '[' :: tail)
    (hobject : ∀ tail, s ≠ .char '{' :: tail) (h : readScalar s = .error f) (expected : String) :
    Flawed (refuse expected s : Result α) := by
  unfold refuse
  split
  · exact absurd rfl (hlist _)
  · exact absurd rfl (hobject _)
  · rw [h]
    exact ⟨f, rfl, (readScalar_onlyFlaws s).flaw f h⟩

theorem refuse_list {α : Type} (hs : s = .char '[' :: tail) (expected : String) :
    Misjudged (refuse expected s : Result α) := hs ▸ ⟨_, rfl, rfl⟩

theorem refuse_object {α : Type} (hs : s = .char '{' :: tail) (expected : String) :
    Misjudged (refuse expected s : Result α) := hs ▸ ⟨_, rfl, rfl⟩

theorem blamed_items {α : Type} {item item' : List Piece → Result α} {fits : α → Prop}
    {begins : List Piece → Prop}
    (hok : ∀ s v rest, item s = .ok (v, rest) → Judged (fits v) (item' s) (v, rest))
    (herror : ∀ s f, item s = .error f → Blamed (begins s) (item' s))
    {budget index : Nat} {read : List α} {s : List Piece}
    (h : readItemsFrom item budget index read s = .error f) :
    Blamed ((∀ v ∈ (itemsBefore item budget index s).1, fits v) ∧
        ∀ text, (itemsBefore item budget index s).2 = some text → begins text)
      (readItemsFrom item' budget index read s) := by
  induction budget generalizing index read s with
  | zero => cases h
  | succ budget ih =>
    unfold readItemsFrom at h ⊢
    unfold itemsBefore
    cases hn : nextItem (index == 0) s with
    | error g => exact ((nextItem_onlyFlaws _ s).of_eq hn |>.flawed rfl).blamed (by simp)
    | ok next =>
      obtain ⟨more, tail⟩ := next
      cases more with
      | false => simp [hn] at h
      | true =>
        cases hv : item tail with
        | error g =>
          simp only [hv]
          refine ((herror tail g hv).failsWith fun g' hg => ?_).of_iff (by simp)
          simp only [hg]
          exact ⟨_, rfl, rfl⟩
        | ok r =>
          obtain ⟨v, rest⟩ := r
          simp only [hn, hv] at h ⊢
          rw [List.forall_mem_cons, and_assoc]
          refine (hok _ _ _ hv).blamed_and (fun g hg => ?_) (fun hg => ?_) (ih h)
          · simp only [hg]
            exact ⟨_, rfl, rfl⟩
          · simp only [hg]

theorem blamed_list {item : Shape} (hp : item.Plain)
    (hitem : ∀ depth s f, readValue depth s = .error f →
      Blamed (item.FitsBefore depth s) (item.read depth s)) (h : Broken depth s) :
    Blamed ((Shape.list item).FitsBefore depth s) ((Shape.list item).read depth s) := by
  cases h with
  | deepList hs =>
    simp only [Shape.FitsBefore, Shape.read, hs]
    exact Flawed.blamed ⟨_, rfl, rfl⟩ trivial
  | deepObject hs | object hs =>
    simp only [Shape.FitsBefore, Shape.read, hs]
    exact Misjudged.blamed ⟨_, rfl, rfl⟩ id
  | @list depth _ tail f hs hi =>
    simp only [Shape.FitsBefore, Shape.read, hs]
    have hb : Blamed _ (readItems (item.read depth) tail) :=
      blamed_items (fun s v rest hv => hp.judged hv) (hitem depth) hi
    exact hb.failsWith fun g hg => ⟨g, map_eq_error_iff.mpr hg, rfl⟩
  | scalar hlist hobject hv =>
    have hfits : (Shape.list item).FitsBefore depth s := by
      unfold Shape.FitsBefore
      split
      · next hs => exact absurd hs (hobject _)
      · next hs => exact absurd hs (hlist _)
      · trivial
    rw [read_list_eq_refuse hlist]
    exact (refuse_flawed hlist hobject hv _).blamed hfits

/-- Where no value can be read, a plain shape reports the flaw if what stands before it fits. -/
theorem Shape.Plain.blamed {shape : Shape} (hp : shape.Plain) (h : readValue depth s = .error f) :
    Blamed (shape.FitsBefore depth s) (shape.read depth s) := by
  induction hp generalizing depth s f with
  | any =>
    unfold Shape.FitsBefore Shape.read
    exact ((readValue_onlyFlaws depth s).flawed h).blamed trivial
  | object =>
    unfold Shape.FitsBefore
    cases broken_of_readValue h with
    | deepList hs | list hs =>
      rw [read_object_eq_refuse (by simp [hs])]
      exact (refuse_list hs _).blamed fun hf => hf _ hs
    | deepObject hs =>
      simp only [Shape.read, hs]
      exact Flawed.blamed ⟨_, rfl, rfl⟩ (by simp)
    | @object depth _ _ f hs ho =>
      simp only [Shape.read, hs, ho]
      have hflaw := (readObject_onlyFlaws (readValue_onlyFlaws depth) _).flaw f ho
      exact Flawed.blamed ⟨f, rfl, hflaw⟩ (by simp)
    | scalar hlist hobject hv =>
      rw [read_object_eq_refuse hobject]
      exact (refuse_flawed hlist hobject hv _).blamed hlist
  | string =>
    unfold Shape.FitsBefore
    cases broken_of_readValue h with
    | deepList hs | list hs =>
      rw [read_string_eq_refuse (by simp [hs])]
      exact (refuse_list hs _).blamed fun hf => (hf _).1 hs
    | deepObject hs | object hs =>
      rw [read_string_eq_refuse (by simp [hs])]
      exact (refuse_object hs _).blamed fun hf => (hf _).2 hs
    | scalar hlist hobject hv =>
      refine Flawed.blamed ?_ fun tail => ⟨hlist tail, hobject tail⟩
      simp only [Shape.read]
      split
      · next hs =>
        rw [hs] at hv
        have hr := map_eq_error_iff.mp hv
        exact ((readString_onlyFlaws _).map _).flawed (map_eq_error_iff.mpr hr)
      · exact refuse_flawed hlist hobject hv _
  | boolean =>
    unfold Shape.FitsBefore
    cases broken_of_readValue h with
    | deepList hs | list hs =>
      rw [read_boolean_eq_refuse (by simp [hs])]
      exact (refuse_list hs _).blamed fun hf => (hf _).1 hs
    | deepObject hs | object hs =>
      rw [read_boolean_eq_refuse (by simp [hs])]
      exact (refuse_object hs _).blamed fun hf => (hf _).2 hs
    | scalar hlist hobject hv =>
      refine Flawed.blamed ?_ fun tail => ⟨hlist tail, hobject tail⟩
      simp only [Shape.read]
      split
      · next hs =>
        rw [hs] at hv
        exact ((readWord_onlyFlaws ..).map _).flawed hv
      · next hs =>
        rw [hs] at hv
        exact ((readWord_onlyFlaws ..).map _).flawed hv
      · exact refuse_flawed hlist hobject hv _
  | list hp ih => exact blamed_list hp (fun depth s f => ih) (broken_of_readValue h)

end

section
variable {depth : Nat} {texts : List TextField} {helds : List ValueField} {read : Object}
  {s rest : List Piece} {key : String} {f : Fault}

theorem readsFields_looseValue (helds : List ValueField) (depth : Nat) :
    ReadsFields helds depth (looseValue helds depth) where
  field key hk := by
    funext s
    rw [looseValue, if_pos hk]
  passes key s v rest h := by
    unfold looseValue at h
    split at h
    · exact skipValue_of_readValue h
    · obtain ⟨_, hs, he⟩ := map_eq_ok_iff.mp h
      cases he
      exact hs

theorem passOver_flawed (hk : isField helds key = false)
    (h : readMemberValue (looseValue helds depth key) key s = .error f) :
    Flawed (readMemberValue passOver key s) := by
  have hloose : looseValue helds depth key = fun s => (skipValue s).map (.null, ·) := by
    funext s
    simp [looseValue, hk]
  have honly : OnlyFlaws (readMemberValue passOver key s) :=
    readMemberValue_onlyFlaws (fun s => (skipValue_onlyFlaws s).map _) key s
  rw [hloose] at h
  have hpassed (s : List Piece) (u : Unit) (rest : List Piece) (hs : passOver s = .ok (u, rest)) :
      ∃ v, (skipValue s).map (Value.null, ·) = .ok (v, rest) ∧ True := by
    obtain ⟨after, ha, he⟩ := map_eq_ok_iff.mp hs
    cases he
    exact ⟨.null, map_eq_ok_iff.mpr ⟨rest, ha, rfl⟩, trivial⟩
  cases hp : readMemberValue passOver key s with
  | error g => exact ⟨g, rfl, honly.flaw g hp⟩
  | ok r =>
    obtain ⟨u, rest⟩ := r
    obtain ⟨v, hv, -⟩ := readMemberValue_sim hpassed hp
    rw [hv] at h
    cases h

theorem blamed_field {begins : String → List Piece → Prop} (ha : Agreeing depth texts helds)
    (herror : ∀ key text, texts.find? (·.name == key) = some text →
      ∀ s f, readMemberValue (readValue depth) key s = .error f →
        Blamed (begins key s) (readMemberValue text.read key s))
    (h : readMemberValue (looseValue helds depth key) key s = .error f) :
    Blamed (isField helds key = true → read.get? key = none ∧ begins key s)
      (readField texts key read s) := by
  unfold readField
  rcases ha.find? key with ⟨ht, hh⟩ | ⟨text, held, ht, hh, -⟩
  · have hno : isField helds key = false := by simp [isField, hh]
    obtain ⟨g, hg, hm⟩ := passOver_flawed hno h
    have hg : readMemberValue (fun s => (skipValue s).map ((), ·)) key s = .error g := hg
    simp only [ht, hg]
    exact Flawed.blamed ⟨g, rfl, hm⟩ (by simp [hno])
  · have hyes : isField helds key = true := by simp [isField, hh]
    rw [(readsFields_looseValue helds depth).field key hyes] at h
    simp only [ht]
    cases hg : read.get? key with
    | some w => exact Misjudged.blamed ⟨_, if_pos rfl, rfl⟩ fun hf => by simpa using hf hyes
    | none =>
      simp only [Option.isSome_none, Bool.false_eq_true, if_false]
      refine ((herror key text ht s f h).failsWith fun g hg => ?_).of_iff (by simp [hyes])
      exact ⟨g, map_eq_error_iff.mpr hg, rfl⟩

theorem blamed_members {begins : String → List Piece → Prop} (ha : Agreeing depth texts helds)
    (herror : ∀ key text, texts.find? (·.name == key) = some text →
      ∀ s f, readMemberValue (readValue depth) key s = .error f →
        Blamed (begins key s) (readMemberValue text.read key s))
    {budget : Nat} {first : Bool} {entries : List (String × Value)}
    (h : readMembersFrom (fun key => readEntry (looseValue helds depth key) key) budget first
      entries s = .error f) :
    Blamed (EntriesFit helds read (membersBefore (looseValue helds depth) budget first s).1 ∧
        ∀ key text, (membersBefore (looseValue helds depth) budget first s).2 = some (key, text) →
          isField helds key = true →
          ((membersBefore (looseValue helds depth) budget first s).1.foldl (keep helds) read).get?
            key = none ∧ begins key text)
      (readMembersFrom (readField texts) budget first read s) := by
  -- What the loose reader collects is of no account; `read` holds the fields that came before.
  induction budget generalizing first entries read s with
  | zero => cases h
  | succ budget ih =>
    unfold readMembersFrom at h ⊢
    unfold membersBefore
    cases hn : nextKey first s with
    | error g =>
      have hflaw := (nextKey_onlyFlaws first s).flaw g hn
      exact Flawed.blamed ⟨_, rfl, hflaw⟩ (by simp [EntriesFit])
    | ok next =>
      obtain ⟨key?, tail⟩ := next
      cases key? with
      | none => simp [hn] at h
      | some key =>
        cases hv : readMemberValue (looseValue helds depth key) key tail with
        | error g =>
          simp only [hv]
          have hfield : Blamed _ (readField texts key read tail) := blamed_field ha herror hv
          refine (hfield.failsWith fun g' hg => ?_).of_iff (by simp [EntriesFit])
          simp only [hg]
          exact ⟨g', rfl, rfl⟩
        | ok r =>
          obtain ⟨v, after⟩ := r
          simp only [hn, readEntry, hv, Except.map] at h
          have hj : Judged _ (readField texts key read tail) _ :=
            judged_field ha (readsFields_looseValue helds depth) hv
          simp only [hv, EntriesFit, List.foldl_cons]
          rw [and_assoc]
          refine hj.blamed_and (fun g hg => ?_) (fun hg => ?_) (ih h)
          · simp only [hg]
            exact ⟨g, rfl, rfl⟩
          · simp only [hg]

end

section
variable {depth : Nat} {fields : Fields} {read : Object} {name expected : String}
  {s rest : List Piece} {v : Value} {f : Fault}

theorem readListEnd_flawed {budget index : Nat} {items : List Value}
    (h : readItemsFrom (readValue depth) budget index items s = .error f) :
    ∃ g, readListEnd s = .error g ∧ isMismatch g.cause = false := by
  have honly : OnlyFlaws (readListEnd s) := by
    unfold readListEnd
    split
    · exact .ahead ..
    · exact .ok _
    · split <;> simp
    · exact .ahead ..
  cases he : readListEnd s with
  | error g => exact ⟨g, rfl, honly.flaw g he⟩
  | ok rest =>
    cases budget with
    | zero => cases h
    | succ budget =>
      rw [readItemsFrom, nextItem_of_closing _ (skipSpace_of_readListEnd he)] at h
      cases h

def readItemsToEnd (expected : String) (index : Nat) (read : Object) (texts : List TextField)
    (s : List Piece) : Result Value :=
  match readFieldItems expected index read texts s with
  | .error f => .error f
  | .ok (o, s) => (readListEnd s).map (.object o, ·)

theorem Fields.Plain.blamed_items : ∀ {fields : Fields}, fields.Plain →
    ∀ {budget index : Nat} {items : List Value} {read : Object} {s : List Piece} {f : Fault},
    readItemsFrom (readValue depth) budget index items s = .error f →
    Blamed (fields.ItemsFitBefore depth (itemsBefore (readValue depth) budget index s).1
        (itemsBefore (readValue depth) budget index s).2)
      (readItemsToEnd expected index read (fields.readers depth) s)
  | .nil, _, budget, index, items, read, s, f, h => by
    obtain ⟨g, hg, hm⟩ := readListEnd_flawed h
    rw [Fields.readers, readItemsToEnd, readFieldItems]
    simp only [hg]
    refine Flawed.blamed ⟨g, rfl, hm⟩ ?_
    unfold Fields.ItemsFitBefore
    trivial
  | .cons name shape default rest, hp, budget, index, items, read, s, f, h => by
    rw [Fields.readers, readItemsToEnd, readFieldItems]
    cases budget with
    | zero => cases h
    | succ budget =>
      unfold readItemsFrom at h
      unfold itemsBefore
      cases hn : nextItem (index == 0) s with
      | error g =>
        have hflaw := (nextItem_onlyFlaws _ s).flaw g hn
        exact Flawed.blamed ⟨g, rfl, hflaw⟩ (by simp [Fields.ItemsFitBefore])
      | ok next =>
        obtain ⟨more, tail⟩ := next
        cases more with
        | false => simp [hn] at h
        | true =>
          cases hv : readValue depth tail with
          | error g =>
            simp only [hv, Fields.ItemsFitBefore]
            refine (hp.1.blamed hv).failsWith fun g' hg => ?_
            simp only [hg]
            exact ⟨_, rfl, rfl⟩
          | ok r =>
            obtain ⟨v, after⟩ := r
            simp only [hn, hv] at h
            simp only [hv, Fields.ItemsFitBefore]
            have hlater : Blamed _ (readItemsToEnd expected (index + 1) (read.insert name v)
              (rest.readers depth) after) := Fields.Plain.blamed_items hp.2 h
            refine (hp.1.judged hv).blamed_and (fun g hg => ?_) (fun hg => ?_) hlater
            · simp only [hg]
              exact ⟨_, rfl, rfl⟩
            · simp only [hg]
              rfl

theorem Fields.Plain.blamed_member : ∀ {fields : Fields}, fields.Plain →
    ∀ key text, (fields.readers depth).find? (·.name == key) = some text →
    ∀ s f, readMemberValue (readValue depth) key s = .error f →
      Blamed (fields.MemberFitsBefore depth key s) (readMemberValue text.read key s)
  | .nil, _, key, text, ht, s, f, h => by
    rw [Fields.readers] at ht
    cases ht
  | .cons name shape default rest, hp, key, text, ht, s, f, h => by
    rw [Fields.readers, List.find?_cons] at ht
    unfold Fields.MemberFitsBefore
    by_cases hk : name = key
    · have hname : (name == key) = true := by simp [hk]
      simp only [hname, Option.some.injEq] at ht
      subst ht
      rw [if_pos hk]
      unfold readMemberValue at h ⊢
      cases hc : readColon s with
      | error g =>
        have hflaw := (readColon_onlyFlaws s).flaw g hc
        exact Flawed.blamed ⟨g, rfl, hflaw⟩ (by simp)
      | ok after =>
        cases hv : readValue depth after with
        | ok r => simp [hc, hv] at h
        | error g =>
          refine ((hp.1.blamed hv).failsWith fun g' hg => ?_).of_iff (by simp)
          simp only [hg]
          exact ⟨_, rfl, rfl⟩
    · have hname : (name == key) = false := by simp [hk]
      simp only [hname] at ht
      rw [if_neg hk]
      exact Fields.Plain.blamed_member hp.2 key text ht s f h

theorem get?_kept_eq_none_iff {helds : List ValueField} {entries : List (String × Value)}
    {key : String} (hk : isField helds key = true) :
    (entries.foldl (keep helds) .empty).get? key = none ↔ key ∉ entries.map Prod.fst := by
  rw [get?_kept, if_pos hk, Object.get?_ofList, ← isSome_lastUnder?, Option.not_isSome_iff_eq_none]

theorem blamed_record_object (hf : fields.Readable) (hs : skipSpace s = .char '{' :: rest)
    (h : readNamed (looseValue fields.checkers depth) rest = .error f) :
    Blamed ((Shape.record name fields).FitsBefore (depth + 1) s)
      ((Shape.record name fields).read (depth + 1) s) := by
  have hb : Blamed _ (readMembers (readField (fields.readers depth)) Object.empty rest) :=
    blamed_members (hf.plain.agreeing depth) hf.plain.blamed_member h
  simp only [Shape.FitsBefore, Shape.read, hs, readRecordMembers]
  refine ((hb.failsWith fun g hg => ?_).failsWith (failsWith_settleObject _)).of_iff ?_
  · rw [hg]
    exact ⟨g, rfl, rfl⟩
  · exact and_congr_right fun _ => forall₂_congr fun key text =>
      forall₂_congr fun _ hk => and_congr_left fun _ => get?_kept_eq_none_iff hk

theorem blamed_record_list (hf : fields.Readable) (hs : skipSpace s = .char '[' :: rest)
    (h : readItems (readValue depth) rest = .error f) :
    Blamed ((Shape.record name fields).FitsBefore (depth + 1) s)
      ((Shape.record name fields).read (depth + 1) s) := by
  have hb : Blamed _ (readItemsToEnd (listExpectation name (fields.readers depth).length) 0
    Object.empty (fields.readers depth) rest) := hf.plain.blamed_items h
  simp only [Shape.FitsBefore, Shape.read, hs]
  exact hb.failsWith (failsWith_settleList _)

theorem readLoosely_eq (hs : ∀ tail, skipSpace s ≠ .char '{' :: tail) :
    readLoosely fields depth s = readValue depth s := by
  unfold readLoosely
  split
  · next tail _ hs' => exact absurd hs' (hs tail)
  · rfl

/-- Where a text breaks off at a flaw, a record reports the flaw if what stands before it fits, and
else a mismatch. -/
theorem Fields.Readable.blamed (hf : fields.Readable) (h : readLoosely fields depth s = .error f) :
    Blamed ((Shape.record name fields).FitsBefore depth s)
      ((Shape.record name fields).read depth s) := by
  by_cases hbrace : ∃ tail, skipSpace s = .char '{' :: tail
  · obtain ⟨tail, hs⟩ := hbrace
    cases depth with
    | zero =>
      simp only [Shape.FitsBefore, Shape.read, hs]
      exact Flawed.blamed ⟨_, rfl, rfl⟩ trivial
    | succ depth =>
      simp only [readLoosely, hs] at h
      exact blamed_record_object hf hs (map_eq_error_iff.mp h)
  · have hobject (tail : List Piece) : skipSpace s ≠ .char '{' :: tail :=
      fun hs => hbrace ⟨tail, hs⟩
    rw [readLoosely_eq hobject] at h
    cases broken_of_readValue h with
    | deepList hs =>
      simp only [Shape.FitsBefore, Shape.read, hs]
      exact Flawed.blamed ⟨_, rfl, rfl⟩ trivial
    | deepObject hs | object hs => exact absurd hs (hobject _)
    | list hs hi => exact blamed_record_list hf hs hi
    | scalar hlist _ hv =>
      have hfits : (Shape.record name fields).FitsBefore depth s := by
        unfold Shape.FitsBefore
        split
        · exact absurd ‹_› (hobject _)
        · exact absurd ‹_› (hlist _)
        · trivial
      rw [read_record_eq_refuse hlist hobject]
      exact (refuse_flawed hlist hobject hv _).blamed hfits

/-- What is no value for the loose reader is none at all. -/
theorem readLoosely_of_readValue (h : readValue depth s = .ok (v, rest)) :
    ∃ u, readLoosely fields depth s = .ok (u, rest) := by
  by_cases hbrace : ∃ tail, skipSpace s = .char '{' :: tail
  · obtain ⟨tail, hs⟩ := hbrace
    cases spelled_of_readValue h with
    | list hs' => simp [hs] at hs'
    | scalar _ hobject => exact absurd hs (hobject _)
    | @object depth _ tail' _ o hs' ho =>
      obtain ⟨entries, after, he, rfl, -⟩ := entries_of_readObject ho
      have hvalue (key : String) (s : List Piece) (v : Value) (rest : List Piece)
          (hv : readValue depth s = .ok (v, rest)) :
          ∃ u, looseValue fields.checkers depth key s = .ok (u, rest) ∧ True := by
        unfold looseValue
        split
        · exact ⟨v, hv, trivial⟩
        · exact ⟨.null, map_eq_ok_iff.mpr ⟨rest, skipValue_of_readValue hv, rfl⟩, trivial⟩
      have hstep (key : String) (read read' : List (String × Value)) (s : List Piece)
          (next : List (String × Value)) (rest : List Piece) (_ : True)
          (hn : readEntry (readValue depth) key read s = .ok (next, rest)) :
          ∃ next', readEntry (looseValue fields.checkers depth key) key read' s =
            .ok (next', rest) ∧ True := by
        obtain ⟨⟨v, tail⟩, hm, he⟩ := map_eq_ok_iff.mp hn
        cases he
        obtain ⟨u, hu, -⟩ := readMemberValue_sim (hvalue key) hm
        exact ⟨_, map_eq_ok_iff.mpr ⟨(u, rest), hu, rfl⟩, trivial⟩
      obtain ⟨entries', he', -⟩ := readMembersFrom_sim hstep trivial he
      simp only [readLoosely, hs']
      exact ⟨_, map_eq_ok_iff.mpr ⟨(entries', after), he', rfl⟩⟩
  · rw [readLoosely_eq fun tail hs => hbrace ⟨tail, hs⟩]
    exact ⟨v, h⟩

theorem Fields.Readable.read_of_loose (hf : fields.Readable) {w : Value}
    (hv : readLoosely fields depth s = .ok (v, rest))
    (hw : (Shape.record name fields).check v = .ok w)
    (hn : GivenOnce fields.checkers (namesIn s)) (hlong : ¬ Overlong fields v) :
    (Shape.record name fields).read depth s = .ok (w, rest) := by
  unfold readLoosely at hv
  split at hv
  · next tail depth hs =>
    obtain ⟨⟨entries, after⟩, he, hvalue⟩ := map_eq_ok_iff.mp hv
    cases hvalue
    have hloose := readsFields_looseValue fields.checkers depth
    rw [checkRecord_object] at hw
    rw [namesIn_of_readNamed hloose.passes hs he] at hn
    simp only [Shape.read, hs]
    exact readRecordMembers_of_check (hf.plain.agreeing _) hf.kept hloose he hw hn
  · exact hf.read_of_check hv hw hn hlong

theorem Fields.Readable.misjudged_of_loose (hf : fields.Readable)
    (hv : readLoosely fields depth s = .ok (v, rest))
    (hno : ¬ ((∃ w, (Shape.record name fields).check v = .ok w) ∧
      GivenOnce fields.checkers (namesIn s))) :
    Misjudged ((Shape.record name fields).read depth s) := by
  unfold readLoosely at hv
  split at hv
  · next tail depth hs =>
    obtain ⟨⟨entries, after⟩, he, hvalue⟩ := map_eq_ok_iff.mp hv
    cases hvalue
    have hloose := readsFields_looseValue fields.checkers depth
    rw [checkRecord_object, namesIn_of_readNamed hloose.passes hs he] at hno
    simp only [Shape.read, hs]
    exact readRecordMembers_misjudged (hf.plain.agreeing _) hloose he hno
  · exact hf.read_misjudged hv hno

theorem readValue_of_readLoosely_array {vs : List Value}
    (hv : readLoosely fields depth s = .ok (.array vs, rest)) :
    readValue depth s = .ok (.array vs, rest) := by
  unfold readLoosely at hv
  split at hv
  · obtain ⟨_, -, he⟩ := map_eq_ok_iff.mp hv
    exact absurd (congrArg (fun r => r.1.kind) he) nofun
  · exact hv

end

section
variable {name : String} {fields : Fields} {s rest : List Piece} {v w : Value} {f : Fault}

theorem parsePieces_error_of_loose (h : readLoosely fields depthLimit s = .error f) :
    ∃ g, parsePieces s = .error g := by
  cases hv : readValue depthLimit s with
  | error g => exact ⟨_, readWhole_error hv⟩
  | ok r =>
    have hloose : ∃ u, readLoosely fields depthLimit s = .ok (u, r.2) :=
      readLoosely_of_readValue hv
    obtain ⟨u, hu⟩ := hloose
    rw [h] at hu
    cases hu

theorem Fields.Readable.parsePieces_flawed (hf : fields.Readable)
    (h : readLoosely fields depthLimit s = .error f)
    (hfits : (Shape.record name fields).FitsBefore depthLimit s) :
    ∃ g, (Shape.record name fields).parsePieces s = .error g ∧ isMismatch g.cause = false := by
  obtain ⟨g, hg, hm⟩ := (hf.blamed h).fit hfits
  exact ⟨_, readWhole_error hg, hm⟩

theorem Fields.Readable.parsePieces_mistaken (hf : fields.Readable)
    (h : readLoosely fields depthLimit s = .error f)
    (hfits : ¬ (Shape.record name fields).FitsBefore depthLimit s) :
    ∃ g, (Shape.record name fields).parsePieces s = .error g ∧ isMismatch g.cause = true := by
  obtain ⟨g, hg, hm⟩ := (hf.blamed h).misfit hfits
  exact ⟨_, readWhole_error hg, hm⟩

theorem Fields.Readable.parsePieces_of_loose (hf : fields.Readable)
    (hv : readLoosely fields depthLimit s = .ok (v, rest)) (hend : readEnd rest = .ok ())
    (hw : (Shape.record name fields).check v = .ok w)
    (hn : GivenOnce fields.checkers (namesIn s)) (hlong : ¬ Overlong fields v) :
    (Shape.record name fields).parsePieces s = .ok w :=
  readWhole_eq_ok_iff.mpr ⟨rest, hf.read_of_loose hv hw hn hlong, hend⟩

theorem Fields.Readable.parsePieces_mismatch_of_loose (hf : fields.Readable)
    (hv : readLoosely fields depthLimit s = .ok (v, rest))
    (hno : ¬ ((∃ w, (Shape.record name fields).check v = .ok w) ∧
      GivenOnce fields.checkers (namesIn s))) :
    ∃ g, (Shape.record name fields).parsePieces s = .error g ∧ isMismatch g.cause = true := by
  obtain ⟨g, hg, hm⟩ := hf.misjudged_of_loose hv hno
  exact ⟨_, readWhole_error hg, hm⟩

theorem Fields.Readable.parsePieces_trailing_of_loose (hf : fields.Readable)
    (hv : readLoosely fields depthLimit s = .ok (v, rest)) (hend : readEnd rest ≠ .ok ())
    (hw : (Shape.record name fields).check v = .ok w)
    (hn : GivenOnce fields.checkers (namesIn s)) :
    ∃ g, (Shape.record name fields).parsePieces s = .error g ∧
      g.cause = .flaw .trailingCharacters := by
  by_cases hlong : Overlong fields v
  · obtain ⟨vs, rfl, -⟩ := id hlong
    obtain ⟨left, he⟩ := hf.read_overlong (readValue_of_readLoosely_array hv) hw hlong
    exact ⟨_, readWhole_error he, rfl⟩
  · exact readWhole_trailing (hf.read_of_loose hv hw hn hlong) hend

end

end ToolPipeline.Json
