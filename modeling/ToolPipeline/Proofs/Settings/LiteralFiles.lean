import ToolPipeline.Proofs.Json.TypedReading
import ToolPipeline.Proofs.Settings.Overlays
import ToolPipeline.Settings.File

/-! Settings files that mean what they say. Where no object inside of a file has one of the two keys
by which it may stand for another value, the file holds what its text is as JSON. -/

namespace ToolPipeline

open Json

namespace SettingsFile

/-- A member that has neither of the two keys. -/
def readLiteralPart (value : List Piece → Result Value) (key : String) (o : Object)
    (s : List Piece) : Result Object :=
  if key = markKey ∨ key = valueKey then .error (.unsettled (.duplicateField key) s)
  else (readMemberValue value key s).map fun (v, rest) => (o.insert key v, rest)

/-- Reads a value no object of which has one of the two keys. -/
def readLiteral (depth : Nat) (s : List Piece) : Result Value :=
  match skipSpace s with
  | .char '[' :: rest =>
    match depth with
    | 0 => .error (.ahead .tooDeep (.char '[' :: rest))
    | depth + 1 => (readItems (readLiteral depth) rest).map fun (vs, rest) => (.array vs, rest)
  | .char '{' :: rest =>
    match depth with
    | 0 => .error (.ahead .tooDeep (.char '{' :: rest))
    | depth + 1 =>
      (readMembers (readLiteralPart (readLiteral depth)) Object.empty rest).map fun (o, rest) =>
        (.object o, rest.drop 1)
  | s => readScalar s

def readLiteralTop (s : List Piece) : Result Object :=
  match skipSpace s with
  | .char '{' :: rest => readObject (readLiteral (depthLimit - 1)) rest
  | s => refuse "a map" s

/-- The file holds an object, and no object inside of that one has one of the two keys. -/
def Literal (text : String) : Prop := (readWhole readLiteralTop (Piece.ofString text)).isOk

instance (text : String) : Decidable (Literal text) :=
  inferInstanceAs (Decidable (_ = true))

section
variable {depth : Nat} {s rest : List Piece} {v : Value}

/-- A value that, if it is an object, has no two members of one key. -/
def Tidy (d : Datum) : Prop := ∀ members mark, d = .dict members mark → Datum.Distinct members

theorem readScalar_datum (h : readScalar s = .ok (v, rest)) :
    (Datum.ofJson v.json).toValue = v ∧ Tidy (.ofJson v.json) := by
  have hnumber (n : Number) : (Datum.ofJson (Value.number n).json).toValue = .number n := by
    cases n <;> rfl
  unfold readScalar at h
  split at h
  case h_1 => cases h
  case h_5 =>
    obtain ⟨⟨n, tail⟩, -, he⟩ := map_eq_ok_iff.mp h
    cases he
    exact ⟨hnumber n, fun members mark he => by cases he⟩
  case h_7 =>
    split at h
    · obtain ⟨⟨n, tail⟩, -, he⟩ := map_eq_ok_iff.mp h
      cases he
      exact ⟨hnumber n, fun members mark he => by cases he⟩
    · cases h
  all_goals
    obtain ⟨_, -, he⟩ := map_eq_ok_iff.mp h
    cases he
    exact ⟨rfl, fun members mark he => by cases he⟩

/-- What an object and members read from the same text have in common. -/
structure Reads (o : Object) (members : List (String × Datum)) : Prop where
  distinct : Datum.Distinct members
  lookup : ∀ key, o.get? key = (members.lookup key).map Datum.toValue
  tidy : ∀ key d, members.lookup key = some d → Tidy d

theorem Reads.empty : Reads Object.empty [] :=
  ⟨List.nodup_nil, fun key => Object.get?_empty key, fun key d h => by cases h⟩

theorem Reads.put {o : Object} {members : List (String × Datum)} (h : Reads o members)
    (key : String) {d : Datum} (hd : Tidy d) :
    Reads (o.insert key d.toValue) (Datum.put key d members) := by
  refine ⟨h.distinct.put key d, fun name => ?_, fun name b hb => ?_⟩
  · rw [Object.get?_insert, Datum.lookup_put, h.lookup]
    split <;> rfl
  · rw [Datum.lookup_put] at hb
    split at hb
    · cases hb
      exact hd
    · exact h.tidy name b hb

theorem Reads.toValue {o : Object} {members : List (String × Datum)} (h : Reads o members)
    (mark : Nat) : (Datum.dict members mark).toValue = .object o := by
  rw [Datum.toValue_dict, Value.object_inj]
  exact Object.ext_get? fun key => (Datum.lookup_objectOf _ _).trans (h.lookup key).symm

structure ReadsParts (o : Object) (p : Parts) : Prop where
  reads : Reads o p.members
  mark : p.mark = none
  value : p.value = none

theorem ReadsParts.datum {o : Object} {p : Parts} (h : ReadsParts o p) :
    p.datum = .dict p.members 0 := by
  simp only [Parts.datum, h.value]

theorem readPart_of_literal {value : List Piece → Result Value} {value' : List Piece → Result Datum}
    (hv : ∀ s v rest, value s = .ok (v, rest) →
      ∃ d, value' s = .ok (d, rest) ∧ d.toValue = v ∧ Tidy d)
    (key : String) (o : Object) (p : Parts) (s : List Piece) (next : Object) (rest : List Piece)
    (h : ReadsParts o p) (hs : readLiteralPart value key o s = .ok (next, rest)) :
    ∃ next', readPart depth value' key p s = .ok (next', rest) ∧ ReadsParts next next' := by
  unfold readLiteralPart at hs
  split at hs
  · cases hs
  · next hk =>
    obtain ⟨hmark, hvalue⟩ := not_or.mp hk
    obtain ⟨⟨v, tail⟩, hm, he⟩ := map_eq_ok_iff.mp hs
    cases he
    obtain ⟨d, hd, rfl, ht⟩ := readMemberValue_sim hv hm
    refine ⟨{ p with members := Datum.put key d p.members }, ?_, h.reads.put key ht, h.mark,
      h.value⟩
    unfold readPart
    rw [if_neg hmark]
    exact map_eq_ok_iff.mpr ⟨(d, rest), hd, if_neg hvalue⟩

theorem readDatum_of_readLiteral (h : readLiteral depth s = .ok (v, rest)) :
    ∃ d, readDatum depth s = .ok (d, rest) ∧ d.toValue = v ∧ Tidy d := by
  induction depth generalizing s v rest with
  | zero =>
    unfold readLiteral at h
    unfold readDatum
    split at h
    · cases h
    · cases h
    · exact ⟨_, by simp only [h, Except.map], readScalar_datum h⟩
  | succ depth ih =>
    unfold readLiteral at h
    split at h
    · next tail hs =>
      obtain ⟨⟨vs, after⟩, hi, he⟩ := map_eq_ok_iff.mp h
      cases he
      have hi : readItemsFrom (readLiteral depth) (tail.length + 1) 0
          (([] : List Datum).map Datum.toValue) tail = .ok (vs, rest) := hi
      obtain ⟨ds, hds, rfl⟩ := readItemsFrom_sim (fun s a rest hr => by
        obtain ⟨d, hd, hv, -⟩ := ih hr
        exact ⟨d, hd, hv⟩) hi
      refine ⟨.list ds 0, ?_, ?_, fun members mark he => by cases he⟩
      · simp only [readDatum, hs]
        exact map_eq_ok_iff.mpr ⟨(ds, rest), hds, rfl⟩
      · rw [Datum.toValue, Datum.valuesOf_eq]
    · next tail hs =>
      obtain ⟨⟨o, after⟩, hm, he⟩ := map_eq_ok_iff.mp h
      cases he
      have hempty : ReadsParts Object.empty Parts.none := ⟨.empty, rfl, rfl⟩
      obtain ⟨p, hp, hr⟩ := readMembersFrom_sim (readPart_of_literal fun s v rest => ih) hempty hm
      refine ⟨p.datum, ?_, hr.datum ▸ hr.reads.toValue 0, fun members mark he => ?_⟩
      · simp only [readDatum, hs]
        exact map_eq_ok_iff.mpr ⟨(p, after), hp, rfl⟩
      · rw [hr.datum] at he
        cases he
        exact hr.reads.distinct
    · exact ⟨_, by simp only [readDatum, h, Except.map], readScalar_datum h⟩

theorem readAny_of_literal {value : List Piece → Result Value}
    (hv : ∀ s v rest, value s = .ok (v, rest) → readValue depth s = .ok (v, rest))
    (key : String) (o o' : Object) (s : List Piece) (next : Object) (rest : List Piece)
    (ho : o = o') (hs : readLiteralPart value key o s = .ok (next, rest)) :
    ∃ next', readAny depth key o' s = .ok (next', rest) ∧ next = next' := by
  subst ho
  unfold readLiteralPart at hs
  split at hs
  · cases hs
  · obtain ⟨q, hm, he⟩ := map_eq_ok_iff.mp hs
    have hq := readMemberValue_mono (fun s r hr => hv s r.1 r.2 hr) hm
    exact ⟨next, map_eq_ok_iff.mpr ⟨q, hq, he⟩, rfl⟩

theorem readValue_of_readLiteral (h : readLiteral depth s = .ok (v, rest)) :
    readValue depth s = .ok (v, rest) := by
  induction depth generalizing s v rest with
  | zero =>
    unfold readLiteral at h
    unfold readValue
    split at h
    · cases h
    · cases h
    · next hlist hobject => simpa only using h
  | succ depth ih =>
    unfold readLiteral at h
    split at h
    · next tail hs =>
      obtain ⟨⟨vs, after⟩, hi, he⟩ := map_eq_ok_iff.mp h
      cases he
      have hm := readItemsFrom_mono (fun s r hr => ih hr) hi
      simp only [readValue, hs]
      exact map_eq_ok_iff.mpr ⟨(vs, rest), hm, rfl⟩
    · next tail hs =>
      obtain ⟨⟨o, after⟩, hm, he⟩ := map_eq_ok_iff.mp h
      cases he
      obtain ⟨o', ho', rfl⟩ := readMembersFrom_sim (readAny_of_literal fun s v rest => ih) rfl hm
      simp only [readValue, hs]
      refine map_eq_ok_iff.mpr ⟨(o, after.drop 1), ?_, rfl⟩
      exact map_eq_ok_iff.mpr ⟨(o, after), ho', rfl⟩
    · next hlist hobject => simpa only [readValue] using h

end

theorem readTop_of_literal {s rest : List Piece} {o : Object}
    (h : readLiteralTop s = .ok (o, rest)) :
    readValue depthLimit s = .ok (.object o, rest) ∧
      ∃ members, readTop s = .ok (members, rest) ∧ Reads o members := by
  unfold readLiteralTop at h
  split at h
  · next tail hs =>
    constructor
    · have hlimit : depthLimit = depthLimit - 1 + 1 := rfl
      rw [hlimit]
      unfold readValue
      simp only [hs]
      have ho := readObject_mono (fun s r hr => readValue_of_readLiteral hr) h
      exact map_eq_ok_iff.mpr ⟨(o, rest), ho, rfl⟩
    · obtain ⟨⟨o', after⟩, hm, he⟩ := map_eq_ok_iff.mp h
      cases he
      have hstep (key : String) (p : Object) (q : List (String × Datum)) (s : List Piece)
          (next : Object) (rest : List Piece) (hpq : Reads p q)
          (hr : (readMemberValue (readLiteral (depthLimit - 1)) key s).map
            (fun r => (p.insert key r.1, r.2)) = .ok (next, rest)) :
          ∃ next', (readMemberValue (readDatum (depthLimit - 1)) key s).map
            (fun r => (Datum.put key r.1 q, r.2)) = .ok (next', rest) ∧
              Reads next next' := by
        obtain ⟨⟨v, tail⟩, hv, he⟩ := map_eq_ok_iff.mp hr
        cases he
        obtain ⟨d, hd, rfl, ht⟩ :=
          readMemberValue_sim (fun s v rest hr => readDatum_of_readLiteral hr) hv
        exact ⟨Datum.put key d q, map_eq_ok_iff.mpr ⟨(d, tail), hd, rfl⟩, hpq.put key ht⟩
      obtain ⟨members, hmembers, hr⟩ := readMembersFrom_sim hstep .empty hm
      refine ⟨members, ?_, hr⟩
      unfold readTop
      simp only [hs]
      exact map_eq_ok_iff.mpr ⟨(members, after), hmembers, rfl⟩
  · exact absurd h refuse_ne_ok

/-- A literal file holds the object that its text is. -/
theorem parse_of_literal {text : String} {o : Object} (ho : Json.parse text = .ok (.object o))
    (h : Literal text) : ∃ members, SettingsFile.parse text = .ok members ∧ Reads o members := by
  have hread : ∃ o', readWhole readLiteralTop (Piece.ofString text) = .ok o' := by
    unfold Literal at h
    cases hr : readWhole readLiteralTop (Piece.ofString text) with
    | error f => rw [hr] at h; cases h
    | ok o' => exact ⟨o', rfl⟩
  obtain ⟨o', ho'⟩ := hread
  obtain ⟨rest, hr, hend⟩ := readWhole_eq_ok_iff.mp ho'
  obtain ⟨hv, members, hm, hreads⟩ := readTop_of_literal hr
  have hparse : Json.parse text = .ok (.object o') := readWhole_eq_ok_iff.mpr ⟨rest, hv, hend⟩
  rw [ho, Except.ok.injEq, Value.object_inj] at hparse
  subst hparse
  exact ⟨members, readWhole_eq_ok_iff.mpr ⟨rest, hm, hend⟩, hreads⟩

end SettingsFile

end ToolPipeline
