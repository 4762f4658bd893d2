import ToolPipeline.Proofs.Json.SkippedScalars
import ToolPipeline.Proofs.Json.TypedReading

/-! Passing over values. A value that can be read can be passed over, up to the same place and under
whatever brackets are open, and there are always steps enough for it. -/

namespace ToolPipeline.Json

def Bracket.opening : Bracket → Piece
  | .list => .char '['
  | .object => .char '{'

def Bracket.closing : Bracket → Piece
  | .list => .char ']'
  | .object => .char '}'

/-- Another item or member starts there: before the first one nothing, before others a comma. -/
inductive Follows (bracket : Bracket) (s : List Piece) : (first : Bool) → List Piece → Prop where
  | first (p : Piece) (tail : List Piece) (hs : skipSpace s = p :: tail)
    (hp : p ≠ bracket.closing) : Follows bracket s true (p :: tail)
  | next (tail : List Piece) (hs : skipSpace s = .char ',' :: tail) : Follows bracket s false tail

section
variable {s rest : List Piece} {first : Bool}

theorem skipSpace_skipSpace (s : List Piece) : skipSpace (skipSpace s) = skipSpace s := by
  unfold skipSpace
  induction s with
  | nil => rfl
  | cons p s ih =>
    by_cases hp : isSpace p
    · rw [List.dropWhile_cons_of_pos hp, ih]
    · rw [List.dropWhile_cons_of_neg hp, List.dropWhile_cons_of_neg hp]

theorem skipSpace_eq_self (h : skipSpace s = rest) : skipSpace rest = rest :=
  h ▸ skipSpace_skipSpace s

theorem length_le_of_skipSpace (h : skipSpace s = rest) : rest.length ≤ s.length :=
  h ▸ (List.dropWhile_suffix _).length_le

theorem readValue_skipSpace (depth : Nat) (s : List Piece) :
    readValue depth (skipSpace s) = readValue depth s := by
  rw [readValue.eq_def, readValue.eq_def, skipSpace_skipSpace]

theorem skipSpace_of_nextItem (h : nextItem first s = .ok (false, rest)) :
    ∃ tail, rest = .char ']' :: tail ∧ skipSpace s = .char ']' :: tail := by
  unfold nextItem at h
  split at h
  · cases h
  · next tail hs =>
    cases h
    exact ⟨tail, rfl, hs⟩
  · split at h
    · cases h
    · split at h
      · obtain ⟨_, -, he⟩ := map_eq_ok_iff.mp h
        cases he
      · cases h

theorem follows_of_nextItem (h : nextItem first s = .ok (true, rest)) :
    ∃ start, Follows .list s first start ∧ rest = skipSpace start := by
  unfold nextItem at h
  split at h
  · cases h
  · cases h
  · next p tail hclose hs =>
    cases first with
    | true =>
      cases h
      exact ⟨_, .first p tail hs hclose, (skipSpace_eq_self hs).symm⟩
    | false =>
      simp only [Bool.false_eq_true, if_false] at h
      split at h
      · next hp =>
        obtain ⟨after, ha, he⟩ := map_eq_ok_iff.mp h
        cases he
        refine ⟨tail, .next tail (hp ▸ hs), ?_⟩
        unfold afterListComma at ha
        split at ha
        · cases ha
        · cases ha
        · exact (Except.ok.inj ha).symm
      · cases h

def keyText (first : Bool) (p : Piece) (tail : List Piece) : Except Fault (List Piece) :=
  if first then
    if p = .char '"' then .ok (p :: tail) else .error (.ahead .keyNotString (p :: tail))
  else if p = .char ',' then afterObjectComma tail
  else .error (.ahead .expectedObjectEnd (p :: tail))

theorem nextKey_eq {p : Piece} {tail : List Piece} (hs : skipSpace s = p :: tail)
    (hp : p ≠ .char '}') :
    nextKey first s = do
      let quoted ← keyText first p tail
      let (key, rest) ← readString (quoted.drop 1)
      return (some key, rest) := by
  unfold nextKey keyText
  rw [hs]
  split
  · contradiction
  · next hc =>
    cases hc
    exact absurd rfl hp
  · next hc =>
    cases hc
    cases first
    · by_cases hcomma : p = .char ',' <;>
        simp only [hcomma, Bool.false_eq_true, if_false, if_true]
    · by_cases hquote : p = .char '"' <;> simp only [hquote, if_false, if_true]

theorem skipSpace_of_nextKey (h : nextKey first s = .ok (none, rest)) :
    ∃ tail, rest = .char '}' :: tail ∧ skipSpace s = .char '}' :: tail := by
  cases hs : skipSpace s with
  | nil => simp only [nextKey, hs, reduceCtorEq] at h
  | cons p tail =>
    by_cases hp : p = .char '}'
    · subst hp
      simp only [nextKey, hs] at h
      cases h
      exact ⟨tail, rfl, rfl⟩
    · rw [nextKey_eq hs hp] at h
      obtain ⟨quoted, -, h⟩ := bind_eq_ok_iff.mp h
      obtain ⟨_, -, he⟩ := bind_eq_ok_iff.mp h
      cases he

theorem start_of_keyText {p : Piece} {tail quoted : List Piece} (hs : skipSpace s = p :: tail)
    (h : keyText first p tail = .ok quoted) :
    ∃ start, Follows .object s first start ∧ skipSpace start = .char '"' :: quoted.drop 1 := by
  unfold keyText at h
  cases first with
  | true =>
    simp only [if_true] at h
    split at h
    · next hp =>
      cases h
      exact ⟨p :: tail, .first p tail hs (hp ▸ by decide), hp ▸ skipSpace_eq_self hs⟩
    · cases h
  | false =>
    simp only [Bool.false_eq_true, if_false] at h
    split at h
    · next hp =>
      refine ⟨tail, .next tail (hp ▸ hs), ?_⟩
      unfold afterObjectComma at h
      split at h
      · cases h
      · next hn =>
        cases h
        exact hn
      · cases h
      · cases h
    · cases h

theorem follows_of_nextKey {key : String} (h : nextKey first s = .ok (some key, rest)) :
    ∃ start tail, Follows .object s first start ∧ skipSpace start = .char '"' :: tail ∧
      readString tail = .ok (key, rest) := by
  cases hs : skipSpace s with
  | nil => simp only [nextKey, hs, reduceCtorEq] at h
  | cons p tail =>
    by_cases hp : p = .char '}'
    · subst hp
      simp only [nextKey, hs] at h
      cases h
    · rw [nextKey_eq hs hp] at h
      obtain ⟨quoted, hq, h⟩ := bind_eq_ok_iff.mp h
      obtain ⟨⟨name, after⟩, hr, he⟩ := bind_eq_ok_iff.mp h
      cases he
      obtain ⟨start, hf, hstart⟩ := start_of_keyText hs hq
      exact ⟨start, quoted.drop 1, hf, hstart, hr⟩

theorem skipSpace_of_readColon (h : readColon s = .ok rest) : skipSpace s = .char ':' :: rest := by
  unfold readColon at h
  split at h
  · cases h
  · next tail hs =>
    cases h
    exact hs
  · cases h

end

/-- After a value: nothing if no bracket is open, otherwise the rest of what is open. -/
def resume (steps : Nat) (opened : List Bracket) (rest : List Piece) : Except Fault (List Piece) :=
  if opened.isEmpty then .ok rest else skipFrom steps opened (.end true) rest

section
variable {s tail : List Piece} {first : Bool} {bracket : Bracket} {steps : Nat}
  {opened : List Bracket}

theorem skipFrom_closing {comma : Bool} (h : skipSpace s = bracket.closing :: tail) :
    skipFrom (steps + 1) (bracket :: opened) (.end comma) s = resume steps opened tail := by
  rw [skipFrom]
  cases bracket <;> simp [h, Bracket.closing, resume]

theorem skipFrom_follows (h : Follows bracket s first tail) :
    skipFrom (steps + 1) (bracket :: opened) (.end !first) s =
      skipFrom steps (bracket :: opened) (dueIn bracket) tail := by
  rw [skipFrom]
  cases h with
  | first p tail hs hp =>
    cases bracket <;> simp_all [Bracket.closing]
  | next tail hs => simp [hs]

theorem skipFrom_opening (h : skipSpace s = bracket.opening :: tail) :
    skipFrom (steps + 1) opened .value s =
      skipFrom steps (bracket :: opened) (.end false) tail := by
  rw [skipFrom]
  cases bracket <;> simp [h, Bracket.opening]

theorem skipFrom_scalar (hlist : ∀ tail, skipSpace s ≠ .char '[' :: tail)
    (hobject : ∀ tail, skipSpace s ≠ .char '{' :: tail) (h : skipScalar (skipSpace s) = .ok tail) :
    skipFrom (steps + 1) opened .value s = resume steps opened tail := by
  rw [skipFrom]
  split
  · next hs => exact absurd hs (hlist _)
  · next hs => exact absurd hs (hobject _)
  · simp only [h, resume]

theorem skipFrom_key {key : String} {rest after : List Piece}
    (hs : skipSpace s = .char '"' :: tail) (hr : readString tail = .ok (key, rest))
    (hc : readColon rest = .ok after) :
    skipFrom (steps + 1) opened .member s = skipFrom steps opened .value after := by
  have hkey : skipKey s = .ok after := by
    simp only [skipKey, hs, skipString_of_readString hr, skipSpace_of_readColon hc]
  rw [skipFrom, hkey]

end

def PassesValue (s rest : List Piece) : Prop :=
  ∃ cost, cost + 2 * rest.length < 2 * s.length ∧
    ∀ steps opened, skipFrom (steps + cost) opened .value s = resume steps opened rest

def PassesItem (bracket : Bracket) (s rest : List Piece) : Prop :=
  ∃ cost, cost + 2 * rest.length < 2 * s.length ∧
    ∀ steps opened, skipFrom (steps + cost) (bracket :: opened) (dueIn bracket) s =
      skipFrom steps (bracket :: opened) (.end true) rest

/-- All further items or members are passed over, up to after the closing bracket. -/
def PassesItems (bracket : Bracket) (first : Bool) (s rest : List Piece) : Prop :=
  ∃ cost, cost + 2 * rest.length ≤ 2 * s.length ∧
    ∀ steps opened, skipFrom (steps + cost) (bracket :: opened) (.end !first) s =
      resume steps opened rest

section
variable {s rest tail start next : List Piece} {first : Bool} {bracket : Bracket}

theorem PassesItem.length_lt (h : PassesItem bracket s rest) : rest.length < s.length := by
  obtain ⟨cost, hb, -⟩ := h
  omega

theorem PassesItem.of_value (h : PassesValue s rest) : PassesItem .list s rest := by
  obtain ⟨cost, hb, hs⟩ := h
  exact ⟨cost, hb, fun steps opened => hs steps (.list :: opened)⟩

theorem PassesItem.of_member {key : String} {after colon : List Piece}
    (hs : skipSpace s = .char '"' :: tail) (hr : readString tail = .ok (key, after))
    (hc : readColon after = .ok colon) (h : PassesValue colon rest) :
    PassesItem .object s rest := by
  obtain ⟨cost, hb, hv⟩ := h
  have htail := length_le_of_skipSpace hs
  have hafter := length_of_skipString (skipString_of_readString hr)
  have hcolon := length_le_of_skipSpace (skipSpace_of_readColon hc)
  simp only [List.length_cons] at htail hcolon
  refine ⟨cost + 1, by omega, fun steps opened => ?_⟩
  exact (skipFrom_key hs hr hc).trans (hv steps (.object :: opened))

theorem PassesItems.close (h : skipSpace s = bracket.closing :: rest) :
    PassesItems bracket first s rest := by
  have hlen := length_le_of_skipSpace h
  rw [List.length_cons] at hlen
  exact ⟨1, by omega, fun steps opened => skipFrom_closing h⟩

theorem Follows.length_le (h : Follows bracket s first start) : start.length ≤ s.length := by
  cases h with
  | first p tail hs hp => exact length_le_of_skipSpace hs
  | next tail hs => exact Nat.le_of_lt (length_le_of_skipSpace hs)

theorem PassesItems.cons (hf : Follows bracket s first start) (hi : PassesItem bracket start next)
    (h : PassesItems bracket false next rest) : PassesItems bracket first s rest := by
  obtain ⟨itemCost, hib, his⟩ := hi
  obtain ⟨cost, hb, hs⟩ := h
  have hstart := hf.length_le
  refine ⟨cost + itemCost + 1, by omega, fun steps opened => ?_⟩
  calc skipFrom (steps + (cost + itemCost + 1)) (bracket :: opened) (.end !first) s
      = skipFrom (steps + cost + itemCost) (bracket :: opened) (dueIn bracket) start := by
        rw [← skipFrom_follows hf]
        congr 1
        omega
    _ = skipFrom (steps + cost) (bracket :: opened) (.end true) next := his _ _
    _ = resume steps opened rest := hs _ _

theorem PassesValue.of_items (hs : skipSpace s = bracket.opening :: tail)
    (h : PassesItems bracket true tail rest) : PassesValue s rest := by
  obtain ⟨cost, hb, hc⟩ := h
  have hlen := length_le_of_skipSpace hs
  rw [List.length_cons] at hlen
  exact ⟨cost + 1, by omega, fun steps opened => (skipFrom_opening hs).trans (hc steps opened)⟩

theorem PassesValue.of_scalar (hlist : ∀ tail, skipSpace s ≠ .char '[' :: tail)
    (hobject : ∀ tail, skipSpace s ≠ .char '{' :: tail)
    (h : skipScalar (skipSpace s) = .ok rest) : PassesValue s rest := by
  have hlen := length_le_of_skipSpace (s := s) rfl
  have hrest := length_of_skipScalar h
  exact ⟨1, by omega, fun steps opened => skipFrom_scalar hlist hobject h⟩

theorem PassesValue.skipValue_eq (h : PassesValue s rest) : skipValue s = .ok rest := by
  obtain ⟨cost, hb, hs⟩ := h
  have hsteps : 2 * s.length + 2 = (2 * s.length + 2 - cost) + cost := by omega
  unfold skipValue
  rw [hsteps, hs]
  rfl

end

section
variable {s rest : List Piece} {first : Bool}

theorem passesItems_of_readItemsFrom {α : Type} {item : List Piece → Result α}
    (hitem : ∀ s v rest, item (skipSpace s) = .ok (v, rest) → PassesValue s rest)
    {budget index : Nat} {read vs : List α} (hb : s.length < budget)
    (h : readItemsFrom item budget index read s = .ok (vs, rest)) :
    PassesItems .list (index == 0) s rest := by
  -- an item takes up a unit at least, so the budget stays above the length of what is left
  induction budget generalizing index read s with
  | zero => exact absurd hb (Nat.not_lt_zero _)
  | succ budget ih =>
    unfold readItemsFrom at h
    split at h
    · cases h
    · next tail hn =>
      cases h
      obtain ⟨after, rfl, hs⟩ := skipSpace_of_nextItem hn
      exact .close hs
    · next tail hn =>
      split at h
      · cases h
      · next v next hv =>
        obtain ⟨start, hf, rfl⟩ := follows_of_nextItem hn
        have hi : PassesItem .list start next := .of_value (hitem _ _ _ hv)
        have hlen := hf.length_le
        have hnext := hi.length_lt
        exact .cons hf hi (ih (by omega) h)

theorem passesItems_of_readMembersFrom {σ : Type} {member : String → σ → List Piece → Result σ}
    (hmember : ∀ key read s next rest, member key read s = .ok (next, rest) →
      ∃ colon, readColon s = .ok colon ∧ PassesValue colon rest)
    {budget : Nat} {read all : σ} (hb : s.length < budget)
    (h : readMembersFrom member budget first read s = .ok (all, rest)) :
    ∃ after, rest = .char '}' :: after ∧ PassesItems .object first s after := by
  induction budget generalizing first read s with
  | zero => exact absurd hb (Nat.not_lt_zero _)
  | succ budget ih =>
    unfold readMembersFrom at h
    split at h
    · cases h
    · next tail hn =>
      cases h
      obtain ⟨after, rfl, hs⟩ := skipSpace_of_nextKey hn
      exact ⟨after, rfl, .close hs⟩
    · next key tail hn =>
      split at h
      · cases h
      · next read' next hm =>
        obtain ⟨start, quoted, hf, hs, hr⟩ := follows_of_nextKey hn
        obtain ⟨colon, hc, hv⟩ := hmember _ _ _ _ _ hm
        have hi := PassesItem.of_member hs hr hc hv
        have hlen := hf.length_le
        have hnext := hi.length_lt
        obtain ⟨after, hrest, ha⟩ := ih (by omega) h
        exact ⟨after, hrest, .cons hf hi ha⟩

theorem readColon_of_readMemberValue {α : Type} {value : List Piece → Result α} {key : String}
    {a : α} (h : readMemberValue value key s = .ok (a, rest)) :
    ∃ colon, readColon s = .ok colon ∧ value colon = .ok (a, rest) := by
  unfold readMemberValue at h
  split at h
  · cases h
  · next colon hc =>
    split at h
    · cases h
    · next r hv =>
      cases h
      exact ⟨colon, hc, hv⟩

theorem passesValue_of_readValue {depth : Nat} {v : Value}
    (h : readValue depth s = .ok (v, rest)) : PassesValue s rest := by
  induction depth generalizing s v rest with
  | zero =>
    cases spelled_of_readValue h with
    | scalar hlist hobject hr => exact .of_scalar hlist hobject (skipScalar_of_readScalar hr)
  | succ depth ih =>
    cases spelled_of_readValue h with
    | list hs hi =>
      have hitem (s : List Piece) (v : Value) (rest : List Piece)
          (hv : readValue depth (skipSpace s) = .ok (v, rest)) : PassesValue s rest :=
        ih (readValue_skipSpace depth s ▸ hv)
      have hitems := passesItems_of_readItemsFrom hitem (Nat.lt_succ_self _) hi
      have hopen : skipSpace s = Bracket.list.opening :: _ := hs
      exact .of_items hopen hitems
    | object hs ho =>
      obtain ⟨⟨o, closed⟩, hm, he⟩ := map_eq_ok_iff.mp ho
      cases he
      have hmember (key : String) (read : Object) (s : List Piece) (next : Object)
          (rest : List Piece) (hr : readAny depth key read s = .ok (next, rest)) :
          ∃ colon, readColon s = .ok colon ∧ PassesValue colon rest := by
        obtain ⟨⟨v, tail⟩, hr, he⟩ := map_eq_ok_iff.mp hr
        cases he
        obtain ⟨colon, hc, hv⟩ := readColon_of_readMemberValue hr
        exact ⟨colon, hc, ih hv⟩
      obtain ⟨after, rfl, ha⟩ :=
        passesItems_of_readMembersFrom hmember (Nat.lt_succ_self _) hm
      have hopen : skipSpace s = Bracket.object.opening :: _ := hs
      exact .of_items hopen ha
    | scalar hlist hobject hr => exact .of_scalar hlist hobject (skipScalar_of_readScalar hr)

/-- A value that can be read can be passed over, up to the same place. -/
theorem skipValue_of_readValue {depth : Nat} {v : Value}
    (h : readValue depth s = .ok (v, rest)) : skipValue s = .ok rest :=
  (passesValue_of_readValue h).skipValue_eq

end

end ToolPipeline.Json
