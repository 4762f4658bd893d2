import ToolPipeline.Proofs.Json.RecordMembers
import ToolPipeline.Proofs.Json.Trees

/-! Reading a text as the tree that it spells, with all members of an object in the order of the
text. What is read as a value is what is held of that tree. -/

namespace ToolPipeline.Json

def readAs {α β : Type} (f : α → β) (x : Result α) : Result β := x.map fun r => (f r.1, r.2)

section
variable {α β : Type} {f : α → β}

theorem readAs_ok {a : α} {rest : List Piece} : readAs f (.ok (a, rest)) = .ok (f a, rest) := rfl

theorem readAs_readAs {γ : Type} (g : β → γ) (x : Result α) :
    readAs g (readAs f x) = readAs (fun a => g (f a)) x := by
  cases x <;> rfl

theorem readAs_eq_ok_iff {x : Result α} {b : β} {rest : List Piece} :
    readAs f x = .ok (b, rest) ↔ ∃ a, x = .ok (a, rest) ∧ f a = b := by
  cases x with
  | error e => exact iff_of_false nofun fun ⟨_, h, _⟩ => nomatch h
  | ok r => simp [readAs, Except.map, Prod.ext_iff, and_comm]

theorem readItemsFrom_readAs {item : List Piece → Result α} {item' : List Piece → Result β}
    (h : ∀ s, item' s = readAs f (item s)) (budget index : Nat) (read : List α) (s : List Piece) :
    readItemsFrom item' budget index (read.map f) s =
      readAs (List.map f) (readItemsFrom item budget index read s) := by
  induction budget generalizing index read s with
  | zero => simp [readItemsFrom, readAs, Except.map]
  | succ budget ih =>
    unfold readItemsFrom
    split
    · rfl
    · simp [readAs, Except.map]
    · next tail _ =>
      rw [h]
      cases item tail with
      | error e => rfl
      | ok r => exact ih _ (r.1 :: read) _

theorem readMemberValue_readAs {value : List Piece → Result α} {value' : List Piece → Result β}
    (h : ∀ s, value' s = readAs f (value s)) (key : String) (s : List Piece) :
    readMemberValue value' key s = readAs f (readMemberValue value key s) := by
  unfold readMemberValue
  split
  · rfl
  · next tail _ =>
    rw [h]
    cases value tail <;> rfl

theorem readMembersFrom_readAs {member : String → α → List Piece → Result α}
    {member' : String → β → List Piece → Result β}
    (h : ∀ key read s, member' key (f read) s = readAs f (member key read s)) (budget : Nat)
    (first : Bool) (read : α) (s : List Piece) :
    readMembersFrom member' budget first (f read) s =
      readAs f (readMembersFrom member budget first read s) := by
  induction budget generalizing first read s with
  | zero => rfl
  | succ budget ih =>
    unfold readMembersFrom
    split
    · rfl
    · rfl
    · next key tail _ =>
      rw [h]
      cases member key read tail with
      | error e => rfl
      | ok r => exact ih _ _ _

end

/-- The tree that a text spells, if its containers nest at most `depth` deep. -/
def readTree (depth : Nat) (s : List Piece) : Result Json :=
  match skipSpace s with
  | .char '[' :: rest =>
    match depth with
    | 0 => .error (.ahead .tooDeep (.char '[' :: rest))
    | depth + 1 => readAs .array (readItems (readTree depth) rest)
  | .char '{' :: rest =>
    match depth with
    | 0 => .error (.ahead .tooDeep (.char '{' :: rest))
    | depth + 1 => (readEntries (readTree depth) rest).map fun (members, rest) =>
      (.object members, rest.drop 1)
  | s => readAs Value.json (readScalar s)

def parseTree (s : String) : Except Failure Json :=
  readWhole (readTree depthLimit) (Piece.ofString s)

section
variable {depth : Nat} {s : List Piece}

theorem holdMembers_append (members : List (String × Json)) (key : String) (t : Json) :
    holdMembers (members ++ [(key, t)]) = holdMembers members ++ [(key, hold t)] := by
  rw [holdMembers_eq, holdMembers_eq, List.map_append]
  rfl

theorem readEntry_eq {α : Type} (value : List Piece → Result α) (key : String)
    (entries : List (String × α)) (s : List Piece) :
    readEntry value key entries s =
      readAs (fun a => entries ++ [(key, a)]) (readMemberValue value key s) := rfl

theorem readEntries_hold {value : List Piece → Result Value} {tree : List Piece → Result Json}
    (h : ∀ s, value s = readAs hold (tree s)) (s : List Piece) :
    readEntries value s = readAs holdMembers (readEntries tree s) := by
  refine readMembersFrom_readAs (f := holdMembers) (fun key members s => ?_) _ _ [] _
  rw [readEntry_eq, readEntry_eq, readMemberValue_readAs h, readAs_readAs, readAs_readAs]
  simp only [holdMembers_append]

theorem readObject_hold {value : List Piece → Result Value} {tree : List Piece → Result Json}
    (h : ∀ s, value s = readAs hold (tree s)) (s : List Piece) :
    readObject value s = (readEntries tree s).map fun r =>
      (Object.ofList (holdMembers r.1), r.2.drop 1) := by
  have hobject : readObject value s =
      (readMembers (fun key o s => readAs (Object.insert o key) (readMemberValue value key s))
        Object.empty s).map fun r => (r.1, r.2.drop 1) := rfl
  have hmembers :
      readMembers (fun key o s => readAs (Object.insert o key) (readMemberValue value key s))
          Object.empty s =
        readAs (fun members => Object.ofList (holdMembers members)) (readEntries tree s) := by
    refine readMembersFrom_readAs (f := fun members => Object.ofList (holdMembers members))
      (fun key members s => ?_) _ _ [] _
    rw [readEntry_eq, readMemberValue_readAs h, readAs_readAs, readAs_readAs]
    simp only [holdMembers_append, Object.ofList, List.foldl_append]
    rfl
  rw [hobject, hmembers]
  cases readEntries tree s <;> rfl

theorem readTree_scalar (hlist : ∀ rest, skipSpace s = .char '[' :: rest → False)
    (hobject : ∀ rest, skipSpace s = .char '{' :: rest → False) :
    readTree depth s = readAs Value.json (readScalar (skipSpace s)) := by
  unfold readTree
  split
  · next hs => exact absurd hs (hlist _)
  · next hs => exact absurd hs (hobject _)
  · rfl

/-- What is read as a value is what is held of the tree. -/
theorem readValue_eq_hold (depth : Nat) (s : List Piece) :
    readValue depth s = readAs hold (readTree depth s) := by
  have hscalar (s : List Piece) :
      readScalar s = readAs hold (readAs Value.json (readScalar s)) := by
    rw [readAs_readAs]
    simp only [hold_json]
    cases readScalar s <;> rfl
  -- `readTree` is opened after the cases of `readValue`: its own `match` is the same one.
  induction depth generalizing s with
  | zero =>
    unfold readValue
    split
    · next hs => unfold readTree; simp only [hs]; rfl
    · next hs => unfold readTree; simp only [hs]; rfl
    · next hlist hobject =>
      rw [readTree_scalar hlist hobject]
      exact hscalar _
  | succ depth ih =>
    unfold readValue
    split
    · next rest hs =>
      unfold readTree
      simp only [hs]
      change readAs Value.array (readItemsFrom _ _ _ ([].map hold) _) = _
      rw [readItemsFrom_readAs ih, readAs_readAs, readAs_readAs]
      simp only [hold, holdItems_eq]
      rfl
    · next rest hs =>
      unfold readTree
      simp only [hs, readObject_hold ih]
      cases readEntries (readTree depth) rest <;> rfl
    · next hlist hobject =>
      rw [readTree_scalar hlist hobject]
      exact hscalar _

theorem readWhole_readAs {α β : Type} {f : α → β} {reader : List Piece → Result α}
    {reader' : List Piece → Result β} (h : ∀ s, reader' s = readAs f (reader s)) (s : List Piece) :
    readWhole reader' s = (readWhole reader s).map f := by
  unfold readWhole
  rw [h]
  cases reader s with
  | error e => rfl
  | ok r =>
    simp only [readAs, Except.map, bind, Except.bind]
    cases readEnd r.2 <;> rfl

theorem parse_eq_hold (s : String) : parse s = (parseTree s).map hold :=
  readWhole_readAs (readValue_eq_hold depthLimit) _

/-- Only braces spell an object. Its members are read as values or as trees alike. -/
theorem readEntries_of_readTree {members : List (String × Json)} {rest : List Piece}
    (h : readTree depth s = .ok (.object members, rest)) :
    ∃ d tail after, skipSpace s = .char '{' :: tail ∧
      readEntries (readValue d) tail = .ok (holdMembers members, after) := by
  unfold readTree at h
  split at h
  · split at h
    · cases h
    · obtain ⟨_, -, he⟩ := readAs_eq_ok_iff.mp h
      cases he
  · next tail hs =>
    split at h
    · cases h
    · next d =>
      obtain ⟨⟨entries, after⟩, he, hm⟩ := map_eq_ok_iff.mp h
      cases hm
      exact ⟨d, tail, after, hs, by rw [readEntries_hold (readValue_eq_hold d), he, readAs_ok]⟩
  · obtain ⟨v, hv, he⟩ := readAs_eq_ok_iff.mp h
    let o : Object := ⟨members, he ▸ v.ordered⟩
    have hobject : v = .object o := Value.ext_json he
    exact absurd hobject ((headed_of_readScalar hv).object o)

end

end ToolPipeline.Json
