import ToolPipeline.Json.Skip
import ToolPipeline.Json.Reader
import ToolPipeline.Proofs.Success

/-! Reading a value, or passing over one, fails only at a flaw of the grammar and never at a
mismatch. -/

namespace ToolPipeline.Json

structure OnlyFlaws {α : Type} (x : Except Fault α) : Prop where
  flaw : ∀ f, x = .error f → isMismatch f.cause = false

namespace OnlyFlaws

variable {α β : Type} {x : Except Fault α} {f : Fault}

@[simp]
theorem ok (a : α) : OnlyFlaws (.ok a) := ⟨nofun⟩

@[simp]
theorem ahead (flaw : Flaw) (rest : List Piece) :
    OnlyFlaws (.error (.ahead flaw rest) : Except Fault α) := by
  refine ⟨?_⟩
  rintro _ ⟨⟩
  rfl

@[simp]
theorem behind (flaw : Flaw) (rest : List Piece) (into : Nat) :
    OnlyFlaws (.error (.behind flaw rest into) : Except Fault α) := by
  refine ⟨?_⟩
  rintro _ ⟨⟩
  rfl

theorem of_eq (h : OnlyFlaws x) (hx : x = .error f) : OnlyFlaws (.error f : Except Fault β) := by
  refine ⟨?_⟩
  rintro _ ⟨⟩
  exact h.flaw f hx

theorem under (h : OnlyFlaws x) (hx : x = .error f) (step : Step) :
    OnlyFlaws (.error (f.under step) : Except Fault β) := by
  refine ⟨?_⟩
  rintro _ ⟨⟩
  exact h.flaw f hx

theorem map (h : OnlyFlaws x) (g : α → β) : OnlyFlaws (x.map g) := by
  cases x with
  | ok a => exact .ok _
  | error f => exact h.of_eq rfl

theorem bind {g : α → Except Fault β} (h : OnlyFlaws x) (hg : ∀ a, OnlyFlaws (g a)) :
    OnlyFlaws (x >>= g) := by
  cases x with
  | ok a => exact hg a
  | error f => exact h.of_eq rfl

end OnlyFlaws

theorem readWord_onlyFlaws (word : List Char) (s : List Piece) : OnlyFlaws (readWord word s) := by
  induction word generalizing s with
  | nil => exact .ok s
  | cons c word ih =>
    cases s with
    | nil => exact .behind ..
    | cons p rest =>
      unfold readWord
      split
      · exact ih rest
      · exact .behind ..

theorem hexUnit_onlyFlaws (s : List Piece) : OnlyFlaws (hexUnit s) := by
  unfold hexUnit
  split
  · exact .behind ..
  · split
    · split <;> simp
    · exact .behind ..

theorem surrogatePair_onlyFlaws (lead : Nat) (s : List Piece) :
    OnlyFlaws (surrogatePair lead s) := by
  unfold surrogatePair
  split
  case h_3 rest =>
    refine (hexUnit_onlyFlaws rest).bind fun tail => ?_
    split <;> simp
  all_goals exact .behind ..

theorem readEscape_onlyFlaws (s : List Piece) : OnlyFlaws (readEscape s) := by
  unfold readEscape
  split
  case h_10 rest =>
    refine (hexUnit_onlyFlaws rest).bind fun unit => ?_
    split
    · exact .behind ..
    · split
      · exact .ok _
      · exact surrogatePair_onlyFlaws ..
  all_goals simp

theorem readUnits_onlyFlaws (skip : Nat) (read s : List Piece) :
    OnlyFlaws (readUnits skip read s) := by
  induction s generalizing skip read with
  | nil => exact .behind ..
  | cons p rest ih =>
    unfold readUnits
    split
    · exact ih ..
    · split
      · exact .ok _
      · split
        · split
          · next hf => exact (readEscape_onlyFlaws rest).of_eq hf
          · exact ih ..
        · split
          · exact .behind ..
          · exact ih ..

theorem readString_onlyFlaws (s : List Piece) : OnlyFlaws (readString s) := by
  unfold readString
  split
  · next hf => exact (readUnits_onlyFlaws 0 [] s).of_eq hf
  · split <;> simp

theorem scaledNumber_onlyFlaws (positive : Bool) (significand : Nat) (exponent : Int)
    (rest : List Piece) : OnlyFlaws (scaledNumber positive significand exponent rest) := by
  unfold scaledNumber
  split <;> simp

theorem readExponent_onlyFlaws (positive : Bool) (significand : Nat) (shift : Int)
    (s : List Piece) : OnlyFlaws (readExponent positive significand shift s) := by
  unfold readExponent
  simp only
  split
  · split <;> split <;> simp
  · split
    · exact scaledNumber_onlyFlaws ..
    · split <;> split <;> simp

theorem readFraction_onlyFlaws (positive : Bool) (significand : Nat) (shift : Int)
    (s : List Piece) : OnlyFlaws (readFraction positive significand shift s) := by
  have hend (shift : Int) (n : Nat) (rest : List Piece) :
      OnlyFlaws (if isMark ['e', 'E'] rest then readExponent positive n shift (rest.drop 1)
        else scaledNumber positive n shift rest) := by
    split
    · exact readExponent_onlyFlaws ..
    · exact scaledNumber_onlyFlaws ..
  unfold readFraction
  simp only
  split
  · exact .ahead ..
  · split
    · exact hend ..
    · exact hend ..

theorem readTail_onlyFlaws (positive : Bool) (significand : Nat) (s : List Piece) :
    OnlyFlaws (readTail positive significand s) := by
  unfold readTail
  split
  · exact readFraction_onlyFlaws ..
  · split
    · exact readExponent_onlyFlaws ..
    · split
      · exact .ok _
      · split <;> simp

theorem readLongTail_onlyFlaws (positive : Bool) (significand : Nat) (s : List Piece) :
    OnlyFlaws (readLongTail positive significand s) := by
  unfold readLongTail
  simp only
  split
  · exact readFraction_onlyFlaws ..
  · split
    · exact readExponent_onlyFlaws ..
    · exact scaledNumber_onlyFlaws ..

theorem readNumber_onlyFlaws (positive : Bool) (s : List Piece) :
    OnlyFlaws (readNumber positive s) := by
  unfold readNumber
  split
  · split <;> simp
  · split
    · exact .ahead ..
    · exact readTail_onlyFlaws ..
  · split
    · exact readTail_onlyFlaws ..
    · exact readLongTail_onlyFlaws ..

theorem readScalar_onlyFlaws (s : List Piece) : OnlyFlaws (readScalar s) := by
  unfold readScalar
  split
  · exact .ahead ..
  · exact (readWord_onlyFlaws ..).map _
  · exact (readWord_onlyFlaws ..).map _
  · exact (readWord_onlyFlaws ..).map _
  · exact (readNumber_onlyFlaws ..).map _
  · exact (readString_onlyFlaws _).map _
  · split
    · exact (readNumber_onlyFlaws ..).map _
    · exact .ahead ..

theorem nextItem_onlyFlaws (first : Bool) (s : List Piece) : OnlyFlaws (nextItem first s) := by
  have hcomma (rest : List Piece) : OnlyFlaws (afterListComma rest) := by
    unfold afterListComma
    split <;> simp
  unfold nextItem
  split
  · exact .ahead ..
  · exact .ok _
  · split
    · exact .ok _
    · split
      · exact (hcomma _).map _
      · exact .ahead ..

theorem nextKey_onlyFlaws (first : Bool) (s : List Piece) : OnlyFlaws (nextKey first s) := by
  have hcomma (rest : List Piece) : OnlyFlaws (afterObjectComma rest) := by
    unfold afterObjectComma
    split <;> simp
  have hkey {α : Type} {next : String × List Piece → Except Fault α}
      (h : ∀ r, OnlyFlaws (next r)) (s : List Piece) :
      OnlyFlaws (readString (s.drop 1) >>= next) := (readString_onlyFlaws _).bind h
  unfold nextKey
  split
  · exact .ahead ..
  · exact .ok _
  · simp only
    split
    · split
      · exact .bind (.ok _) (hkey fun r => .ok _)
      · exact .bind (.ahead ..) (hkey fun r => .ok _)
    · split
      · exact .bind (hcomma _) (hkey fun r => .ok _)
      · exact .bind (.ahead ..) (hkey fun r => .ok _)

theorem readColon_onlyFlaws (s : List Piece) : OnlyFlaws (readColon s) := by
  unfold readColon
  split <;> simp

theorem readItemsFrom_onlyFlaws {α : Type} {item : List Piece → Result α}
    (h : ∀ s, OnlyFlaws (item s)) (budget index : Nat) (read : List α) (s : List Piece) :
    OnlyFlaws (readItemsFrom item budget index read s) := by
  induction budget generalizing index read s with
  | zero => exact .ok _
  | succ budget ih =>
    unfold readItemsFrom
    split
    · next hf => exact (nextItem_onlyFlaws _ s).of_eq hf
    · exact .ok _
    · next tail _ =>
      split
      · next hf => exact (h tail).under hf _
      · exact ih ..

theorem readMemberValue_onlyFlaws {α : Type} {value : List Piece → Result α}
    (h : ∀ s, OnlyFlaws (value s)) (key : String) (s : List Piece) :
    OnlyFlaws (readMemberValue value key s) := by
  unfold readMemberValue
  split
  · next hf => exact (readColon_onlyFlaws s).of_eq hf
  · next rest _ =>
    split
    · next hf => exact (h rest).under hf _
    · exact .ok _

theorem readMembersFrom_onlyFlaws {σ : Type} {member : String → σ → List Piece → Result σ}
    (h : ∀ key read s, OnlyFlaws (member key read s)) (budget : Nat) (first : Bool) (read : σ)
    (s : List Piece) : OnlyFlaws (readMembersFrom member budget first read s) := by
  induction budget generalizing first read s with
  | zero => exact .ok _
  | succ budget ih =>
    unfold readMembersFrom
    split
    · next hf => exact (nextKey_onlyFlaws first s).under hf _
    · exact .ok _
    · next key rest _ =>
      split
      · next hf => exact (h key read rest).of_eq hf
      · exact ih ..

theorem readObject_onlyFlaws {value : List Piece → Result Value} (h : ∀ s, OnlyFlaws (value s))
    (s : List Piece) : OnlyFlaws (readObject value s) :=
  (readMembersFrom_onlyFlaws (fun key _ s => (readMemberValue_onlyFlaws h key s).map _) ..).map _

theorem readValue_onlyFlaws (depth : Nat) (s : List Piece) : OnlyFlaws (readValue depth s) := by
  induction depth generalizing s with
  | zero =>
    unfold readValue
    split
    · exact .ahead ..
    · exact .ahead ..
    · exact readScalar_onlyFlaws _
  | succ depth ih =>
    unfold readValue
    split
    · exact (readItemsFrom_onlyFlaws ih ..).map _
    · exact (readObject_onlyFlaws ih _).map _
    · exact readScalar_onlyFlaws _

theorem skipString_onlyFlaws (skip : Nat) (s : List Piece) : OnlyFlaws (skipString skip s) := by
  have hescape (s : List Piece) : OnlyFlaws (skipEscape s) := by
    unfold skipEscape
    split
    · exact .behind ..
    · exact (hexUnit_onlyFlaws _).map _
    · split <;> simp
    · exact .behind ..
  induction s generalizing skip with
  | nil => exact .behind ..
  | cons p rest ih =>
    unfold skipString
    split
    · exact ih _
    · split
      · exact .ok _
      · split
        · split
          · next hf => exact (hescape rest).of_eq hf
          · exact ih _
        · split
          · exact .behind ..
          · exact ih _

theorem skipExponent_onlyFlaws (s : List Piece) : OnlyFlaws (skipExponent s) := by
  unfold skipExponent
  simp only
  split <;> simp

theorem skipNumber_onlyFlaws (s : List Piece) : OnlyFlaws (skipNumber s) := by
  have hfraction (s : List Piece) : OnlyFlaws (skipFraction s) := by
    unfold skipFraction
    split
    · exact .ahead ..
    · simp only
      split
      · exact skipExponent_onlyFlaws _
      · exact .ok _
  have hend (rest : List Piece) :
      OnlyFlaws (if isMark ['.'] rest then skipFraction (rest.drop 1)
        else if isMark ['e', 'E'] rest then skipExponent (rest.drop 1) else .ok rest) := by
    split
    · exact hfraction _
    · split
      · exact skipExponent_onlyFlaws _
      · exact .ok _
  unfold skipNumber
  split
  · exact .behind ..
  · split
    · exact .ahead ..
    · exact hend _

theorem skipKey_onlyFlaws (s : List Piece) : OnlyFlaws (skipKey s) := by
  unfold skipKey
  split
  · exact .ahead ..
  · split
    · next hf => exact (skipString_onlyFlaws 0 _).of_eq hf
    · split <;> simp
  · exact .ahead ..

theorem skipScalar_onlyFlaws (s : List Piece) : OnlyFlaws (skipScalar s) := by
  unfold skipScalar
  split
  · exact .ahead ..
  · exact readWord_onlyFlaws ..
  · exact readWord_onlyFlaws ..
  · exact readWord_onlyFlaws ..
  · exact skipNumber_onlyFlaws _
  · exact skipString_onlyFlaws ..
  · split
    · exact skipNumber_onlyFlaws _
    · exact .ahead ..

theorem skipFrom_onlyFlaws (steps : Nat) (opened : List Bracket) (due : Due) (s : List Piece) :
    OnlyFlaws (skipFrom steps opened due s) := by
  induction steps generalizing opened due s with
  | zero => exact .ok s
  | succ steps ih =>
    cases due with
    | member =>
      unfold skipFrom
      split
      · next hf => exact (skipKey_onlyFlaws s).of_eq hf
      · exact ih ..
    | value =>
      unfold skipFrom
      split
      · exact ih ..
      · exact ih ..
      · split
        · next hf => exact (skipScalar_onlyFlaws _).of_eq hf
        · split
          · exact .ok _
          · exact ih ..
    | «end» comma =>
      cases opened with
      | nil => exact .ok s
      | cons bracket opened =>
        have hclose (rest : List Piece) : OnlyFlaws
            (if opened.isEmpty then .ok rest else skipFrom steps opened (.end true) rest) := by
          split
          · exact .ok _
          · exact ih ..
        unfold skipFrom
        simp only
        split
        · exact .ahead ..
        · split
          · exact ih ..
          · split
            · exact hclose _
            · split
              · exact hclose _
              · split
                · exact .ahead ..
                · exact ih ..

theorem skipValue_onlyFlaws (s : List Piece) : OnlyFlaws (skipValue s) := skipFrom_onlyFlaws ..

end ToolPipeline.Json
