import ToolPipeline.Proofs.Json.SkippedScalars

/-! Strings and whole numbers as they are written. Each is read back as it was, whatever stands
behind it, except that a digit, a point or an exponent would go on with a number. -/

namespace ToolPipeline

/-- A whole number that is held as such when it is read. -/
def Number.IsWhole (n : Number) : Prop :=
  ∃ i : Int, n = .int i ∧ -(Nat.pow 2 63 : Int) ≤ i ∧ i < (Nat.pow 2 64 : Int)

namespace Json

theorem digit?_digit (n : Nat) : Hex.digit? (Hex.digit n) = some (n % 16) := by
  have hall : ∀ k < 16, Hex.digit? (Nat.digitChar k) = some k := by decide
  exact hall (n % 16) (Nat.mod_lt n (by decide))

theorem hexUnit_control {n : Nat} (h : n < 0x20) (tail : List Piece) :
    hexUnit (.char '0' :: .char '0' :: .char (Hex.digit (n / 16)) :: .char (Hex.digit n) :: tail) =
      .ok n := by
  have hwidth : ∀ c : Char, 1 ≤ (Piece.char c).width := fun c => Char.utf8Size_pos c
  have h0 : Hex.digit? '0' = some 0 := by decide
  have hwide := hwidth (Hex.digit (n / 16))
  have hwide' := hwidth (Hex.digit n)
  have hzero : (Piece.char '0').width = 1 := by decide
  have hn : n / 16 % 16 * 16 + n % 16 = n := by omega
  simp [hexUnit, Piece.totalWidth, hzero, h0, digit?_digit, hn]
  omega

theorem readEscape_control {c : Char} (h : c.toNat < 0x20) (tail : List Piece) :
    readEscape (.char 'u' :: .char '0' :: .char '0' :: .char (Hex.digit (c.toNat / 16)) ::
      .char (Hex.digit c.toNat) :: tail) = .ok (c, 5) := by
  have hlow : ¬ (0xDC00 ≤ c.toNat ∧ c.toNat ≤ 0xDFFF) := by omega
  have hsmall : c.toNat < 0xD800 ∨ 0xDFFF < c.toNat := by omega
  simp only [readEscape, hexUnit_control h, bind, Except.bind, if_neg hlow, if_pos hsmall,
    Char.ofNat_toNat]

theorem readUnits_escape (c : Char) (read tail : List Piece) :
    readUnits 0 read ((escape c).map .char ++ tail) = readUnits 0 (.char c :: read) tail := by
  unfold escape
  split
  case h_8 hquote hslash _ _ _ _ _ =>
    split
    · next hc => simp [readUnits, readEscape_control hc]
    · next hc =>
      have hquote : c ≠ '"' := hquote
      have hslash : c ≠ '\\' := hslash
      simp [readUnits, isControl, hc, hquote, hslash]
  all_goals simp [readUnits, readEscape]

theorem chars?_map_char (cs : List Char) : Piece.chars? (cs.map .char) = some cs := by
  induction cs with
  | nil => rfl
  | cons c cs ih => rw [List.map_cons, Piece.chars?, ih, Option.map_some]

theorem readUnits_written (cs : List Char) (read rest : List Piece) :
    readUnits 0 read ((cs.flatMap escape).map .char ++ .char '"' :: rest) =
      .ok (read.reverse ++ cs.map .char, rest) := by
  induction cs generalizing read with
  | nil => simp [readUnits]
  | cons c cs ih =>
    rw [List.flatMap_cons, List.map_append, List.append_assoc, readUnits_escape, ih]
    simp

theorem readString_written (t : String) (rest : List Piece) :
    readString ((t.toList.flatMap escape).map .char ++ .char '"' :: rest) = .ok (t, rest) := by
  simp [readString, readUnits_written, chars?_map_char]

theorem le_ofDigitChars (ds : List Char) (n : Nat) : n ≤ Nat.ofDigitChars 10 ds n := by
  induction ds generalizing n with
  | nil => exact Nat.le_refl n
  | cons d ds ih =>
    rw [Nat.ofDigitChars_cons]
    exact Nat.le_trans (by omega) (ih _)

def continuesNumber : Piece → Bool
  | .char c => c.isDigit || ['.', 'e', 'E'].contains c
  | .stray _ => false

def Ends (s : List Piece) : Prop := ∀ p tail, s = p :: tail → continuesNumber p = false

theorem ends_nil : Ends [] := nofun

theorem ends_cons {p : Piece} (h : continuesNumber p = false) (s : List Piece) : Ends (p :: s) := by
  rintro _ _ ⟨⟩
  exact h

section
variable {s : List Piece} (h : Ends s)
include h

theorem Ends.digitOf? : digitOf? s = none := by
  cases s with
  | nil => rfl
  | cons p tail =>
    have hp := h p tail rfl
    cases p with
    | stray b => rfl
    | char c =>
      have hc : c.isDigit = false := by
        rw [continuesNumber, Bool.or_eq_false_iff] at hp
        exact hp.1
      simp [Json.digitOf?, hc]

theorem Ends.isMark {cs : List Char} (hcs : ∀ c ∈ cs, c ∈ ['.', 'e', 'E']) :
    isMark cs s = false := by
  cases s with
  | nil => rfl
  | cons p tail =>
    have hp := h p tail rfl
    cases p with
    | stray b => rfl
    | char c =>
      rw [continuesNumber, Bool.or_eq_false_iff, ← Bool.not_eq_true, ← Bool.not_eq_true,
        List.contains_iff_mem] at hp
      rw [Json.isMark, ← Bool.not_eq_true, List.contains_iff_mem]
      exact fun hm => hp.2 (hcs c hm)

theorem Ends.readTail_positive (significand : Nat) :
    readTail true significand s = .ok (.int significand, s) := by
  simp [readTail, h.isMark]

theorem Ends.readTail_negative {significand : Nat} (hpos : significand ≠ 0)
    (hmost : significand ≤ Nat.pow 2 63) :
    readTail false significand s = .ok (.int (-significand), s) := by
  have hint : ¬ (significand = 0 ∨ Nat.pow 2 63 < significand) := by omega
  simp [readTail, h.isMark, hint]

theorem Ends.readDigits {ds : List Char} (hds : ∀ c ∈ ds, c.isDigit = true) {significand : Nat}
    (hfit : Nat.ofDigitChars 10 ds significand ≤ largestSignificand) (count : Nat) :
    readDigits significand count (ds.map .char ++ s) =
      ((Nat.ofDigitChars 10 ds significand, count + ds.length, false), s) := by
  induction ds generalizing significand count with
  | nil =>
    cases s with
    | nil => rfl
    | cons p tail =>
      have hp := h.digitOf?
      cases p with
      | stray b => rfl
      | char c =>
        have hc : ¬ c.isDigit = true := by
          intro hc
          simp [Json.digitOf?, hc] at hp
        simp [Json.readDigits, hc]
  | cons d ds ih =>
    obtain ⟨hd, hds⟩ := List.forall_mem_cons.mp hds
    rw [Nat.ofDigitChars_cons, Nat.mul_comm] at hfit ⊢
    have hnext := Nat.le_trans (le_ofDigitChars ds _) hfit
    rw [List.map_cons, List.cons_append, Json.readDigits, if_pos hd, if_pos hnext, ih hds hfit,
      List.length_cons, Nat.add_assoc, Nat.add_comm 1]

end

/-- The first digit of a number is zero for zero only. -/
theorem head_digitsOf {n : Nat} (hn : 0 < n) :
    ∃ d ds, Decimal.digitsOf n = d :: ds ∧ d.toNat - '0'.toNat ≠ 0 := by
  induction n using Nat.strongRecOn with
  | ind n ih =>
    unfold Decimal.digitsOf
    by_cases hlt : n < 10
    · refine ⟨Nat.digitChar n, [], Nat.toDigits_of_lt_base hlt, ?_⟩
      rw [Nat.toNat_digitChar_of_lt_ten hlt]
      have hzero : '0'.toNat = 48 := rfl
      omega
    · obtain ⟨d, ds, hds, hd⟩ := ih (n / 10) (by omega) (by omega)
      refine ⟨d, ds ++ [Nat.digitChar (n % 10)], ?_, hd⟩
      rw [Nat.toDigits_of_base_le (by decide) (by omega), ← List.cons_append, ← hds]
      rfl

theorem isDigit_of_mem_digitsOf {n : Nat} {c : Char} (h : c ∈ Decimal.digitsOf n) :
    c.isDigit = true :=
  Nat.isDigit_of_mem_toDigits (by decide) (by decide) h

theorem isSome_digitOf?_digitsOf (n : Nat) (rest : List Piece) :
    (digitOf? ((Decimal.digitsOf n).map .char ++ rest)).isSome = true := by
  cases hds : Decimal.digitsOf n with
  | nil => exact absurd hds Nat.toDigits_ne_nil
  | cons d ds =>
    have hd : d.isDigit = true := isDigit_of_mem_digitsOf (n := n) (by simp [hds])
    simp [digitOf?, hd]

section
variable {s : List Piece} (h : Ends s)
include h

theorem Ends.readNumber (positive : Bool) {n : Nat} (hn : n ≤ largestSignificand) :
    readNumber positive ((Decimal.digitsOf n).map .char ++ s) = readTail positive n s := by
  by_cases hzero : n = 0
  · subst hzero
    have hdigits : Decimal.digitsOf 0 = ['0'] := rfl
    have hfirst : Json.digitOf? (Piece.char '0' :: s) = some (0, s) := rfl
    simp [hdigits, Json.readNumber, hfirst, h.digitOf?]
  · obtain ⟨d, ds, hds, hd⟩ := head_digitsOf (by omega : 0 < n)
    have hall : ∀ c ∈ d :: ds, c.isDigit = true :=
      fun c hc => isDigit_of_mem_digitsOf (by rw [hds]; exact hc)
    obtain ⟨hdigit, hdigits⟩ := List.forall_mem_cons.mp hall
    have hvalue : Nat.ofDigitChars 10 ds (d.toNat - '0'.toNat) = n := by
      have hv := Nat.ofDigitChars_toDigits (b := 10) (n := n) (by decide) (by decide)
      rwa [show Nat.toDigits 10 n = d :: ds from hds, Nat.ofDigitChars_cons, Nat.mul_zero,
        Nat.zero_add] at hv
    have hread := h.readDigits hdigits (hvalue ▸ hn) 1
    rw [hvalue] at hread
    have hfirst : Json.digitOf? (Piece.char d :: (ds.map .char ++ s)) =
        some (d.toNat - '0'.toNat, ds.map .char ++ s) := by
      simp [Json.digitOf?, hdigit]
    rw [hds, List.map_cons, List.cons_append]
    unfold Json.readNumber
    rw [hfirst]
    split
    · next he => cases he
    · next he =>
      obtain ⟨hz, -⟩ := Prod.mk.inj (Option.some.inj he)
      exact absurd hz hd
    · next he =>
      obtain ⟨rfl, rfl⟩ := Prod.mk.inj (Option.some.inj he)
      rw [hread]

end

theorem readWord_written (word : List Char) (rest : List Piece) :
    readWord word (word.map .char ++ rest) = .ok rest := by
  induction word with
  | nil => rfl
  | cons c word ih => simp [readWord, ih]

theorem readScalar_null (rest : List Piece) :
    readScalar (['n', 'u', 'l', 'l'].map .char ++ rest) = .ok (.null, rest) := by
  have hw := readWord_written ['u', 'l', 'l'] rest
  exact map_eq_ok_iff.mpr ⟨rest, hw, rfl⟩

theorem readScalar_bool (b : Bool) (rest : List Piece) :
    readScalar ((boolText b).map .char ++ rest) = .ok (.bool b, rest) := by
  cases b with
  | true => exact map_eq_ok_iff.mpr ⟨rest, readWord_written ['r', 'u', 'e'] rest, rfl⟩
  | false => exact map_eq_ok_iff.mpr ⟨rest, readWord_written ['a', 'l', 's', 'e'] rest, rfl⟩

theorem readScalar_string (t : String) (rest : List Piece) :
    readScalar ((quoted t.toList).map .char ++ rest) = .ok (.string t, rest) := by
  have hq : (quoted t.toList).map .char ++ rest =
      .char '"' :: ((t.toList.flatMap escape).map .char ++ .char '"' :: rest) := by simp [quoted]
  rw [hq]
  exact map_eq_ok_iff.mpr ⟨(t, rest), readString_written t rest, rfl⟩

theorem readScalar_of_digit {s : List Piece} (h : (digitOf? s).isSome = true) :
    readScalar s = (readNumber true s).map fun (n, rest) => (.number n, rest) := by
  unfold readScalar
  split
  case h_7 => rw [if_pos h]
  all_goals cases h

theorem numberText_starts {n : Number} (hn : n.IsWhole) :
    ∃ c tail, numberText n = c :: tail ∧ (c.isDigit = true ∨ c = '-') := by
  obtain ⟨i, rfl, -⟩ := hn
  rw [numberText, Decimal.intDigits]
  split
  · exact ⟨'-', _, rfl, .inr rfl⟩
  · cases hds : Decimal.digitsOf i.natAbs with
    | nil => exact absurd hds Nat.toDigits_ne_nil
    | cons d ds =>
      exact ⟨d, ds, rfl, .inl (isDigit_of_mem_digitsOf (n := i.natAbs) (by simp [hds]))⟩

theorem readScalar_number {n : Number} (hn : n.IsWhole) {rest : List Piece} (h : Ends rest) :
    readScalar ((numberText n).map .char ++ rest) = .ok (.number n, rest) := by
  obtain ⟨i, rfl, hleast, hmost⟩ := hn
  have htwo : (Nat.pow 2 63 : Int) < Nat.pow 2 64 := by decide
  have hfit : i.natAbs ≤ largestSignificand := by
    unfold largestSignificand
    omega
  have hdigits (positive : Bool) := h.readNumber positive hfit
  rw [numberText, Decimal.intDigits]
  split
  · next hneg =>
    have hpos : i.natAbs ≠ 0 := by omega
    have hmost : i.natAbs ≤ Nat.pow 2 63 := by omega
    have htail := h.readTail_negative hpos hmost
    rw [show (-(i.natAbs : Int)) = i by omega] at htail
    exact map_eq_ok_iff.mpr ⟨(.int i, rest), (hdigits false).trans htail, rfl⟩
  · next hpos =>
    have htail := h.readTail_positive i.natAbs
    rw [show (i.natAbs : Int) = i by omega] at htail
    rw [readScalar_of_digit (isSome_digitOf?_digitsOf i.natAbs rest)]
    exact map_eq_ok_iff.mpr ⟨(.int i, rest), (hdigits true).trans htail, rfl⟩

end Json

end ToolPipeline
