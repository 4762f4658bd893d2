import ToolPipeline.Json.Reader
import ToolPipeline.Json.Skip
import ToolPipeline.Proofs.Success

/-! Strings, words and numbers that are passed over. Wherever one can be read, it can be passed
over, up to the same place. -/

namespace ToolPipeline.Json

variable {s rest : List Piece}

theorem length_of_readWord {word : List Char} (h : readWord word s = .ok rest) :
    rest.length + word.length = s.length := by
  induction word generalizing s with
  | nil =>
    cases h
    rfl
  | cons c word ih =>
    cases s with
    | nil => cases h
    | cons p s =>
      unfold readWord at h
      split at h
      · have hh := ih h
        simp only [List.length_cons]
        omega
      · cases h

theorem skipString_drop {skip : Nat} (hlen : skip ≤ s.length) :
    skipString skip s = skipString 0 (s.drop skip) := by
  induction s generalizing skip with
  | nil =>
    obtain rfl : skip = 0 := by simpa using hlen
    rfl
  | cons p s ih =>
    cases skip with
    | zero => rfl
    | succ skip =>
      have hs : skip ≤ s.length := by simpa using hlen
      rw [skipString, ih hs, List.drop_succ_cons]

theorem length_of_skipString {skip : Nat} (h : skipString skip s = .ok rest) :
    rest.length < s.length := by
  induction s generalizing skip with
  | nil => cases skip <;> cases h
  | cons p s ih =>
    rw [List.length_cons]
    unfold skipString at h
    split at h
    · exact Nat.lt_succ_of_lt (ih h)
    · split at h
      · cases h
        exact Nat.lt_succ_self _
      · split at h
        · split at h
          · cases h
          · exact Nat.lt_succ_of_lt (ih h)
        · split at h
          · cases h
          · exact Nat.lt_succ_of_lt (ih h)

theorem skipString_escape {used : Nat} (h : skipEscape s = .ok used) :
    skipString 0 (.char '\\' :: s) = skipString used s := by
  rw [skipString]
  simp only [h, Piece.char.injEq, Char.reduceEq, if_false, if_true]

/-- A string can be passed over from after an escape on, if what the escape takes up is there. Two
escapes that spell one character are passed over one after the other. -/
theorem skipString_of_readEscape {c : Char} {used : Nat} (h : readEscape s = .ok (c, used))
    (hlen : used ≤ s.length) :
    ∃ skip, skipEscape s = .ok skip ∧ skipString skip s = skipString 0 (s.drop used) := by
  unfold readEscape at h
  split at h
  case h_1 => cases h
  case h_11 => cases h
  case h_10 tail =>
    obtain ⟨unit, hu, h⟩ := bind_eq_ok_iff.mp h
    have hskip : skipEscape (.char 'u' :: tail) = .ok 5 := map_eq_ok_iff.mpr ⟨unit, hu, rfl⟩
    refine ⟨5, hskip, ?_⟩
    split at h
    · cases h
    · split at h
      · cases h
        exact skipString_drop hlen
      · unfold surrogatePair at h
        split at h
        case h_3 next hn =>
          obtain ⟨low, hl, h⟩ := bind_eq_ok_iff.mp h
          split at h
          · cases h
          · obtain ⟨-, rfl⟩ := Prod.mk.inj (Except.ok.inj h)
            have hnext : skipEscape (.char 'u' :: next) = .ok 5 := map_eq_ok_iff.mpr ⟨low, hl, rfl⟩
            have hpast : tail.drop 10 = next.drop 4 := by
              rw [← List.drop_drop (i := 6) (j := 4), hn]
              rfl
            have hlong : 4 ≤ next.length := by
              have hl := congrArg List.length hn
              simp only [List.length_drop, List.length_cons] at hl hlen
              omega
            have hfive : 5 ≤ (Piece.char 'u' :: tail).length := by omega
            -- the second escape starts where the first one ends
            rw [skipString_drop hfive, List.drop_succ_cons, List.drop_succ_cons, hpast, hn]
            have hfour : 5 ≤ (Piece.char 'u' :: next).length := by simpa using hlong
            rw [skipString_escape hnext, skipString_drop hfour, List.drop_succ_cons]
        all_goals cases h
  all_goals
    cases h
    exact ⟨1, rfl, skipString_drop hlen⟩

theorem skipString_of_readUnits {skip : Nat} {read units : List Piece}
    (h : readUnits skip read s = .ok (units, rest)) :
    skip ≤ s.length ∧ skipString 0 (s.drop skip) = .ok rest := by
  induction s generalizing skip read with
  | nil => cases skip <;> cases h
  | cons p s ih =>
    unfold readUnits at h
    cases skip with
    | succ skip =>
      obtain ⟨hlen, hs⟩ := ih h
      exact ⟨Nat.succ_le_succ hlen, hs⟩
    | zero =>
      refine ⟨Nat.zero_le _, ?_⟩
      rw [List.drop_zero]
      unfold skipString
      simp only at h ⊢
      by_cases hquote : p = .char '"'
      · rw [if_pos hquote] at h ⊢
        cases h
        rfl
      · rw [if_neg hquote] at h ⊢
        by_cases hslash : p = .char '\\'
        · rw [if_pos hslash] at h ⊢
          split at h
          · cases h
          · next c used he =>
            obtain ⟨hlen, hs⟩ := ih h
            obtain ⟨skip, hskip, heq⟩ := skipString_of_readEscape he hlen
            simp only [hskip, heq, hs]
        · rw [if_neg hslash] at h ⊢
          by_cases hcontrol : isControl p
          · rw [if_pos hcontrol] at h
            cases h
          · rw [if_neg hcontrol] at h ⊢
            exact (ih h).2

theorem skipString_of_readString {t : String} (h : readString s = .ok (t, rest)) :
    skipString 0 s = .ok rest := by
  unfold readString at h
  split at h
  · cases h
  · next units tail hu =>
    split at h
    · cases h
      exact (skipString_of_readUnits hu).2
    · cases h

def isDigit : Piece → Bool
  | .char c => c.isDigit
  | .stray _ => false

theorem skipDigits_cons {p : Piece} (h : isDigit p = true) (s : List Piece) :
    skipDigits (p :: s) = skipDigits s := List.dropWhile_cons_of_pos h

theorem skipDigits_of_not_digit {p : Piece} (h : ¬ isDigit p = true) (s : List Piece) :
    skipDigits (p :: s) = p :: s := List.dropWhile_cons_of_neg h

theorem length_skipDigits_le (s : List Piece) : (skipDigits s).length ≤ s.length :=
  (List.dropWhile_suffix _).length_le

theorem digitOf?_eq_some {d : Nat} (h : digitOf? s = some (d, rest)) :
    ∃ p, s = p :: rest ∧ isDigit p = true := by
  unfold digitOf? at h
  split at h
  · next c tail =>
    split at h
    · next hc =>
      cases h
      exact ⟨.char c, rfl, hc⟩
    · cases h
  · cases h

theorem readDigits_stops {significand count significand' count' : Nat} {more : Bool}
    (h : readDigits significand count s = ((significand', count', more), rest)) :
    skipDigits rest = skipDigits s ∧ (more = false → rest = skipDigits s) ∧
      (digitOf? s = none → count' = count ∧ more = false) := by
  induction s generalizing significand count with
  | nil =>
    cases h
    exact ⟨rfl, fun _ => rfl, fun _ => ⟨rfl, rfl⟩⟩
  | cons p s ih =>
    cases p with
    | stray b =>
      cases h
      exact ⟨rfl, fun _ => rfl, fun _ => ⟨rfl, rfl⟩⟩
    | char c =>
      by_cases hc : c.isDigit
      · rw [readDigits, if_pos hc] at h
        have hsome : digitOf? (.char c :: s) ≠ none := by simp [digitOf?, hc]
        rw [skipDigits_cons (p := .char c) hc]
        simp only at h
        split at h
        · obtain ⟨hskip, hrest, -⟩ := ih h
          exact ⟨hskip, hrest, fun hnone => absurd hnone hsome⟩
        · cases h
          exact ⟨skipDigits_cons (p := .char c) hc s, nofun, fun hnone => absurd hnone hsome⟩
      · rw [readDigits, if_neg hc] at h
        cases h
        exact ⟨rfl, fun _ => (skipDigits_of_not_digit (p := .char c) hc s).symm,
          fun _ => ⟨rfl, rfl⟩⟩

theorem readExponentDigits_stops {exponent : Nat} {e : Option Nat}
    (h : readExponentDigits exponent s = (e, rest)) :
    skipDigits rest = skipDigits s ∧ (e.isSome → rest = skipDigits s) := by
  induction s generalizing exponent with
  | nil =>
    cases h
    exact ⟨rfl, fun _ => rfl⟩
  | cons p s ih =>
    cases p with
    | stray b =>
      cases h
      exact ⟨rfl, fun _ => rfl⟩
    | char c =>
      by_cases hc : c.isDigit
      · rw [readExponentDigits, if_pos hc] at h
        rw [skipDigits_cons (p := .char c) hc]
        simp only at h
        split at h
        · exact ih h
        · cases h
          exact ⟨rfl, nofun⟩
      · rw [readExponentDigits, if_neg hc] at h
        cases h
        exact ⟨rfl, fun _ => (skipDigits_of_not_digit (p := .char c) hc s).symm⟩

section
variable {positive : Bool} {significand : Nat} {shift : Int} {n : Number}

theorem rest_of_scaledNumber (h : scaledNumber positive significand shift s = .ok (n, rest)) :
    rest = s := by
  unfold scaledNumber at h
  split at h
  · cases h
  · cases h
    rfl

theorem unsigned_eq {up : Bool} {body : List Piece}
    (h : (match s with
      | .char '+' :: rest => (true, rest)
      | .char '-' :: rest => (false, rest)
      | s => (true, s)) = (up, body)) :
    (if isMark ['+', '-'] s then s.drop 1 else s) = body := by
  split at h
  · cases h
    rfl
  · cases h
    rfl
  · next hplus hminus =>
    cases h
    refine if_neg fun hm => ?_
    unfold isMark at hm
    split at hm
    · next c tail =>
      have hc : c = '+' ∨ c = '-' := by simpa using hm
      rcases hc with rfl | rfl
      · exact hplus tail rfl
      · exact hminus tail rfl
    · cases hm

theorem skipExponent_of_readExponent :
    readExponent positive significand shift s = .ok (n, rest) → skipExponent s = .ok rest := by
  fun_cases readExponent positive significand shift s <;> intro h
  case case3 up body hsign d tail hd e after he =>
    obtain ⟨-, hafter⟩ := readExponentDigits_stops he
    simp only [skipExponent, unsigned_eq hsign, hd, rest_of_scaledNumber h, hafter rfl]
  case case5 up body hsign d tail hd after he hsmall =>
    cases h
    obtain ⟨hafter, -⟩ := readExponentDigits_stops he
    simp only [skipExponent, unsigned_eq hsign, hd, hafter]
  all_goals cases h

theorem skipFraction_of_readFraction
    (h : readFraction positive significand shift s = .ok (n, rest)) :
    skipFraction s = .ok rest := by
  unfold readFraction at h
  cases hd : readDigits significand 0 s with
  | mk read after =>
    obtain ⟨significand', count, more⟩ := read
    obtain ⟨hskip, hrest, hnone⟩ := readDigits_stops hd
    simp only [hd] at h
    split at h
    · cases h
    · next hdigit =>
      have hend : (if more then skipDigits after else after) = skipDigits s := by
        cases more with
        | true => exact hskip
        | false => exact hrest rfl
      rw [hend] at h
      cases hfirst : digitOf? s with
      | none => exact absurd (hnone hfirst) (by simpa using hdigit)
      | some r =>
        obtain ⟨d, tail⟩ := r
        obtain ⟨p, rfl, hp⟩ := digitOf?_eq_some hfirst
        rw [skipDigits_cons hp] at h
        simp only [skipFraction, hfirst]
        split at h
        · next hmark =>
          rw [if_pos hmark]
          exact skipExponent_of_readExponent h
        · next hmark =>
          rw [if_neg hmark, rest_of_scaledNumber h]

/-- What follows the digits of a number is passed over as it is read. -/
def skipTail (s : List Piece) : Except Fault (List Piece) :=
  if isMark ['.'] s then skipFraction (s.drop 1)
  else if isMark ['e', 'E'] s then skipExponent (s.drop 1)
  else .ok s

theorem skipTail_of_readTail (h : readTail positive significand s = .ok (n, rest)) :
    skipTail s = .ok rest := by
  unfold readTail at h
  unfold skipTail
  split at h
  · next hpoint =>
    rw [if_pos hpoint]
    exact skipFraction_of_readFraction h
  · next hpoint =>
    rw [if_neg hpoint]
    split at h
    · next hmark =>
      rw [if_pos hmark]
      exact skipExponent_of_readExponent h
    · next hmark =>
      rw [if_neg hmark]
      split at h
      · cases h
        rfl
      · split at h <;> (cases h; rfl)

theorem skipTail_of_readLongTail (h : readLongTail positive significand s = .ok (n, rest)) :
    skipTail (skipDigits s) = .ok rest := by
  unfold readLongTail at h
  unfold skipTail
  simp only at h
  split at h
  · next hpoint =>
    rw [if_pos hpoint]
    exact skipFraction_of_readFraction h
  · next hpoint =>
    rw [if_neg hpoint]
    split at h
    · next hmark =>
      rw [if_pos hmark]
      exact skipExponent_of_readExponent h
    · next hmark => rw [if_neg hmark, rest_of_scaledNumber h]

theorem skipNumber_eq {d : Nat} {tail : List Piece} (hd : digitOf? s = some (d, tail))
    (hzero : ¬ (d = 0 ∧ (digitOf? tail).isSome)) :
    skipNumber s = skipTail (if d = 0 then tail else skipDigits tail) := by
  simp only [skipNumber, hd, if_neg hzero, skipTail]

theorem skipNumber_of_readNumber :
    readNumber positive s = .ok (n, rest) → skipNumber s = .ok rest := by
  fun_cases readNumber positive s <;> intro h
  case case4 tail hd hzero =>
    rw [skipNumber_eq hd (fun hz => hzero hz.2)]
    exact skipTail_of_readTail h
  case case5 d tail hne hd significand count after hdigits =>
    obtain ⟨-, hafter, -⟩ := readDigits_stops hdigits
    rw [skipNumber_eq hd (fun hz => hne hz.1), if_neg hne, ← hafter rfl]
    exact skipTail_of_readTail h
  case case6 d tail hne hd significand count after hdigits =>
    obtain ⟨hafter, -, -⟩ := readDigits_stops hdigits
    rw [skipNumber_eq hd (fun hz => hne hz.1), if_neg hne, ← hafter]
    exact skipTail_of_readLongTail h
  all_goals cases h

end

theorem length_of_digitOf? {d : Nat} (h : digitOf? s = some (d, rest)) :
    rest.length + 1 = s.length := by
  obtain ⟨p, rfl, -⟩ := digitOf?_eq_some h
  rfl

theorem length_of_skipExponent (h : skipExponent s = .ok rest) : rest.length < s.length := by
  unfold skipExponent at h
  simp only at h
  split at h
  · cases h
  · next d tail hd =>
    cases h
    have htail := length_of_digitOf? hd
    have hrest := length_skipDigits_le tail
    have hsign : (if isMark ['+', '-'] s then s.drop 1 else s).length ≤ s.length := by
      split <;> simp
    omega

theorem length_of_skipFraction (h : skipFraction s = .ok rest) : rest.length < s.length := by
  unfold skipFraction at h
  split at h
  · cases h
  · next d tail hd =>
    have htail := length_of_digitOf? hd
    have hdigits := length_skipDigits_le tail
    simp only at h
    split at h
    · have hrest := length_of_skipExponent h
      rw [List.length_drop] at hrest
      omega
    · cases h
      omega

theorem length_of_skipTail (h : skipTail s = .ok rest) : rest.length ≤ s.length := by
  unfold skipTail at h
  split at h
  · have hrest := length_of_skipFraction h
    rw [List.length_drop] at hrest
    omega
  · split at h
    · have hrest := length_of_skipExponent h
      rw [List.length_drop] at hrest
      omega
    · cases h
      exact Nat.le_refl _

theorem length_of_skipNumber (h : skipNumber s = .ok rest) : rest.length < s.length := by
  cases hd : digitOf? s with
  | none => simp only [skipNumber, hd, reduceCtorEq] at h
  | some r =>
    obtain ⟨d, tail⟩ := r
    have htail := length_of_digitOf? hd
    by_cases hzero : d = 0 ∧ (digitOf? tail).isSome
    · simp only [skipNumber, hd, if_pos hzero, reduceCtorEq] at h
    · rw [skipNumber_eq hd hzero] at h
      have hrest := length_of_skipTail h
      have hdigits := length_skipDigits_le tail
      split at hrest <;> omega

theorem skipScalar_of_readScalar {v : Value} (h : readScalar s = .ok (v, rest)) :
    skipScalar s = .ok rest := by
  unfold readScalar at h
  unfold skipScalar
  split at h
  case h_1 => cases h
  case h_2 | h_3 | h_4 =>
    obtain ⟨tail, hw, he⟩ := map_eq_ok_iff.mp h
    cases he
    exact hw
  case h_5 =>
    obtain ⟨⟨n, tail⟩, hn, he⟩ := map_eq_ok_iff.mp h
    cases he
    exact skipNumber_of_readNumber hn
  case h_6 =>
    obtain ⟨⟨t, tail⟩, ht, he⟩ := map_eq_ok_iff.mp h
    cases he
    exact skipString_of_readString ht
  case h_7 =>
    split at h
    · next hd =>
      obtain ⟨⟨n, tail⟩, hn, he⟩ := map_eq_ok_iff.mp h
      cases he
      simpa only [if_pos hd] using skipNumber_of_readNumber hn
    · cases h

theorem length_of_skipScalar (h : skipScalar s = .ok rest) : rest.length < s.length := by
  unfold skipScalar at h
  split at h
  case h_1 => cases h
  case h_2 | h_3 | h_4 =>
    have hw := length_of_readWord h
    simp only [List.length_cons] at hw ⊢
    omega
  case h_5 => exact Nat.lt_succ_of_lt (length_of_skipNumber h)
  case h_6 => exact Nat.lt_succ_of_lt (length_of_skipString h)
  case h_7 =>
    split at h
    · exact length_of_skipNumber h
    · cases h

end ToolPipeline.Json
