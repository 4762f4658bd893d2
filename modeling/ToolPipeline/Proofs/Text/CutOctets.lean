import Mathlib.Tactic.SplitIfs
import ToolPipeline.Proofs.Json.WrittenScalars
import ToolPipeline.Proofs.Text.Parts

/-! The octets of a text are cut into its characters again, whatever characters these are. -/

namespace ToolPipeline

section
variable {n count bits code : Nat} {low high b : UInt8} {rest : List UInt8}

theorem cutOctets_skip (tail rest : List UInt8) :
    cutOctets tail.length (tail ++ rest) = cutOctets 0 rest := by
  induction tail with
  | nil => rfl
  | cons b tail ih => exact ih

theorem cutOctets_lead (tail : List UInt8) (hb : ¬ b < 0x80)
    (hlead : leadOctet b = some (tail.length, low, high, bits))
    (htail : tailOctets tail.length low high bits (tail ++ rest) = some code) :
    cutOctets 0 (b :: (tail ++ rest)) = .char (Char.ofNat code) :: cutOctets 0 rest := by
  rw [cutOctets, if_neg hb]
  simp only [hlead, htail, cutOctets_skip]

theorem toNat_ofNat_octet (hn : n < 256) : (UInt8.ofNat n).toNat = n :=
  UInt8.toNat_ofNat_of_lt' hn

theorem tailOctets_cons (hlow : low.toNat ≤ n) (hhigh : n ≤ high.toNat) :
    tailOctets (count + 1) low high bits (UInt8.ofNat n :: rest) =
      tailOctets count 0x80 0xBF (bits * 64 + (n - 0x80)) rest := by
  have hn : (UInt8.ofNat n).toNat = n :=
    toNat_ofNat_octet (Nat.lt_of_le_of_lt hhigh high.toNat_lt)
  have hbounds : low ≤ UInt8.ofNat n ∧ UInt8.ofNat n ≤ high := by
    rw [UInt8.le_iff_toNat_le, UInt8.le_iff_toNat_le, hn]
    exact ⟨hlow, hhigh⟩
  rw [tailOctets, if_pos hbounds, hn]

/-- All octets behind the second one are between the same bounds. -/
theorem tailOctets_cons_later (hn : n < 64) :
    tailOctets (count + 1) 0x80 0xBF bits (UInt8.ofNat (n + 128) :: rest) =
      tailOctets count 0x80 0xBF (bits * 64 + n) rest := by
  have hlow : (0x80 : UInt8).toNat ≤ n + 128 := Nat.le_add_left 128 n
  have hhigh : n + 128 ≤ (0xBF : UInt8).toNat := show n + 128 ≤ 191 by omega
  rw [tailOctets_cons hlow hhigh, Nat.add_sub_cancel]

theorem not_ascii_of_le (hle : 128 ≤ n) (hn : n < 256) : ¬ UInt8.ofNat n < 0x80 := by
  rw [UInt8.lt_iff_toNat_lt, toNat_ofNat_octet hn]
  exact Nat.not_lt.mpr hle

theorem leadOctet_two (hleast : 2 ≤ n) (hmost : n < 32) :
    leadOctet (UInt8.ofNat (n + 192)) = some (1, 0x80, 0xBF, n) := by
  have hn : (UInt8.ofNat (n + 192)).toNat = n + 192 := toNat_ofNat_octet (by omega)
  simp only [leadOctet, hn]
  rw [if_pos (by omega), Nat.add_sub_cancel]

/-- The bounds of the octet behind keep out what fits in two octets, and surrogates. -/
theorem leadOctet_three (hn : n < 16) : leadOctet (UInt8.ofNat (n + 224)) =
    some (2, if n = 0 then 0xA0 else 0x80, if n = 13 then 0x9F else 0xBF, n) := by
  have hall : ∀ n < 16, leadOctet (UInt8.ofNat (n + 224)) =
      some (2, if n = 0 then 0xA0 else 0x80, if n = 13 then 0x9F else 0xBF, n) := by decide
  exact hall n hn

/-- The bounds of the octet behind keep out what fits in three octets, and what is no character. -/
theorem leadOctet_four (hn : n < 5) : leadOctet (UInt8.ofNat (n + 240)) =
    some (3, if n = 0 then 0x90 else 0x80, if n = 4 then 0x8F else 0xBF, n) := by
  have hall : ∀ n < 5, leadOctet (UInt8.ofNat (n + 240)) =
      some (3, if n = 0 then 0x90 else 0x80, if n = 4 then 0x8F else 0xBF, n) := by decide
  exact hall n hn

end

theorem cutOctets_utf8EncodeChar (c : Char) (rest : List UInt8) :
    cutOctets 0 (String.utf8EncodeChar c ++ rest) = .char c :: cutOctets 0 rest := by
  have hc : Char.ofNat c.val.toNat = c := Char.ofNat_toNat c
  have hvalid : c.val.toNat < 55296 ∨ 57343 < c.val.toNat ∧ c.val.toNat < 1114112 := c.valid
  rw [String.utf8EncodeChar]
  generalize c.val.toNat = v at hc hvalid
  subst hc
  split_ifs with h₁ h₂ h₃
  · have hv : (UInt8.ofNat v).toNat = v := toNat_ofNat_octet (by omega)
    have hascii : UInt8.ofNat v < 0x80 := by
      rw [UInt8.lt_iff_toNat_lt, hv]
      exact Nat.lt_succ_of_le h₁
    rw [List.singleton_append, cutOctets, if_pos hascii, hv]
  · have hlead : v / 64 % 32 = v / 64 := Nat.mod_eq_of_lt (by omega)
    have htail : tailOctets 1 0x80 0xBF (v / 64) (UInt8.ofNat (v % 64 + 128) :: rest) = some v := by
      rw [tailOctets_cons_later (by omega), tailOctets]
      exact congrArg some (by omega)
    rw [hlead]
    exact cutOctets_lead [_] (not_ascii_of_le (by omega) (by omega))
      (leadOctet_two (by omega) (by omega)) htail
  · have hlead : v / 4096 % 16 = v / 4096 := Nat.mod_eq_of_lt (by omega)
    have htail : tailOctets 2 (if v / 4096 = 0 then 0xA0 else 0x80)
        (if v / 4096 = 13 then 0x9F else 0xBF) (v / 4096)
        (UInt8.ofNat (v / 64 % 64 + 128) :: UInt8.ofNat (v % 64 + 128) :: rest) = some v := by
      rw [tailOctets_cons, Nat.add_sub_cancel, tailOctets_cons_later (by omega), tailOctets]
      · exact congrArg some (by omega)
      · split
        · exact show 160 ≤ _ by omega
        · exact Nat.le_add_left 128 _
      · split
        · exact show _ ≤ 159 by omega
        · exact show _ ≤ 191 by omega
    rw [hlead]
    exact cutOctets_lead [_, _] (not_ascii_of_le (by omega) (by omega))
      (leadOctet_three (by omega)) htail
  · have hlead : v / 262144 % 8 = v / 262144 := Nat.mod_eq_of_lt (by omega)
    have htail : tailOctets 3 (if v / 262144 = 0 then 0x90 else 0x80)
        (if v / 262144 = 4 then 0x8F else 0xBF) (v / 262144)
        (UInt8.ofNat (v / 4096 % 64 + 128) :: UInt8.ofNat (v / 64 % 64 + 128) ::
          UInt8.ofNat (v % 64 + 128) :: rest) = some v := by
      rw [tailOctets_cons, Nat.add_sub_cancel, tailOctets_cons_later (by omega),
        tailOctets_cons_later (by omega), tailOctets]
      · exact congrArg some (by omega)
      · split
        · exact show 144 ≤ _ by omega
        · exact Nat.le_add_left 128 _
      · split
        · exact show _ ≤ 143 by omega
        · exact show _ ≤ 191 by omega
    rw [hlead]
    exact cutOctets_lead [_, _, _] (not_ascii_of_le (by omega) (by omega))
      (leadOctet_four (by omega)) htail

theorem textOfOctets?_octetsOfText (s : String) : textOfOctets? (octetsOfText s) = some s := by
  have hcut (cs : List Char) : cutOctets 0 (cs.flatMap String.utf8EncodeChar) = cs.map .char := by
    induction cs with
    | nil => rfl
    | cons c cs ih => rw [List.flatMap_cons, cutOctets_utf8EncodeChar, ih, List.map_cons]
  have hoctets : octetsOfText s = s.toList.flatMap String.utf8EncodeChar := by
    rw [← Text.octetsOfText_ofList, String.ofList_toList]
  rw [textOfOctets?, Piece.ofOctets, hoctets, hcut, Json.chars?_map_char, Option.map_some,
    String.ofList_toList]

end ToolPipeline
