import Mathlib.Data.List.DropRight
import Mathlib.Data.List.Infix
import ToolPipeline.Text.Blank
import ToolPipeline.Text.Octets
import ToolPipeline.Text.Split

/-! Parts of texts: what is left between blanks at either end, what stands before and after the
first place of a mark, and the octets of characters. -/

namespace ToolPipeline.Text

def Blanks (s : List Char) : Prop := ∀ c ∈ s, isBlank c = true

theorem trimChars_eq (s : List Char) : trimChars s = (s.dropWhile isBlank).rdropWhile isBlank := rfl

theorem exists_trimChars (s : List Char) :
    ∃ before after, Blanks before ∧ Blanks after ∧ s = before ++ (trimChars s ++ after) := by
  refine ⟨s.takeWhile isBlank, (s.dropWhile isBlank).rtakeWhile isBlank,
    fun c hc => List.mem_takeWhile_imp hc, fun c hc => List.mem_rtakeWhile_imp hc, ?_⟩
  rw [trimChars_eq, List.rdropWhile_append_rtakeWhile, List.takeWhile_append_dropWhile]

theorem trimChars_of_blanks {before core after : List Char} (hbefore : Blanks before)
    (hcore : ∀ c ∈ core, isBlank c = false) (hafter : Blanks after) :
    trimChars (before ++ (core ++ after)) = core := by
  have hfirst {s : List Char} (hs : ∀ c ∈ s, isBlank c = false) (hne : s ≠ []) (rest : List Char) :
      (s ++ rest).dropWhile isBlank = s ++ rest := by
    obtain ⟨c, s, rfl⟩ := List.exists_cons_of_ne_nil hne
    exact List.dropWhile_cons_of_neg (by simp [hs c List.mem_cons_self])
  rw [trimChars, List.dropWhile_append_of_pos hbefore]
  by_cases hn : core = []
  · rw [hn, List.nil_append, List.dropWhile_eq_nil_iff.mpr hafter]
    rfl
  · have hback : ∀ c ∈ core.reverse, isBlank c = false := fun c hc =>
      hcore c (List.mem_reverse.mp hc)
    rw [hfirst hcore hn, List.reverse_append, List.dropWhile_append_of_pos fun c hc =>
      hafter c (List.mem_reverse.mp hc)]
    have hlast := hfirst hback (by simpa using hn) []
    rw [List.append_nil] at hlast
    rw [hlast, List.reverse_reverse]

section
variable {mark s rest before after : List Char}

theorem stripHead?_eq_some_iff : stripHead? mark s = some rest ↔ s = mark ++ rest := by
  simp only [stripHead?, Option.ite_none_right_eq_some, List.isPrefixOf_iff_prefix,
    Option.some.injEq]
  constructor
  · rintro ⟨⟨rest, rfl⟩, rfl⟩
    rw [List.drop_left]
  · rintro rfl
    exact ⟨List.prefix_append .., List.drop_left⟩

/-- A mark whose first character does not come again in it does not overlap itself. -/
theorem eq_nil_of_mark_prefix {m : Char} {tail : List Char} (hm : m ∉ tail)
    (hp : (m :: tail) <+: before ++ (m :: tail ++ after)) (hn : ¬ (m :: tail) <:+: before) :
    before = [] := by
  rcases List.prefix_or_prefix_of_prefix hp (List.prefix_append ..) with h | ⟨mid, hmid⟩
  · exact absurd h.isInfix hn
  · -- the mark behind `before` begins inside the one at the head of the text
    cases before with
    | nil => rfl
    | cons b before =>
      cases mid with
      | nil =>
        rw [List.append_nil] at hmid
        exact absurd (hmid ▸ List.infix_rfl) hn
      | cons c mid =>
        rw [← hmid, List.prefix_append_right_inj] at hp
        simp only [List.cons_append, List.cons_prefix_cons] at hp
        rw [List.cons_append, List.cons.injEq] at hmid
        refine absurd ?_ hm
        rw [← hmid.2, hp.1, hmid.1]
        exact List.mem_append_right _ List.mem_cons_self

/-- The parts of a text are those around the first place where the mark stands. -/
theorem splitAt?_eq_some_iff {m : Char} {tail : List Char} (hm : m ∉ tail) :
    splitAt? (m :: tail) s = some (before, after) ↔
      s = before ++ (m :: tail ++ after) ∧ ¬ (m :: tail) <:+: before := by
  induction s generalizing before with
  | nil => simp [splitAt?]
  | cons c s ih =>
    rw [splitAt?]
    have hne : ¬ (m :: tail) <:+: [] := by simp
    split
    · next h =>
      rw [List.isPrefixOf_iff_prefix] at h
      obtain ⟨rest, hrest⟩ := h
      rw [← hrest, List.drop_left, Option.some.injEq, Prod.mk.injEq]
      constructor
      · rintro ⟨rfl, rfl⟩
        exact ⟨rfl, hne⟩
      · rintro ⟨he, hn⟩
        obtain rfl := eq_nil_of_mark_prefix hm (he ▸ List.prefix_append ..) hn
        exact ⟨rfl, List.append_cancel_left he⟩
    · next h =>
      rw [List.isPrefixOf_iff_prefix] at h
      rw [Option.map_eq_some_iff]
      constructor
      · rintro ⟨⟨b, a⟩, hs, he⟩
        cases he
        obtain ⟨rfl, hn⟩ := ih.mp hs
        refine ⟨rfl, fun hi => ?_⟩
        rcases List.infix_cons_iff.mp hi with hp | hi
        · exact h (hp.trans (by rw [← List.cons_append]; exact List.prefix_append ..))
        · exact hn hi
      · rintro ⟨he, hn⟩
        cases before with
        | nil => exact absurd (he ▸ List.prefix_append ..) h
        | cons b before =>
          obtain ⟨rfl, rfl⟩ := List.cons.inj he
          have hrest : ¬ (m :: tail) <:+: before :=
            fun hi => hn (List.infix_cons_iff.mpr (.inr hi))
          exact ⟨(before, after), ih.mpr ⟨rfl, hrest⟩, rfl⟩

end

theorem toList_eq_data (b : ByteArray) : b.toList = b.data.toList := by
  have hloop (i : Nat) (r : List UInt8) :
      ByteArray.toList.loop b i r = r.reverse ++ b.data.toList.drop i := by
    fun_induction ByteArray.toList.loop b i r with
    | case1 i r h ih =>
      have hlt : i < b.data.toList.length := h
      rw [ih, List.drop_eq_getElem_cons hlt, List.reverse_cons, List.append_assoc]
      simp [ByteArray.get!, h]
    | case2 i r h =>
      have hle : b.data.toList.length ≤ i := Nat.le_of_not_lt h
      rw [List.drop_eq_nil_of_le hle, List.append_nil]
  exact hloop 0 []

theorem octetsOfText_ofList (s : List Char) :
    octetsOfText (String.ofList s) = s.flatMap String.utf8EncodeChar := by
  rw [octetsOfText, String.toUTF8_eq_toByteArray, String.toByteArray_ofList, toList_eq_data,
    List.utf8Encode, List.toList_data_toByteArray]

theorem octetsOfText_inj {s t : String} : octetsOfText s = octetsOfText t ↔ s = t := by
  refine ⟨fun h => ?_, fun h => h ▸ rfl⟩
  rw [octetsOfText, octetsOfText, toList_eq_data, toList_eq_data, Array.toList_inj] at h
  exact String.toByteArray_inj.mp (ByteArray.ext h)

def isAscii (c : Char) : Bool := c.toNat < 128

def octetOf (c : Char) : UInt8 := UInt8.ofNat c.toNat

theorem octetsOfText_of_ascii {s : List Char} (h : ∀ c ∈ s, isAscii c = true) :
    octetsOfText (String.ofList s) = s.map octetOf := by
  rw [octetsOfText_ofList, List.map_eq_flatMap]
  refine List.flatMap_congr fun c hc => ?_
  have hle : c.val.toNat ≤ 0x7f := Nat.le_of_lt_succ (of_decide_eq_true (h c hc))
  rw [String.utf8EncodeChar]
  exact if_pos hle

end ToolPipeline.Text
