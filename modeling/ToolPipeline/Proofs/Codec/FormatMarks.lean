import Mathlib.Tactic.SplitIfs
import ToolPipeline.Codec.Image

/-! The octets by which images show their formats. They are among the first twelve, and no image
shows two formats, so nothing that is appended to an image changes its format. -/

namespace ToolPipeline.Image

namespace Format

/-- The octets of an image show this format. -/
def Marks : Format → List UInt8 → Prop
  | jpeg, octets => [0xFF, 0xD8, 0xFF] <+: octets
  | png, octets => pngSignature <+: octets
  | gif, octets => [0x47, 0x49, 0x46, 0x38] <+: octets
  | webp, octets => [0x52, 0x49, 0x46, 0x46] <+: octets ∧ [0x57, 0x45, 0x42, 0x50] <+: octets.drop 8
  | bmp, octets => [0x42, 0x4D] <+: octets

def firstOctet : Format → UInt8
  | jpeg => 0xFF
  | png => 0x89
  | gif => 0x47
  | webp => 0x52
  | bmp => 0x42

variable {f g : Format} {octets : List UInt8}

theorem Marks.head?_eq (h : f.Marks octets) : octets.head? = some f.firstOctet := by
  have hhead {a : UInt8} {l : List UInt8} (h : a :: l <+: octets) : octets.head? = some a := by
    obtain ⟨rest, rfl⟩ := h
    rfl
  cases f with
  | jpeg | png | gif | bmp => exact hhead h
  | webp => exact hhead h.1

theorem Marks.unique (hf : f.Marks octets) (hg : g.Marks octets) : f = g := by
  have hfirst : f.firstOctet = g.firstOctet := Option.some.inj (hf.head?_eq.symm.trans hg.head?_eq)
  revert hfirst
  cases f <;> cases g <;> decide

theorem Marks.append (h : f.Marks octets) (rest : List UInt8) : f.Marks (octets ++ rest) := by
  cases f with
  | jpeg | png | gif | bmp => exact h.trans (List.prefix_append octets rest)
  | webp =>
    refine ⟨h.1.trans (List.prefix_append octets rest), h.2.trans ?_⟩
    rw [List.drop_append]
    exact List.prefix_append _ _

theorem marks_take_iff (f : Format) (octets : List UInt8) {n : Nat} (hn : 12 ≤ n) :
    f.Marks (octets.take n) ↔ f.Marks octets := by
  have htake (mark : List UInt8) (skip : Nat) (h : skip + mark.length ≤ 12) :
      mark <+: (octets.take n).drop skip ↔ mark <+: octets.drop skip := by
    rw [List.drop_take, List.prefix_take_iff, and_iff_left]
    omega
  cases f with
  | jpeg | png | gif | bmp => exact htake _ 0 (by decide)
  | webp => exact and_congr (htake _ 0 (by decide)) (htake _ 8 (by decide))

end Format

section
variable {f : Format} {octets : List UInt8}

theorem marks_of_format? (h : format? octets = some f) : f.Marks octets := by
  simp only [format?, List.isPrefixOf_iff_prefix] at h
  split_ifs at h with hjpeg hpng hgif hwebp hbmp
  · cases h; exact hjpeg
  · cases h; exact hpng
  · cases h; exact hgif
  · cases h; exact hwebp
  · cases h; exact hbmp

theorem isSome_format? (h : f.Marks octets) : (format? octets).isSome := by
  simp only [format?, List.isPrefixOf_iff_prefix]
  split_ifs with hjpeg hpng hgif hwebp hbmp
  case neg =>
    cases f with
    | jpeg => exact absurd h hjpeg
    | png => exact absurd h hpng
    | gif => exact absurd h hgif
    | webp => exact absurd h hwebp
    | bmp => exact absurd h hbmp
  all_goals rfl

theorem format?_eq_some_iff : format? octets = some f ↔ f.Marks octets := by
  refine ⟨marks_of_format?, fun h => ?_⟩
  obtain ⟨g, hg⟩ := Option.isSome_iff_exists.mp (isSome_format? h)
  rw [hg, h.unique (marks_of_format? hg)]

theorem format?_take (octets : List UInt8) {n : Nat} (hn : 12 ≤ n) :
    format? (octets.take n) = format? octets := by
  refine Option.ext fun f => ?_
  rw [format?_eq_some_iff, format?_eq_some_iff, Format.marks_take_iff f octets hn]

theorem format?_append (h : format? octets = some f) (rest : List UInt8) :
    format? (octets ++ rest) = some f :=
  format?_eq_some_iff.mpr ((format?_eq_some_iff.mp h).append rest)

end

end ToolPipeline.Image
