import ToolPipeline.Proofs.Codec.FormatMarks

/-! Octets that begin as a PNG image with a header chunk, and the size that the header tells. -/

namespace ToolPipeline.Image

/-- The octets of a PNG image from its signature on: the length of the first chunk, its name, the
width and the height that it tells, and anything else. -/
inductive PngHeader : List UInt8 → Nat → Nat → Prop
  | intro {count wide high rest : List UInt8} :
    count.length = 4 → wide.length = 4 → high.length = 4 →
    PngHeader (pngSignature ++ (count ++ ([0x49, 0x48, 0x44, 0x52] ++ (wide ++ (high ++ rest)))))
      (bigEndianValue wide) (bigEndianValue high)

variable {octets : List UInt8} {width height : Nat}

theorem format?_eq_png_iff : format? octets = some .png ↔ pngSignature <+: octets :=
  format?_eq_some_iff

theorem drop_header {count name wide : List UInt8} (hcount : count.length = 4)
    (hname : name.length = 4) (hwide : wide.length = 4) (rest : List UInt8) :
    let header := pngSignature ++ (count ++ (name ++ (wide ++ rest)))
    header.drop 12 = name ++ (wide ++ rest) ∧ header.drop 16 = wide ++ rest ∧
      header.drop 20 = rest := by
  have hsignature : pngSignature.length = 8 := rfl
  intro header
  have h₁ : header.drop 12 = name ++ (wide ++ rest) := by
    rw [show 12 = 8 + 4 from rfl, ← List.drop_drop, List.drop_left' hsignature,
      List.drop_left' hcount]
  have h₂ : header.drop 16 = wide ++ rest := by
    rw [show 16 = 12 + 4 from rfl, ← List.drop_drop, h₁, List.drop_left' hname]
  refine ⟨h₁, h₂, ?_⟩
  rw [show 20 = 16 + 4 from rfl, ← List.drop_drop, h₂, List.drop_left' hwide]

/-- The size is told if and only if there is a header, and it is the one in the header. -/
theorem pngSize?_eq_some_iff :
    pngSize? octets = some (width, height) ↔ PngHeader octets width height := by
  have hsignature : pngSignature.length = 8 := rfl
  simp only [pngSize?, format?_eq_png_iff, Option.ite_none_right_eq_some, Option.some.injEq,
    Prod.mk.injEq]
  constructor
  · rintro ⟨⟨⟨rest, rfl⟩, hlen, hheader⟩, rfl, rfl⟩
    have hcut (l : List UInt8) (h : 4 ≤ l.length) : ∃ a b, l = a ++ b ∧ a.length = 4 :=
      ⟨l.take 4, l.drop 4, (List.take_append_drop 4 l).symm, List.length_take_of_le h⟩
    rw [List.length_append, hsignature] at hlen
    obtain ⟨count, rest, rfl, hcount⟩ := hcut rest (by omega)
    rw [List.length_append] at hlen
    obtain ⟨name, rest, rfl, hname⟩ := hcut rest (by omega)
    rw [List.length_append] at hlen
    obtain ⟨wide, rest, rfl, hwide⟩ := hcut rest (by omega)
    rw [List.length_append] at hlen
    obtain ⟨high, rest, rfl, hhigh⟩ := hcut rest (by omega)
    obtain ⟨h₁, h₂, h₃⟩ := drop_header hcount hname hwide (high ++ rest)
    rw [h₁, List.take_left' hname] at hheader
    subst hheader
    rw [h₂, h₃, List.take_left' hwide, List.take_left' hhigh]
    exact .intro hcount hwide hhigh
  · intro h
    cases h with
    | @intro count wide high rest hcount hwide hhigh =>
      have hname : ([0x49, 0x48, 0x44, 0x52] : List UInt8).length = 4 := rfl
      obtain ⟨h₁, h₂, h₃⟩ := drop_header hcount hname hwide (high ++ rest)
      rw [h₁, h₂, h₃, List.take_left' hwide, List.take_left' hhigh]
      refine ⟨⟨List.prefix_append .., ?_, rfl⟩, rfl, rfl⟩
      simp only [List.length_append, hsignature, hcount, hwide, hhigh, hname]
      omega

end ToolPipeline.Image
