import ToolPipeline.Proofs.Codec.PngHeader

/-! The inspection of an image access by access. No octet is asked for that is not there, the header
of a PNG image gives back the size that it was built from, and nothing behind the first octets
matters. -/

namespace ToolPipeline.Image

structure OutOfRange where
  start : Nat
  stop : Nat

def slice (octets : List UInt8) (start stop : Nat) : Except OutOfRange (List UInt8) :=
  if start ≤ stop ∧ stop ≤ octets.length then .ok ((octets.drop start).take (stop - start))
  else .error ⟨start, stop⟩

def word? (octets : List UInt8) : Option Nat :=
  if octets.length = 4 then some (bigEndianValue octets) else none

/-- The size of a PNG image in the order of the accesses, each of which may fail. -/
def inspect (octets : List UInt8) : Except OutOfRange (Option (Nat × Nat)) := do
  if format? octets ≠ some .png ∨ octets.length < 24 then return none
  if (← slice octets 12 16) ≠ [0x49, 0x48, 0x44, 0x52] then return none
  let some width := word? (← slice octets 16 20) | return none
  let some height := word? (← slice octets 20 24) | return none
  return some (width, height)

section
variable {octets part : List UInt8} {start stop : Nat}

theorem slice_eq_ok_iff : slice octets start stop = .ok part ↔
    start ≤ stop ∧ stop ≤ octets.length ∧ (octets.drop start).take (stop - start) = part := by
  unfold slice
  split
  · next h => simp [h.1, h.2]
  · next h => simp [← and_assoc, h]

theorem slice_of_le (hstart : start ≤ stop) (hstop : stop ≤ octets.length) :
    slice octets start stop = .ok ((octets.drop start).take (stop - start)) :=
  slice_eq_ok_iff.mpr ⟨hstart, hstop, rfl⟩

theorem word?_slice (octets : List UInt8) (start : Nat) (hstart : start + 4 ≤ octets.length) :
    word? ((octets.drop start).take 4) = some (bigEndianValue ((octets.drop start).take 4)) := by
  refine if_pos ?_
  rw [List.length_take, List.length_drop]
  omega

/-- No access fails, as the length is looked at before any of them. -/
theorem inspect_eq (octets : List UInt8) : inspect octets = .ok (pngSize? octets) := by
  by_cases hf : format? octets = some .png
  · by_cases hlen : octets.length < 24
    · have hshort : ¬ 24 ≤ octets.length := Nat.not_le.mpr hlen
      simp [inspect, pngSize?, hlen, hshort, pure, Except.pure]
    · have hlong : 24 ≤ octets.length := Nat.not_lt.mp hlen
      have hname : slice octets 12 16 = .ok ((octets.drop 12).take 4) :=
        slice_of_le (by decide) (by omega)
      have hwide : slice octets 16 20 = .ok ((octets.drop 16).take 4) :=
        slice_of_le (by decide) (by omega)
      have hhigh : slice octets 20 24 = .ok ((octets.drop 20).take 4) :=
        slice_of_le (by decide) hlong
      have hwidth := word?_slice octets 16 (by omega)
      have hheight := word?_slice octets 20 hlong
      by_cases hheader : (octets.drop 12).take 4 = [0x49, 0x48, 0x44, 0x52]
      · simp [inspect, pngSize?, hf, hlen, hlong, hname, hwide, hhigh, hwidth, hheight, hheader,
          bind, Except.bind, pure, Except.pure]
      · simp [inspect, pngSize?, hf, hlen, hname, hheader, bind, Except.bind, pure, Except.pure]
  · simp [inspect, pngSize?, hf, pure, Except.pure]

end

def bigEndian (n : Nat) : List UInt8 :=
  [n / 0x1000000, n / 0x10000, n / 0x100, n].map UInt8.ofNat

theorem bigEndianValue_bigEndian {n : Nat} (h : n < Nat.pow 2 32) :
    bigEndianValue (bigEndian n) = n := by
  have hpow : Nat.pow 2 32 = 0x100000000 := rfl
  simp only [bigEndian, bigEndianValue, List.map_cons, List.map_nil, List.foldl_cons,
    List.foldl_nil, UInt8.toNat_ofNat']
  omega

/-- All sequences of four octets spell a number of 32 bits, each another one. -/
theorem bigEndian_of_length {octets : List UInt8} (h : octets.length = 4) :
    bigEndianValue octets < Nat.pow 2 32 ∧ bigEndian (bigEndianValue octets) = octets := by
  have hpow : Nat.pow 2 32 = 0x100000000 := rfl
  match octets, h with
  | [a, b, c, d], _ =>
    have ha := a.toNat_lt
    have hb := b.toNat_lt
    have hc := c.toNat_lt
    have hd := d.toNat_lt
    simp only [bigEndian, bigEndianValue, List.map_cons, List.map_nil, List.foldl_cons,
      List.foldl_nil, List.cons.injEq, ← UInt8.toNat_inj, UInt8.toNat_ofNat', and_true]
    omega

def pngHeader (count : List UInt8) (width height : Nat) : List UInt8 :=
  pngSignature ++ (count ++ ([0x49, 0x48, 0x44, 0x52] ++ (bigEndian width ++ bigEndian height)))

theorem pngHeader_append (count : List UInt8) (width height : Nat) (rest : List UInt8) :
    pngHeader count width height ++ rest = pngSignature ++ (count ++ ([0x49, 0x48, 0x44, 0x52] ++
      (bigEndian width ++ (bigEndian height ++ rest)))) := by
  simp only [pngHeader, List.append_assoc]

/-- The size is told of the images that begin with the header built from it, and of no others. -/
theorem pngSize?_eq_some_iff_header {octets : List UInt8} {width height : Nat} :
    pngSize? octets = some (width, height) ↔ width < Nat.pow 2 32 ∧ height < Nat.pow 2 32 ∧
      ∃ count rest, count.length = 4 ∧ octets = pngHeader count width height ++ rest := by
  rw [pngSize?_eq_some_iff]
  constructor
  · intro h
    cases h with
    | @intro count wide high rest hcount hwide hhigh =>
      obtain ⟨hwidth, hbuilt⟩ := bigEndian_of_length hwide
      obtain ⟨hheight, hbuilt'⟩ := bigEndian_of_length hhigh
      refine ⟨hwidth, hheight, count, rest, hcount, ?_⟩
      rw [pngHeader_append, hbuilt, hbuilt']
  · rintro ⟨hwidth, hheight, count, rest, hcount, rfl⟩
    have h : PngHeader (pngHeader count width height ++ rest) (bigEndianValue (bigEndian width))
        (bigEndianValue (bigEndian height)) := by
      rw [pngHeader_append]
      exact .intro hcount rfl rfl
    rwa [bigEndianValue_bigEndian hwidth, bigEndianValue_bigEndian hheight] at h

theorem isSome_pngSize?_iff {octets : List UInt8} : (pngSize? octets).isSome ↔
    24 ≤ octets.length ∧ pngSignature <+: octets ∧
      slice octets 12 16 = .ok [0x49, 0x48, 0x44, 0x52] := by
  rw [pngSize?, Option.isSome_ite, format?_eq_png_iff, slice_eq_ok_iff]
  constructor
  · rintro ⟨hs, hlen, hname⟩
    exact ⟨hlen, hs, by decide, by omega, hname⟩
  · rintro ⟨hlen, hs, -, -, hname⟩
    exact ⟨hs, hlen, hname⟩

theorem pngSize?_take (octets : List UInt8) {n : Nat} (hn : 24 ≤ n) :
    pngSize? (octets.take n) = pngSize? octets := by
  have hcut (skip : Nat) (hs : skip + 4 ≤ 24) :
      ((octets.take n).drop skip).take 4 = (octets.drop skip).take 4 := by
    rw [List.drop_take, List.take_take, Nat.min_eq_left (by omega)]
  have hlen : 24 ≤ (octets.take n).length ↔ 24 ≤ octets.length := by
    rw [List.length_take]
    omega
  simp only [pngSize?, format?_take octets (by omega : 12 ≤ n), hlen, hcut 12 (by decide),
    hcut 16 (by decide), hcut 20 (by decide)]

/-- What the inspection of an image comes to. -/
structure Inspected (octets : List UInt8) : Prop where
  inRange : inspect octets = .ok (pngSize? octets)
  sized : (pngSize? octets).isSome ↔ 24 ≤ octets.length ∧ pngSignature <+: octets ∧
    slice octets 12 16 = .ok [0x49, 0x48, 0x44, 0x52]
  /-- The size is the one that the header was built from. -/
  size : ∀ width height, pngSize? octets = some (width, height) ↔ width < Nat.pow 2 32 ∧
    height < Nat.pow 2 32 ∧
    ∃ count rest, count.length = 4 ∧ octets = pngHeader count width height ++ rest
  sizeFirst : ∀ other : List UInt8, other.take 24 = octets.take 24 →
    inspect other = inspect octets
  formatFirst : ∀ other : List UInt8, other.take 12 = octets.take 12 →
    format? other = format? octets
  extended : ∀ f rest, format? octets = some f → format? (octets ++ rest) = some f

/-- Every sequence of octets can be inspected, however short it is. -/
theorem images_inspected_in_range (octets : List UInt8) : Inspected octets where
  inRange := inspect_eq octets
  sized := isSome_pngSize?_iff
  size _ _ := pngSize?_eq_some_iff_header
  sizeFirst other h := by
    rw [inspect_eq, inspect_eq, ← pngSize?_take other (Nat.le_refl 24), h,
      pngSize?_take octets (Nat.le_refl 24)]
  formatFirst other h := by
    rw [← format?_take other (Nat.le_refl 12), h, format?_take octets (Nat.le_refl 12)]
  extended _ rest h := format?_append h rest

/-- A header of the largest size gives it back; without its last octet it tells none. -/
theorem images_inspected_in_range_largest :
    let header := pngHeader [0, 0, 0, 13] 4294967295 480
    inspect (header ++ [8, 6]) = .ok (some (4294967295, 480)) ∧
      inspect (header.take 23) = .ok none ∧ format? (header.take 23) = some .png := by
  intro header
  have h := images_inspected_in_range (header ++ [8, 6])
  have hcut := images_inspected_in_range (header.take 23)
  have hsize := (h.size 4294967295 480).mpr
    ⟨by decide, by decide, [0, 0, 0, 13], [8, 6], rfl, rfl⟩
  have hnone : pngSize? (header.take 23) = none :=
    Option.not_isSome_iff_eq_none.mp fun hs => absurd (hcut.sized.mp hs).1 (by decide)
  refine ⟨h.inRange.trans (congrArg Except.ok hsize),
    hcut.inRange.trans (congrArg Except.ok hnone), ?_⟩
  exact (images_inspected_in_range (header.take 12)).extended .png _ (by decide)

end ToolPipeline.Image
