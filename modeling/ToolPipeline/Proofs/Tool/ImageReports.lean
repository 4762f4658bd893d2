import ToolPipeline.Proofs.Codec.Base64Texts
import ToolPipeline.Proofs.Codec.PngHeader
import ToolPipeline.Proofs.Tool.FrameInspection

/-! What is reported of an image, in two payloads that have the image in common. The length and the
type are those of the image alone; a size that the image does not tell is left as it was. -/

namespace ToolPipeline.FrameTools

open Json

def sizeKeys : List String := ["width", "height"]

def Sized (octets : List UInt8) : Prop := ∃ width height, Image.PngHeader octets width height

/-- What a payload reports of its image, once that has been decoded. -/
structure Reports (payload : Payload) (image : DecodedImage) (output : Payload) : Prop where
  byteLen : output.get? "byte_len" = some (.int image.octets.length)
  mime : output.get? "mime" = some image.mime
  size : ∀ width height, Image.PngHeader image.octets width height →
    output.get? "width" = some (.int width) ∧ output.get? "height" = some (.int height)
  unsized : ¬ Sized image.octets → ∀ key ∈ sizeKeys, output.get? key = payload.get? key

section
variable {payload other output output' : Payload} {image image' : DecodedImage}
  {occasion : Occasion}

theorem call_decode_eq_ok_iff :
    plugin.call "decode" occasion payload = .ok output ↔ decode payload = .ok output := by
  rw [call_decode]
  constructor
  · intro h
    cases hd : decode payload with
    | error e =>
      rw [hd] at h
      cases congrArg Call.ending h
    | ok r =>
      rw [hd] at h
      have he : r.toValue = output.toValue := Ending.returned.inj (congrArg Call.ending h)
      rw [Value.object_inj.mp he]
  · intro h
    rw [h]
    rfl

theorem reports_of_decode (hd : decode payload = .ok output) (hi : imageOf payload = .ok image) :
    Reports payload image output := by
  have hg := get?_of_decode hd hi
  refine ⟨by simp [hg], by simp [hg], fun width height hsize => ?_, fun hn key hk => ?_⟩
  · rw [← Image.pngSize?_eq_some_iff] at hsize
    simp [hg, hsize]
  · have hnone : Image.pngSize? image.octets = none :=
      Option.eq_none_iff_forall_ne_some.mpr fun size he =>
        hn ⟨size.1, size.2, Image.pngSize?_eq_some_iff.mp he⟩
    simp only [sizeKeys, List.mem_cons, List.not_mem_nil, or_false] at hk
    rcases hk with rfl | rfl <;> simp [hg, hnone]

theorem exists_decode (hi : imageOf payload = .ok image) (occasion : Occasion) :
    ∃ output, plugin.call "decode" occasion payload = .ok output ∧
      Reports payload image output := by
  obtain ⟨output, hd⟩ : ∃ output, decode payload = .ok output :=
    ⟨_, map_eq_ok_iff.mpr ⟨image, hi, rfl⟩⟩
  exact ⟨output, call_decode_eq_ok_iff.mpr hd, reports_of_decode hd hi⟩

theorem exists_size {octets : List UInt8} {key : String} (hs : Sized octets) (hk : key ∈ sizeKeys) :
    ∃ n : Nat, ∀ payload image output, Reports payload image output → image.octets = octets →
      output.get? key = some (.int n) := by
  obtain ⟨width, height, hsize⟩ := hs
  simp only [sizeKeys, List.mem_cons, List.not_mem_nil, or_false] at hk
  rcases hk with rfl | rfl
  · exact ⟨width, fun _ _ _ h ho => (h.size width height (ho ▸ hsize)).1⟩
  · exact ⟨height, fun _ _ _ h ho => (h.size width height (ho ▸ hsize)).2⟩

theorem Reports.isSome_size_iff (h : Reports payload image output) {key : String}
    (hk : key ∈ sizeKeys) :
    (output.get? key).isSome ↔ Sized image.octets ∨ (payload.get? key).isSome := by
  by_cases hs : Sized image.octets
  · obtain ⟨n, hn⟩ := exists_size hs hk
    rw [hn payload image output h rfl]
    exact iff_of_true rfl (.inl hs)
  · rw [h.unsized hs key hk, or_iff_right hs]

theorem Reports.size_eq_iff (h : Reports payload image output) (h' : Reports other image' output')
    (ho : image'.octets = image.octets) {key : String} (hk : key ∈ sizeKeys) :
    output.get? key = output'.get? key ↔
      Sized image.octets ∨ payload.get? key = other.get? key := by
  by_cases hs : Sized image.octets
  · obtain ⟨n, hn⟩ := exists_size hs hk
    rw [hn payload image output h rfl, hn other image' output' h' ho]
    exact iff_of_true rfl (.inl hs)
  · rw [h.unsized hs key hk, h'.unsized (ho ▸ hs) key hk, or_iff_right hs]

end

/-- Of two payloads with the same image the same length and type are reported, and the same size if
the image tells it. Another image reports no size of its own: what stood in either payload in its
place still stands there. -/
theorem reports_tell_image {payload other output output' : Payload} {occasion occasion' : Occasion}
    (himage : payload.get? "image_data" = other.get? "image_data")
    (hd : plugin.call "decode" occasion payload = .ok output)
    (hd' : plugin.call "decode" occasion' other = .ok output') :
    ∃ image, imageOf payload = .ok image ∧ imageOf other = .ok image ∧
      Reports payload image output ∧ Reports other image output' ∧
      output.get? "byte_len" = output'.get? "byte_len" ∧
      output.get? "mime" = output'.get? "mime" ∧
      ∀ key ∈ sizeKeys,
        ((output.get? key).isSome ↔ Sized image.octets ∨ (payload.get? key).isSome) ∧
        (output.get? key = output'.get? key ↔
          Sized image.octets ∨ payload.get? key = other.get? key) := by
  rw [call_decode_eq_ok_iff] at hd hd'
  obtain ⟨image, hi, -⟩ := map_eq_ok_iff.mp hd
  have hi' : imageOf other = .ok image := (imageOf_congr himage).symm.trans hi
  have h := reports_of_decode hd hi
  have h' := reports_of_decode hd' hi'
  exact ⟨image, hi, hi', h, h', h.byteLen.trans h'.byteLen.symm, h.mime.trans h'.mime.symm,
    fun key hk => ⟨h.isSome_size_iff hk, h.size_eq_iff h' rfl hk⟩⟩

def jpegPayload : Payload := Object.empty.insert "image_data" (.string "/9j/4A==")

def measuredPayload : Payload := (jpegPayload.insert "width" (.int 640)).insert "height" (.int 480)

theorem image_measuredPayload :
    measuredPayload.get? "image_data" = jpegPayload.get? "image_data" := by
  simp [measuredPayload, Object.get?_insert]

theorem imageOf_jpegPayload : imageOf jpegPayload = .ok ⟨[0xFF, 0xD8, 0xFF, 0xE0], none⟩ := by
  refine imageOf_of_shows ⟨⟨"/9j/4A==", by simp [jpegPayload], ?_, by decide⟩, by simp⟩
  exact Base64.decode_octets_iff.mpr (by decide)

theorem reports_tell_image_jpeg :
    measuredPayload.get? "image_data" = jpegPayload.get? "image_data" ∧
      ∃ output output', plugin.call "decode" ⟨0, "", 0⟩ measuredPayload = .ok output ∧
        plugin.call "decode" ⟨0, "", 1⟩ jpegPayload = .ok output' ∧
        output.get? "byte_len" = output'.get? "byte_len" ∧
        output.get? "mime" = output'.get? "mime" := by
  obtain ⟨output, hd, -⟩ :=
    exists_decode ((imageOf_congr image_measuredPayload).trans imageOf_jpegPayload) ⟨0, "", 0⟩
  obtain ⟨output', hd', -⟩ := exists_decode imageOf_jpegPayload ⟨0, "", 1⟩
  obtain ⟨-, -, -, -, -, hlen, hmime, -⟩ := reports_tell_image image_measuredPayload hd hd'
  exact ⟨image_measuredPayload, output, output', hd, hd', hlen, hmime⟩

/-- The size that a payload already has is taken for that of a JPEG image. -/
theorem earlier_size_reported :
    measuredPayload.get? "image_data" = jpegPayload.get? "image_data" ∧
      ∃ image output output', imageOf jpegPayload = .ok image ∧ ¬ Sized image.octets ∧
        plugin.call "decode" ⟨0, "", 0⟩ measuredPayload = .ok output ∧
        plugin.call "decode" ⟨0, "", 0⟩ jpegPayload = .ok output' ∧
        output.get? "width" = some (.int 640) ∧ output.get? "height" = some (.int 480) ∧
        output'.get? "width" = none ∧ output'.get? "height" = none := by
  have hn : ¬ Sized [0xFF, 0xD8, 0xFF, 0xE0] := fun ⟨_, _, hs⟩ =>
    nomatch (Image.pngSize?_eq_some_iff.mpr hs : none = some _)
  obtain ⟨output, hd, h⟩ :=
    exists_decode ((imageOf_congr image_measuredPayload).trans imageOf_jpegPayload) ⟨0, "", 0⟩
  obtain ⟨output', hd', h'⟩ := exists_decode imageOf_jpegPayload ⟨0, "", 0⟩
  refine ⟨image_measuredPayload, _, output, output', imageOf_jpegPayload, hn, hd, hd', ?_⟩
  rw [h.unsized hn "width" (by decide), h.unsized hn "height" (by decide),
    h'.unsized hn "width" (by decide), h'.unsized hn "height" (by decide)]
  simp [measuredPayload, jpegPayload, Object.get?_insert]

end ToolPipeline.FrameTools
