import ToolPipeline.Proofs.Json.Members
import ToolPipeline.Proofs.NamedEntries
import ToolPipeline.Proofs.Success
import ToolPipeline.Proofs.Pipeline.Course
import ToolPipeline.Tool.Frame

/-! What tools for an image leave in a payload. They write different keys, and none of them touches
the image but the one that strips it. -/

namespace ToolPipeline.FrameTools

open Json

def encoded (raw : String) : List UInt8 :=
  octetsOfText (String.ofList (Text.trimChars (splitDataUrl raw.toList).2))

structure Shows (payload : Payload) (image : DecodedImage) : Prop where
  decoded : ∃ raw, payload.get? "image_data" = some (.string raw) ∧
    Base64.decode (encoded raw) = .ok image.octets ∧
    image.declared = (splitDataUrl raw.toList).1.map String.ofList
  nonempty : image.octets ≠ []

inductive Unreadable (payload : Payload) : Prop where
  | missing : payload.get? "image_data" = none → Unreadable payload
  | notText {v : Value} : payload.get? "image_data" = some v → (∀ s, v ≠ .string s) →
    Unreadable payload
  | undecodable {raw : String} {flaw : Base64.Flaw} :
    payload.get? "image_data" = some (.string raw) →
    Base64.decode (encoded raw) = .error flaw → Unreadable payload
  | empty {raw : String} : payload.get? "image_data" = some (.string raw) →
    Base64.decode (encoded raw) = .ok [] → Unreadable payload

section
variable {payload input r : Payload} {image : DecodedImage} {tools : List String}

theorem imageOf_of_shows (h : Shows payload image) : imageOf payload = .ok image := by
  obtain ⟨⟨raw, hr, hd, hm⟩, hne⟩ := h
  obtain ⟨octets, declared⟩ := image
  simp only [encoded] at hd
  cases octets with
  | nil => exact absurd rfl hne
  | cons b rest => simp [imageOf, hr, decodeText, hd, ← hm]

theorem Shows.unique {other : DecodedImage} (h : Shows payload image) (h' : Shows payload other) :
    image = other := by
  have he := imageOf_of_shows h
  rwa [imageOf_of_shows h', Except.ok.injEq, eq_comm] at he

theorem imageOf_of_unreadable (h : Unreadable payload) :
    ∃ m, imageOf payload = .error (.invalidInput m) := by
  cases h with
  | missing hr =>
    simp only [imageOf, hr]
    exact ⟨_, rfl⟩
  | notText hr hv =>
    simp only [imageOf, hr, Value.asString?_eq_none_iff.mpr hv]
    exact ⟨_, rfl⟩
  | undecodable hr hd =>
    simp only [encoded] at hd
    simp only [imageOf, hr, Value.asString?_string, decodeText, hd]
    exact ⟨_, rfl⟩
  | empty hr hd =>
    simp only [encoded] at hd
    simp only [imageOf, hr, Value.asString?_string, decodeText, hd]
    exact ⟨_, rfl⟩

theorem shows_or_unreadable (payload : Payload) :
    (∃ image, Shows payload image) ∨ Unreadable payload := by
  cases hv : payload.get? "image_data" with
  | none => exact .inr (.missing hv)
  | some v =>
    by_cases hs : ∃ raw, v = .string raw
    · obtain ⟨raw, rfl⟩ := hs
      cases hd : Base64.decode (encoded raw) with
      | error flaw => exact .inr (.undecodable hv hd)
      | ok octets =>
        by_cases hne : octets = []
        · exact .inr (.empty hv (hne ▸ hd))
        · exact .inl ⟨⟨octets, (splitDataUrl raw.toList).1.map String.ofList⟩,
            ⟨raw, hv, hd, rfl⟩, hne⟩
    · exact .inr (.notText hv fun s he => hs ⟨s, he⟩)

theorem imageOf_congr (h : input.get? "image_data" = payload.get? "image_data") :
    imageOf input = imageOf payload := by
  simp only [imageOf, h]

def reportKeys : List String :=
  ["byte_len", "mime", "width", "height", "sha256", "processed_at", "image_data"]

/-- What tools have made of a payload with an image. -/
structure Inspection (payload : Payload) (tools : List String) (image : DecodedImage)
    (r : Payload) : Prop where
  byteLen : r.get? "byte_len" =
    if "decode" ∈ tools then some (.int image.octets.length) else payload.get? "byte_len"
  mime : r.get? "mime" = if "decode" ∈ tools then some image.mime else payload.get? "mime"
  width : r.get? "width" =
    if "decode" ∈ tools then
      ((Image.pngSize? image.octets).map fun s => Value.int s.1).or (payload.get? "width")
    else payload.get? "width"
  height : r.get? "height" =
    if "decode" ∈ tools then
      ((Image.pngSize? image.octets).map fun s => Value.int s.2).or (payload.get? "height")
    else payload.get? "height"
  sha256 : r.get? "sha256" =
    if "checksum" ∈ tools then some (.string (Sha256.hexDigest image.octets))
    else payload.get? "sha256"
  processedAt : if "timestamp" ∈ tools then ∃ t, r.get? "processed_at" = some (.string t)
    else r.get? "processed_at" = payload.get? "processed_at"
  imageData : r.get? "image_data" =
    if "strip_image" ∈ tools then none else payload.get? "image_data"
  others : ∀ key, key ∉ reportKeys → r.get? key = payload.get? key

theorem Inspection.start (payload : Payload) (image : DecodedImage) :
    Inspection payload [] image payload := by
  constructor <;> simp

theorem get?_of_decode (hd : decode input = .ok r) (hi : imageOf input = .ok image)
    (key : String) :
    r.get? key =
      if key = "byte_len" then some (.int image.octets.length)
      else if key = "mime" then some image.mime
      else if key = "width" then
        ((Image.pngSize? image.octets).map fun s => Value.int s.1).or (input.get? key)
      else if key = "height" then
        ((Image.pngSize? image.octets).map fun s => Value.int s.2).or (input.get? key)
      else input.get? key := by
  simp only [decode, hi, Except.map, Except.ok.injEq] at hd
  rw [← hd]
  by_cases h₁ : key = "byte_len"
  · cases Image.pngSize? image.octets <;> simp [Object.get?_insert, h₁]
  · by_cases h₂ : key = "mime"
    · cases Image.pngSize? image.octets <;> simp [Object.get?_insert, h₂]
    · by_cases h₃ : key = "width"
      · cases Image.pngSize? image.octets <;> simp [Object.get?_insert, h₃]
      · cases Image.pngSize? image.octets <;> simp [Object.get?_insert, h₁, h₂, h₃]

theorem Inspection.decode (h : Inspection payload tools image input)
    (hi : imageOf input = .ok image) :
    ∃ r, decode input = .ok r ∧ Inspection payload (tools ++ ["decode"]) image r := by
  obtain ⟨r, hd⟩ : ∃ r, FrameTools.decode input = .ok r :=
    ⟨_, map_eq_ok_iff.mpr ⟨image, hi, rfl⟩⟩
  have hg := get?_of_decode hd hi
  refine ⟨r, hd, ?_⟩
  constructor
  · simp [hg]
  · simp [hg]
  -- A second `decode` finds the size of the first one, or none again.
  · cases hs : Image.pngSize? image.octets <;> simp [hg, hs, h.width]
  · cases hs : Image.pngSize? image.octets <;> simp [hg, hs, h.height]
  · simp [hg, h.sha256]
  · simpa [hg] using h.processedAt
  · simp [hg, h.imageData]
  · intro key hn
    have hk := hn
    simp only [reportKeys, List.mem_cons, not_or] at hk
    simp [hg, hk, h.others key hn]

theorem Inspection.checksum (h : Inspection payload tools image input)
    (hi : imageOf input = .ok image) :
    ∃ r, checksum input = .ok r ∧ Inspection payload (tools ++ ["checksum"]) image r := by
  simp only [FrameTools.checksum, hi, Except.map, Except.ok.injEq, exists_eq_left']
  constructor
  · simp [Object.get?_insert, h.byteLen]
  · simp [Object.get?_insert, h.mime]
  · simp [Object.get?_insert, h.width]
  · simp [Object.get?_insert, h.height]
  · simp
  · simpa [Object.get?_insert] using h.processedAt
  · simp [Object.get?_insert, h.imageData]
  · intro key hn
    have hk : key ≠ "sha256" := by rintro rfl; simp [reportKeys] at hn
    simp [Object.get?_insert, hk, h.others key hn]

theorem Inspection.timestamp (h : Inspection payload tools image input) (occasion : Occasion) :
    Inspection payload (tools ++ ["timestamp"]) image (timestamp occasion input) := by
  unfold FrameTools.timestamp
  constructor
  · simp [Object.get?_insert, h.byteLen]
  · simp [Object.get?_insert, h.mime]
  · simp [Object.get?_insert, h.width]
  · simp [Object.get?_insert, h.height]
  · simp [Object.get?_insert, h.sha256]
  · simp [Value.string_inj]
  · simp [Object.get?_insert, h.imageData]
  · intro key hn
    have hk : key ≠ "processed_at" := by rintro rfl; simp [reportKeys] at hn
    simp [Object.get?_insert, hk, h.others key hn]

theorem Inspection.stripImage (h : Inspection payload tools image input) :
    Inspection payload (tools ++ ["strip_image"]) image (stripImage input) := by
  unfold FrameTools.stripImage
  constructor
  · simp [Object.get?_erase, h.byteLen]
  · simp [Object.get?_erase, h.mime]
  · simp [Object.get?_erase, h.width]
  · simp [Object.get?_erase, h.height]
  · simp [Object.get?_erase, h.sha256]
  · simpa [Object.get?_erase] using h.processedAt
  · simp [Object.get?_erase]
  · intro key hn
    have hk : key ≠ "image_data" := by rintro rfl; simp [reportKeys] at hn
    simp [Object.get?_erase, hk, h.others key hn]

/-- A tool that needs the image is called without one: it has been stripped, or there was none. -/
def Refuses (payload : Payload) (before : List String) (tool : String) : Prop :=
  (tool = "decode" ∨ tool = "checksum") ∧ ("strip_image" ∈ before ∨ Unreadable payload)

theorem call_decode (occasion : Occasion) (input : Payload) :
    plugin.call "decode" occasion input = .ofExcept (decode input) := rfl

theorem call_checksum (occasion : Occasion) (input : Payload) :
    plugin.call "checksum" occasion input = .ofExcept (checksum input) := rfl

end

end ToolPipeline.FrameTools
