import ToolPipeline.Proofs.Tool.ImageReports

/-! The texts that an image is read from: base64 with blanks around it, as it is or behind the head
of a data URL. No text has two readings, and from all other texts no image is read. -/

namespace ToolPipeline.FrameTools

open Json Text

def urlHead : List Char := "data:".toList

def urlMark : List Char := ";base64,".toList

def Within (octets : List UInt8) (data : List Char) : Prop :=
  ∃ before after, Blanks before ∧ Blanks after ∧ data = before ++ (Base64.encode octets ++ after)

inductive Spelling where
  | plain
  | url (mime : List Char)

/-- The type that a spelling declares. A data URL may leave it out. -/
def Spelling.mime? : Spelling → Option (List Char)
  | .plain => none
  | .url mime => if mime = [] then none else some mime

/-- The texts of octets. The mark of a data URL ends the type at its first place. -/
inductive Spells (octets : List UInt8) : Spelling → List Char → Prop
  | plain {s : List Char} : Within octets s → Spells octets .plain s
  | url {s mime data : List Char} : s = urlHead ++ (mime ++ (urlMark ++ data)) →
    ¬ urlMark <:+: mime → Within octets data → Spells octets (.url mime) s

section
variable {octets octets' : List UInt8} {s data mime : List Char} {spelling spelling' : Spelling}
  {payload other : Payload} {image : DecodedImage}

theorem within_iff : Within octets data ↔ trimChars data = Base64.encode octets := by
  constructor
  · rintro ⟨before, after, hbefore, hafter, rfl⟩
    exact trimChars_of_blanks hbefore (fun c hc => (Base64.plain_of_mem_encode hc).2.1) hafter
  · intro h
    obtain ⟨before, after, hbefore, hafter, hdata⟩ := exists_trimChars data
    exact ⟨before, after, hbefore, hafter, h ▸ hdata⟩

theorem Within.unique (h : Within octets data) (h' : Within octets' data) : octets = octets' :=
  Base64.encode_inj.mp ((within_iff.mp h).symm.trans (within_iff.mp h'))

theorem Within.colon_not_mem (h : Within octets data) : ':' ∉ data := by
  obtain ⟨before, after, hbefore, hafter, rfl⟩ := h
  have hblank : isBlank ':' ≠ true := by decide
  simp only [List.mem_append, not_or]
  exact ⟨fun hc => hblank (hbefore _ hc), fun hc => (Base64.plain_of_mem_encode hc).2.2 rfl,
    fun hc => hblank (hafter _ hc)⟩

theorem decode_encoded_iff {raw : String} :
    Base64.decode (encoded raw) = .ok octets ↔ Within octets (splitDataUrl raw.toList).2 := by
  rw [encoded, Base64.decode_octets_iff, String.toList_ofList, within_iff]

theorem splitAt?_urlMark_iff :
    splitAt? urlMark s = some (mime, data) ↔ s = mime ++ (urlMark ++ data) ∧ ¬ urlMark <:+: mime :=
  splitAt?_eq_some_iff (by decide)

theorem splitDataUrl_url (hm : ¬ urlMark <:+: mime) :
    splitDataUrl (urlHead ++ (mime ++ (urlMark ++ data))) = ((Spelling.url mime).mime?, data) := by
  have hhead : stripHead? ['d', 'a', 't', 'a', ':'] (urlHead ++ (mime ++ (urlMark ++ data))) =
      some (mime ++ (urlMark ++ data)) := stripHead?_eq_some_iff.mpr rfl
  have hmark : splitAt? [';', 'b', 'a', 's', 'e', '6', '4', ','] (mime ++ (urlMark ++ data)) =
      some (mime, data) := splitAt?_urlMark_iff.mpr ⟨rfl, hm⟩
  simp only [splitDataUrl, hhead, hmark]
  cases mime <;> rfl

theorem splitDataUrl_cases (s : List Char) :
    (∃ mime data, s = urlHead ++ (mime ++ (urlMark ++ data)) ∧ ¬ urlMark <:+: mime) ∨
      splitDataUrl s = (none, s) := by
  unfold splitDataUrl
  split
  · exact .inr rfl
  · next rest hhead =>
    obtain rfl := stripHead?_eq_some_iff.mp hhead
    have hurl {mime data : List Char}
        (hs : splitAt? [';', 'b', 'a', 's', 'e', '6', '4', ','] rest = some (mime, data)) :
        ∃ mime data, urlHead ++ rest = urlHead ++ (mime ++ (urlMark ++ data)) ∧
          ¬ urlMark <:+: mime := by
      obtain ⟨rfl, hm⟩ := splitAt?_urlMark_iff.mp hs
      exact ⟨mime, data, rfl, hm⟩
    split
    · next hs => exact .inl (hurl hs)
    · next hs => exact .inl (hurl hs)
    · exact .inr rfl

theorem Within.not_url (h : Within octets s) : s ≠ urlHead ++ (mime ++ (urlMark ++ data)) := by
  rintro rfl
  exact h.colon_not_mem (List.mem_append_left _ (by decide))

theorem Spells.splitDataUrl_eq (h : Spells octets spelling s) :
    ∃ data, splitDataUrl s = (spelling.mime?, data) ∧ Within octets data := by
  cases h with
  | plain hw =>
    rcases splitDataUrl_cases s with ⟨mime, data, hs, -⟩ | hs
    · exact absurd hs hw.not_url
    · exact ⟨s, hs, hw⟩
  | url hs hm hw => exact ⟨_, hs ▸ splitDataUrl_url hm, hw⟩

theorem exists_spells (h : Within octets (splitDataUrl s).2) :
    ∃ spelling, Spells octets spelling s := by
  rcases splitDataUrl_cases s with ⟨mime, data, rfl, hm⟩ | hs
  · rw [splitDataUrl_url hm] at h
    exact ⟨.url mime, .url rfl hm h⟩
  · rw [hs] at h
    exact ⟨.plain, .plain h⟩

/-- No text has two readings. -/
theorem Spells.unique (h : Spells octets spelling s) (h' : Spells octets' spelling' s) :
    spelling = spelling' ∧ octets = octets' := by
  cases h with
  | plain hw =>
    cases h' with
    | plain hw' => exact ⟨rfl, hw.unique hw'⟩
    | url hs _ _ => exact absurd hs hw.not_url
  | url hs hm hw =>
    cases h' with
    | plain hw' => exact absurd hs hw'.not_url
    | url hs' hm' hw' =>
      have hrest := List.append_cancel_left (hs.symm.trans hs')
      have hparts := splitAt?_urlMark_iff.mpr ⟨hrest, hm'⟩
      rw [splitAt?_urlMark_iff.mpr ⟨rfl, hm⟩] at hparts
      obtain ⟨rfl, rfl⟩ := Prod.mk.inj (Option.some.inj hparts)
      exact ⟨rfl, hw.unique hw'⟩

theorem imageOf_eq_ok_iff : imageOf payload = .ok image ↔ Shows payload image := by
  refine ⟨fun hi => ?_, imageOf_of_shows⟩
  rcases shows_or_unreadable payload with ⟨image', h⟩ | h
  · rw [imageOf_of_shows h] at hi
    exact Except.ok.inj hi ▸ h
  · obtain ⟨m, hm⟩ := imageOf_of_unreadable h
    rw [hm] at hi
    cases hi

theorem shows_iff :
    Shows payload image ↔ ∃ raw spelling, payload.get? "image_data" = some (.string raw) ∧
      Spells image.octets spelling raw.toList ∧ image.octets ≠ [] ∧
        image.declared = spelling.mime?.map String.ofList := by
  constructor
  · rintro ⟨⟨raw, hr, hd, hm⟩, hne⟩
    obtain ⟨spelling, h⟩ := exists_spells (decode_encoded_iff.mp hd)
    obtain ⟨data, hs, -⟩ := h.splitDataUrl_eq
    exact ⟨raw, spelling, hr, h, hne, by rw [hm, hs]⟩
  · rintro ⟨raw, spelling, hr, h, hne, hm⟩
    obtain ⟨data, hs, hw⟩ := h.splitDataUrl_eq
    exact ⟨⟨raw, hr, decode_encoded_iff.mpr (by rwa [hs]), by rw [hm, hs]⟩, hne⟩

theorem imageOf_eq_ok_iff_spells :
    imageOf payload = .ok image ↔ ∃ raw spelling, payload.get? "image_data" = some (.string raw) ∧
      Spells image.octets spelling raw.toList ∧ image.octets ≠ [] ∧
        image.declared = spelling.mime?.map String.ofList :=
  imageOf_eq_ok_iff.trans shows_iff

theorem refused_alike (hi : ∀ image, imageOf payload ≠ .ok image) :
    ∃ m, ∀ occasion, plugin.call "decode" occasion payload = .plain (.failed (.invalidInput m)) ∧
      plugin.call "checksum" occasion payload = .plain (.failed (.invalidInput m)) := by
  obtain ⟨m, hm⟩ := imageOf_of_unreadable
    ((shows_or_unreadable payload).resolve_left fun ⟨image, h⟩ => hi image (imageOf_of_shows h))
  refine ⟨m, fun occasion => ⟨?_, ?_⟩⟩
  · rw [call_decode, decode, hm]
    rfl
  · rw [call_checksum, checksum, hm]
    rfl

theorem exists_checksum (hi : imageOf payload = .ok image) (occasion : Occasion) :
    ∃ output, plugin.call "checksum" occasion payload = .ok output ∧
      output.get? "sha256" = some (.string (Sha256.hexDigest image.octets)) := by
  refine ⟨_, by rw [call_checksum, checksum, hi]; rfl, by simp⟩

/-- What two payloads are told of their images has nothing in it of how the octets are spelled. -/
theorem spellings_report_alike (hi : imageOf payload = .ok image) (hi' : imageOf other = .ok image')
    (ho : image'.octets = image.octets) (occasion occasion' : Occasion) :
    (∃ output output', plugin.call "decode" occasion payload = .ok output ∧
      plugin.call "decode" occasion' other = .ok output' ∧
      output.get? "byte_len" = output'.get? "byte_len" ∧
      ∀ key ∈ sizeKeys, output.get? key = output'.get? key ↔
        Sized image.octets ∨ payload.get? key = other.get? key) ∧
    ∃ output output', plugin.call "checksum" occasion payload = .ok output ∧
      plugin.call "checksum" occasion' other = .ok output' ∧
      output.get? "sha256" = output'.get? "sha256" := by
  constructor
  · obtain ⟨output, hd, h⟩ := exists_decode hi occasion
    obtain ⟨output', hd', h'⟩ := exists_decode hi' occasion'
    exact ⟨output, output', hd, hd', by rw [h.byteLen, h'.byteLen, ho],
      fun key hk => h.size_eq_iff h' ho hk⟩
  · obtain ⟨output, hc, hs⟩ := exists_checksum hi occasion
    obtain ⟨output', hc', hs'⟩ := exists_checksum hi' occasion'
    exact ⟨output, output', hc, hc', by rw [hs, hs', ho]⟩

end

/-- An image is read from a base64 text of its octets and from a data URL of them, and from nothing
else. The spelling tells the declared type, and the octets everything else; without an image, both
tools that need one refuse the payload in the same words. -/
theorem images_read_exactly (payload : Payload) :
    (∀ image, imageOf payload = .ok image ↔
      ∃ raw spelling, payload.get? "image_data" = some (.string raw) ∧
        Spells image.octets spelling raw.toList ∧ image.octets ≠ [] ∧
          image.declared = spelling.mime?.map String.ofList) ∧
    (∀ s spelling spelling' octets octets', Spells octets spelling s →
      Spells octets' spelling' s → spelling = spelling' ∧ octets = octets') ∧
    (∀ other image image' occasion occasion', imageOf payload = .ok image →
      imageOf other = .ok image' → image'.octets = image.octets →
      (∃ output output', plugin.call "decode" occasion payload = .ok output ∧
        plugin.call "decode" occasion' other = .ok output' ∧
        output.get? "byte_len" = output'.get? "byte_len" ∧
        ∀ key ∈ sizeKeys, output.get? key = output'.get? key ↔
          Sized image.octets ∨ payload.get? key = other.get? key) ∧
      ∃ output output', plugin.call "checksum" occasion payload = .ok output ∧
        plugin.call "checksum" occasion' other = .ok output' ∧
        output.get? "sha256" = output'.get? "sha256") ∧
    ((∀ image, imageOf payload ≠ .ok image) →
      ∃ m, ∀ occasion,
        plugin.call "decode" occasion payload = .plain (.failed (.invalidInput m)) ∧
        plugin.call "checksum" occasion payload = .plain (.failed (.invalidInput m))) :=
  ⟨fun _ => imageOf_eq_ok_iff_spells, fun _ _ _ _ _ => Spells.unique,
    fun _ _ _ occasion occasion' hi hi' ho => spellings_report_alike hi hi' ho occasion occasion',
    refused_alike⟩

def plainPayload : Payload := Object.empty.insert "image_data" (.string "aGk=")

def urlPayload : Payload :=
  Object.empty.insert "image_data" (.string "data:image/png;base64, aGk=")

theorem spells_urlPayload :
    Spells [104, 105] (.url "image/png".toList) "data:image/png;base64, aGk=".toList :=
  .url rfl (by decide) ⟨[' '], [], List.forall_mem_singleton.mpr (by decide), nofun, by decide⟩

theorem images_read_exactly_url :
    imageOf plainPayload = .ok ⟨[104, 105], none⟩ ∧
      imageOf urlPayload = .ok ⟨[104, 105], some "image/png"⟩ ∧
      (∃ output output', plugin.call "decode" ⟨0, "", 0⟩ plainPayload = .ok output ∧
        plugin.call "decode" ⟨0, "", 1⟩ urlPayload = .ok output' ∧
        output.get? "byte_len" = output'.get? "byte_len" ∧
        output.get? "width" = output'.get? "width") ∧
      ∃ m, plugin.call "decode" ⟨0, "", 0⟩ .empty = .plain (.failed (.invalidInput m)) ∧
        plugin.call "checksum" ⟨0, "", 0⟩ .empty = .plain (.failed (.invalidInput m)) := by
  obtain ⟨hplain, -, halike, -⟩ := images_read_exactly plainPayload
  obtain ⟨hurl, -, -, -⟩ := images_read_exactly urlPayload
  obtain ⟨hnone, -, -, hrefused⟩ := images_read_exactly .empty
  have hp : imageOf plainPayload = .ok ⟨[104, 105], none⟩ :=
    (hplain _).mpr ⟨_, _, Object.get?_insert_self .., .plain ⟨[], [], nofun, nofun, by decide⟩,
      by decide, rfl⟩
  have hu : imageOf urlPayload = .ok ⟨[104, 105], some "image/png"⟩ :=
    (hurl _).mpr ⟨_, _, Object.get?_insert_self .., spells_urlPayload, by decide, rfl⟩
  obtain ⟨⟨output, output', hd, hd', hlen, hsize⟩, -⟩ :=
    halike urlPayload _ _ ⟨0, "", 0⟩ ⟨0, "", 1⟩ hp hu rfl
  have hwidth : output.get? "width" = output'.get? "width" :=
    (hsize "width" (by decide)).mpr (.inr (by simp [plainPayload, urlPayload, Object.get?_insert]))
  obtain ⟨m, hm⟩ := hrefused fun image hi => by
    obtain ⟨raw, spelling, hr, -⟩ := (hnone image).mp hi
    simp at hr
  exact ⟨hp, hu, ⟨output, output', hd, hd', hlen, hwidth⟩, m, hm ⟨0, "", 0⟩⟩

end ToolPipeline.FrameTools
