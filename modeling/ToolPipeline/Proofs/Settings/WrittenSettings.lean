import ToolPipeline.Proofs.Json.IndentedTexts
import ToolPipeline.Proofs.Settings.Layering
import ToolPipeline.Proofs.Settings.LiteralTexts
import ToolPipeline.Proofs.Text.CutOctets

/-! Settings in their own file. They are loaded from it as they were written, unless one of them is
too low; then the first check that finds one says which it is. -/

namespace ToolPipeline

open Json

namespace Environment

/-- No variable has the name of a setting. -/
def Silent (environment : List (String × String)) : Prop :=
  ∀ entry ∈ environment, keysOf? entry.1 = none

variable {environment : List (String × String)}

theorem silent_of_prefix_ne (h : ∀ entry ∈ environment,
    ((Text.trimChars entry.1.toList).take 6).map Char.toLower ≠ "vista_".toList) :
    Silent environment :=
  fun entry he => if_neg (h entry he)

theorem Silent.namesLeaves (h : Silent environment) : NamesLeaves environment :=
  fun entry he => .inl (h entry he)

theorem Silent.value?_eq_none (h : Silent environment) (l : Leaf) :
    value? environment l = none := by
  refine List.findSome?_eq_none_iff.mpr fun entry he => ?_
  rw [set?, h entry (List.mem_reverse.mp he)]
  exact if_neg nofun

end Environment

namespace Settings

variable {s : Settings} {file : SourceFile} {environment : List (String × String)}

def sections (s : Settings) : List (String × Json) :=
  [("server", serverJson s.server), ("pipeline", pipelineJson s.pipeline),
    ("logging", loggingJson s.logging), ("plugins", pluginsJson s.plugins)]

def held (s : Settings) : Object := .ofList (holdMembers s.sections)

theorem nodup_sections (s : Settings) : (keys s.sections).Nodup :=
  show ["server", "pipeline", "logging", "plugins"].Nodup by decide

theorem sections_leaf (s : Settings) (l : Leaf) : ∃ inner,
    s.sections.lookup l.sect = some (.object inner) ∧ keys inner = l.siblings.map Leaf.key ∧
      (inner.lookup l.key).map hold = some (l.of s) := by
  cases l <;> exact ⟨_, rfl, rfl, rfl⟩

theorem held_leaf (s : Settings) (l : Leaf) : ∃ p, s.held.get? l.sect = some (.object p) ∧
    p.get? l.key = some (l.of s) := by
  obtain ⟨inner, hinner, hkeys, hl⟩ := s.sections_leaf l
  have hn : (keys inner).Nodup := by
    rw [hkeys]
    cases l <;> decide
  refine ⟨.ofList (holdMembers inner), ?_, (get?_hold hn l.key).trans hl⟩
  rw [held, get?_hold s.nodup_sections, hinner]
  rfl

theorem held_leaf? (s : Settings) (l : Leaf) : s.held.leaf? l = some (l.of s) := by
  obtain ⟨p, hp, hl⟩ := s.held_leaf l
  rw [Object.leaf?, hp, Option.bind_some, Value.asObject?_object, Option.bind_some, hl]

theorem held_hasSections (s : Settings) : s.held.HasSections := by
  intro l v hv
  obtain ⟨p, hp, -⟩ := s.held_leaf l
  exact ⟨p, Option.some.inj (hv.symm.trans hp)⟩

theorem numbers_toJson (s : Settings) : ∀ n ∈ s.toJson.numbers, n.IsWhole := by
  have hword (n : UInt64) : Number.IsWhole (.int n.toNat) :=
    ⟨_, rfl, by omega, Int.ofNat_lt.mpr n.toNat_lt⟩
  have hport (n : UInt16) : Number.IsWhole (.int n.toNat) :=
    ⟨_, rfl, by omega, Int.ofNat_lt.mpr (Nat.lt_trans n.toNat_lt (by decide))⟩
  simp [toJson, serverJson, pipelineJson, loggingJson, pluginsJson, natJson, numbers, memberNumbers,
    hword, hport]

theorem keyed_sections (s : Settings) : ∀ m ∈ s.sections, Keyed SettingsFile.PlainKey m.2 := by
  have hplain (l : Leaf) : SettingsFile.PlainKey l.key := by cases l <;> decide
  have hsection (l : Leaf) {inner : List (String × Json)}
      (hkeys : keys inner = l.siblings.map Leaf.key) (h : ∀ m ∈ inner, m.2.nesting = 0) :
      Keyed SettingsFile.PlainKey (.object inner) := by
    have hall : ∀ key ∈ keys inner, SettingsFile.PlainKey key :=
      hkeys ▸ List.forall_mem_map.mpr fun m _ => hplain m
    exact .object (List.forall_mem_map.mp hall) fun m hm => keyed_of_nesting (h m hm)
  simp only [sections, List.forall_mem_cons]
  exact ⟨hsection .host rfl (by simp [natJson, nesting]),
    hsection .restTimeoutMs rfl (by simp [natJson, nesting]),
    hsection .level rfl (by simp [nesting]), hsection .enableDebug rfl (by simp [nesting]), nofun⟩

/-- The file has the text of the settings, with any blanks between the parts of it. -/
def WrittenTo (s : Settings) (file : SourceFile) : Prop :=
  ∃ core text, Spells s.toJson core ∧ Padded core text ∧
    file.octets = octetsOfText (String.ofList text)

theorem writtenTo_compact (s : Settings) (path : String) :
    s.WrittenTo ⟨path, octetsOfText s.toJson.compact⟩ :=
  ⟨_, _, spells_chars _, .refl _, rfl⟩

theorem writtenTo_pretty (s : Settings) (path : String) :
    s.WrittenTo ⟨path, octetsOfText s.toJson.pretty⟩ :=
  ⟨_, _, spells_prettyChars _ 0, .refl _, rfl⟩

theorem WrittenTo.contents (h : s.WrittenTo file) :
    SettingsFile.Contents (some file) s.held := by
  obtain ⟨core, text, hcore, htext, hoctets⟩ := h
  have hfits : s.toJson.nesting ≤ depthLimit := show 2 ≤ 127 by decide
  have hparse : Json.parse (String.ofList text) = .ok (.object s.held) := by
    have hwhole := ((spelled_recovered s.numbers_toJson hcore).readWhole htext depthLimit).1 hfits
    rw [Json.parse, Piece.ofString, String.toList_ofList]
    exact hwhole
  refine .present ?_ hparse s.held_hasSections
    (SettingsFile.literal_of_spells s.keyed_sections s.numbers_toJson hfits hcore htext)
  rw [hoctets, textOfOctets?_octetsOfText]

theorem load_of_writtenTo (h : s.WrittenTo file) (he : Environment.Silent environment) :
    load (some file) environment = s.rangeError?.elim (.ok s) fun e => .error (.range e) := by
  have hchosen (l : Leaf) : chosen s.held environment l = l.of s := by
    rw [chosen, he.value?_eq_none, s.held_leaf?]
    rfl
  obtain ⟨t, ht, hload⟩ := load_of_fits h.contents he.namesLeaves fun l =>
    (hchosen l).symm ▸ l.fits_of s
  have hsame : t = s := Leaf.ext_of fun l => (ht l).trans (hchosen l)
  subst hsame
  rcases hload with ⟨hr, hload⟩ | ⟨e, hr, hload⟩
  · rw [hr, hload]
    rfl
  · rw [hr, hload]
    rfl

/-- The first value that is too low, in the order of the checks, and what it is refused with. -/
inductive FirstLow (s : Settings) : Leaf → RangeError → Prop
  | frames (low : s.server.maxFramesInFlight.toNat < 1) :
    FirstLow s .maxFramesInFlight .noFrames
  | messages (frames : 1 ≤ s.server.maxFramesInFlight.toNat)
    (low : s.server.maxMessageSize.toNat < 1024) : FirstLow s .maxMessageSize .smallMessages
  | heartbeat (frames : 1 ≤ s.server.maxFramesInFlight.toNat)
    (messages : 1024 ≤ s.server.maxMessageSize.toNat)
    (low : s.server.heartbeatIntervalSecs.toNat < 1) :
    FirstLow s .heartbeatIntervalSecs .noHeartbeat

theorem FirstLow.rangeError? {l : Leaf} {e : RangeError} (h : s.FirstLow l e) :
    s.rangeError? = some e := by
  rw [rangeError?_eq]
  cases h with
  | frames low => rw [if_pos low]
  | messages frames low => rw [if_neg (Nat.not_lt.mpr frames), if_pos low]
  | heartbeat frames messages low =>
    rw [if_neg (Nat.not_lt.mpr frames), if_neg (Nat.not_lt.mpr messages), if_pos low]

theorem exists_firstLow (h : ¬ s.InRange) : ∃ l e, s.FirstLow l e := by
  by_cases hframes : 1 ≤ s.server.maxFramesInFlight.toNat
  · by_cases hmessages : 1024 ≤ s.server.maxMessageSize.toNat
    · have hheartbeat : s.server.heartbeatIntervalSecs.toNat < 1 :=
        Nat.lt_of_not_le fun hh => h ⟨hframes, hmessages, hh⟩
      exact ⟨_, _, .heartbeat hframes hmessages hheartbeat⟩
    · exact ⟨_, _, .messages hframes (Nat.lt_of_not_le hmessages)⟩
  · exact ⟨_, _, .frames (Nat.lt_of_not_le hframes)⟩

theorem FirstLow.named {l : Leaf} {e : RangeError} (h : s.FirstLow l e) :
    ∃ least, (SettingsError.range e).message = "invalid settings value: " ++ l.sect ++ "." ++ l.key
      ++ " must be at least " ++ least := by
  cases h with
  | frames => exact ⟨"1", by decide⟩
  | messages => exact ⟨"1024 bytes", by decide⟩
  | heartbeat => exact ⟨"1", by decide⟩

/-- Settings come back from their own file, whatever the layout and the path of it. -/
structure Reloads (s : Settings) : Prop where
  compact : ∀ path, s.WrittenTo ⟨path, octetsOfText s.toJson.compact⟩
  pretty : ∀ path, s.WrittenTo ⟨path, octetsOfText s.toJson.pretty⟩
  kept : ∀ file environment, s.WrittenTo file → Environment.Silent environment → s.InRange →
    load (some file) environment = .ok s
  refused : ∀ file environment, s.WrittenTo file → Environment.Silent environment → ¬ s.InRange →
    ∃ l e, s.FirstLow l e ∧ load (some file) environment = .error (.range e) ∧
      ∃ least, (SettingsError.range e).message = "invalid settings value: " ++ l.sect ++ "." ++
        l.key ++ " must be at least " ++ least
  /-- What was loaded once is loaded from its own file again. -/
  again : ∀ first before file environment, load first before = .ok s → s.WrittenTo file →
    Environment.Silent environment → load (some file) environment = .ok s

theorem load_of_inRange (h : s.WrittenTo file) (he : Environment.Silent environment)
    (hr : s.InRange) : load (some file) environment = .ok s := by
  rw [load_of_writtenTo h he, rangeError?_eq_none_iff.mpr hr]
  rfl

theorem load_of_firstLow {l : Leaf} {e : RangeError} (h : s.WrittenTo file)
    (he : Environment.Silent environment) (hl : s.FirstLow l e) :
    load (some file) environment = .error (.range e) := by
  rw [load_of_writtenTo h he, hl.rangeError?]
  rfl

end Settings

/-- Settings are loaded from their own file as they are, or refused for the first value that is
too low. -/
theorem settings_reload (s : Settings) : s.Reloads where
  compact := s.writtenTo_compact
  pretty := s.writtenTo_pretty
  kept _ _ := Settings.load_of_inRange
  refused _ _ h he hr := by
    obtain ⟨l, e, hl⟩ := Settings.exists_firstLow hr
    exact ⟨l, e, hl, Settings.load_of_firstLow h he hl, hl.named⟩
  again _ _ _ _ hload h he := Settings.load_of_inRange h he (Settings.inRange_of_load hload)

/-- The largest numbers with texts that are escaped or of several octets, and two values that are
too low. -/
theorem settings_reload_extremes :
    let server : ServerSettings :=
      ⟨"\u0000\"\\é𝄞", 65535, 18446744073709551615, 18446744073709551615, 18446744073709551615⟩
    let s : Settings := ⟨server, ⟨0, 18446744073709551615⟩, ⟨"", true⟩, ⟨true⟩⟩
    let low : Settings :=
      { s with server := { server with maxMessageSize := 10, maxFramesInFlight := 0 } }
    Settings.load (some ⟨"settings.json", octetsOfText s.toJson.pretty⟩) [("PATH", "/bin")] =
        .ok s ∧
      Settings.load (some ⟨"settings.json", octetsOfText low.toJson.compact⟩) [] =
        .error (.range .noFrames) := by
  intro server s low
  have hkept := settings_reload s
  have hrefused := settings_reload low
  have hsilent : Environment.Silent [("PATH", "/bin")] :=
    Environment.silent_of_prefix_ne (by decide +kernel)
  have hrange : s.InRange := ⟨by decide, by decide, by decide⟩
  have hframes : ¬ 1 ≤ low.server.maxFramesInFlight.toNat := by decide
  refine ⟨hkept.kept _ _ (hkept.pretty _) hsilent hrange, ?_⟩
  obtain ⟨l, e, hl, hload, -⟩ :=
    hrefused.refused _ [] (hrefused.compact "settings.json") nofun fun hr => hframes hr.frames
  cases hl with
  | frames => exact hload
  | messages frames => exact absurd frames hframes
  | heartbeat frames => exact absurd frames hframes

end ToolPipeline
