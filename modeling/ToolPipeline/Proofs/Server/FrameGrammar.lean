import ToolPipeline.Proofs.Json.HeldRecord
import ToolPipeline.Server.Connection

/-! The grammar of frames: which texts are read as a frame, what the frame then asks for, and which
refusal, under which id, meets every other text. -/

namespace ToolPipeline

open Json

namespace Json

variable {o : Object} {key : String}

theorem textField_eq_iff {t : String} : textField o key = t ↔
    o.get? key = some (.string t) ∨ t = "" ∧ ∀ u, o.get? key ≠ some (.string u) := by
  unfold textField
  cases hv : o.get? key with
  | none => simp [eq_comm]
  | some v =>
    cases ht : v.asString? with
    | none => simp [ht, Value.asString?_eq_none_iff.mp ht, eq_comm]
    | some u =>
      obtain rfl := Value.asString?_eq_some_iff.mp ht
      simp [Value.string_inj]

theorem textField_of_get? {t : String} (h : o.get? key = some (.string t)) :
    textField o key = t := textField_eq_iff.mpr (.inl h)

theorem textsField_of_get? {ts : List String} (h : o.get? key = some (.array (ts.map .string))) :
    textsField o key = ts := by
  simp [textsField, listField, h, Value.items?_array, List.filterMap_map, Function.comp_def]

theorem textsField_of_get?_none (h : o.get? key = none) : textsField o key = [] := by
  simp [textsField, listField, h]

end Json

namespace Frame

section
variable (members : Object)

structure Spells (f : Frame) : Prop where
  type : members.get? "type" = some (.string "frame")
  frameId : members.get? "frame_id" = some (.string f.frameId)
  frameId_ne : f.frameId ≠ ""
  pluginId : members.get? "plugin_id" = some (.string f.request.pluginId) ∨
    members.get? "plugin_id" = none ∧ f.request.pluginId = ""
  tools : members.get? "tools" = some (.array (f.request.tools.map .string))
  tools_ne : f.request.tools ≠ []
  payload : ∀ key, f.request.payload.get? key =
    if key ∈ ["type", "plugin_id", "tools"] then none else members.get? key

/-- The fields of a frame are strings, or lists of them, where they are given; only the id has to
be. -/
structure WellShaped : Prop where
  frameId : ∃ t, members.get? "frame_id" = some (.string t)
  pluginId : members.get? "plugin_id" = none ∨ ∃ t, members.get? "plugin_id" = some (.string t)
  tools : members.get? "tools" = none ∨
    ∃ ts : List String, members.get? "tools" = some (.array (ts.map .string))

/-- The id under which a refusal is sent: that of the object, if it is a string. -/
def Named (id : String) : Prop :=
  members.get? "frame_id" = some (.string id) ∨
    id = "" ∧ ∀ t, members.get? "frame_id" ≠ some (.string t)

/-- What is wrong with an object when all that is asked of it before holds. -/
def Faulty : Refusal → Prop
  | .invalidJson _ | .notObject => False
  | .missingType => ∀ t, members.get? "type" ≠ some (.string t)
  | .unknownType kind => members.get? "type" = some (.string kind) ∧ kind ≠ "frame"
  | .invalidShape m => members.get? "type" = some (.string "frame") ∧ ¬ WellShaped members ∧
      ∃ path, shape.check members.toValue = .error ⟨m, path⟩
  | .emptyFrameId => members.get? "type" = some (.string "frame") ∧ WellShaped members ∧
      members.get? "frame_id" = some (.string "")
  | .emptyTools => members.get? "type" = some (.string "frame") ∧ WellShaped members ∧
      members.get? "frame_id" ≠ some (.string "") ∧
      (members.get? "tools" = none ∨ members.get? "tools" = some (.array []))

end

inductive Refused (s : String) : String → Refusal → Prop where
  | invalidJson {f : Failure} : Json.parse s = .error f → Refused s "" (.invalidJson f)
  | notObject {v : Value} :
    Json.parse s = .ok v → (∀ members, v ≠ .object members) → Refused s "" .notObject
  | faulty {members : Object} {id : String} {why : Refusal} :
    Json.parse s = .ok (.object members) → Named members id → Faulty members why →
    Refused s id why

def checkers : List ValueField :=
  [⟨"frame_id", Shape.string.check, none⟩, ⟨"plugin_id", Shape.string.check, some (.string "")⟩,
    ⟨"tools", (Shape.list .string).check, some (.array [])⟩]

theorem plain_checkers : PlainFields checkers where
  distinct := by decide
  keeps field hf v w hw := by
    simp only [checkers, List.mem_cons, List.not_mem_nil, or_false] at hf
    rcases hf with rfl | rfl | rfl
    · exact Shape.Plain.string.eq_of_check hw
    · exact Shape.Plain.string.eq_of_check hw
    · exact (Shape.Plain.list .string).eq_of_check hw

section
variable {members : Object} {v : Value}

theorem wellShaped_iff : WellShaped members ↔ ∃ v, shape.check members.toValue = .ok v := by
  have hc : (∃ v, shape.check members.toValue = .ok v) ↔ _ := plain_checkers.checkMembers_ok_iff
  have hg {α : Type} (key : String) (f : α → Value) :
      (∃ v, members.get? key = some v ∧ ∃ a, v = f a) ↔ ∃ a, members.get? key = some (f a) := by
    constructor
    · rintro ⟨_, hv, a, rfl⟩
      exact ⟨a, hv⟩
    · rintro ⟨a, hv⟩
      exact ⟨_, hv, a, rfl⟩
  simp only [checkers, List.forall_mem_cons, List.not_mem_nil, false_implies, implies_true,
    and_true, Shape.check_string_eq_ok_iff, Shape.check_texts_eq_ok_iff, true_and, hg,
    Option.isSome_none, Option.isSome_some, Bool.false_eq_true, and_false, false_or] at hc
  rw [hc]
  constructor
  · rintro ⟨hf, hp, hs⟩
    exact ⟨hf, hp, hs⟩
  · rintro ⟨hf, hp, hs⟩
    exact ⟨hf, hp, hs⟩

theorem fields_of_check (h : shape.check members.toValue = .ok v) :
    ∃ fields, v = .object fields ∧
      textField fields "frame_id" = textField members "frame_id" ∧
      textField fields "plugin_id" = textField members "plugin_id" ∧
      textsField fields "tools" = textsField members "tools" := by
  obtain ⟨fields, rfl, hg⟩ := plain_checkers.get?_of_checkMembers h
  simp only [checkers, List.forall_mem_cons, List.not_mem_nil, false_implies, implies_true,
    and_true] at hg
  obtain ⟨hf, hp, hs⟩ := hg
  refine ⟨fields, rfl, ?_, ?_, ?_⟩
  · rw [textField, hf, Option.or_none, textField]
  · rw [textField, hp, textField]
    cases members.get? "plugin_id" <;> simp
  · rw [textsField, listField, hs, textsField, listField]
    cases members.get? "tools" <;> simp [Value.items?_array]

theorem get?_payload (members : Object) (key : String) :
    (((members.erase "type").erase "plugin_id").erase "tools").get? key =
      if key ∈ ["type", "plugin_id", "tools"] then none else members.get? key := by
  simp only [Object.get?_erase, List.mem_cons, List.not_mem_nil, or_false]
  by_cases h₁ : key = "type" <;> by_cases h₂ : key = "plugin_id" <;> by_cases h₃ : key = "tools" <;>
    simp [h₁, h₂, h₃]

theorem ofMembers_of_wellShaped (ht : members.get? "type" = some (.string "frame"))
    (hw : WellShaped members) :
    ofMembers members =
      if textField members "frame_id" = "" then .error ("", .emptyFrameId)
      else if textsField members "tools" = [] then
        .error (textField members "frame_id", .emptyTools)
      else
        .ok ⟨textField members "frame_id",
          ⟨textField members "plugin_id", textsField members "tools",
            ((members.erase "type").erase "plugin_id").erase "tools"⟩⟩ := by
  obtain ⟨v, hv⟩ := wellShaped_iff.mp hw
  obtain ⟨fields, rfl, hf, hp, hs⟩ := fields_of_check hv
  simp [ofMembers, ht, hv, hf, hp, hs]

theorem named_iff {id : String} : Named members id ↔ textField members "frame_id" = id :=
  textField_eq_iff.symm

theorem ofMembers_of_spells {f : Frame} (h : Spells members f) : ofMembers members = .ok f := by
  have hw : WellShaped members :=
    ⟨⟨_, h.frameId⟩, h.pluginId.symm.imp And.left fun hp => ⟨_, hp⟩, .inr ⟨_, h.tools⟩⟩
  have hp : textField members "plugin_id" = f.request.pluginId := by
    refine textField_eq_iff.mpr (h.pluginId.imp_right fun hp => ⟨hp.2, fun u => ?_⟩)
    simp [hp.1]
  have hl : ((members.erase "type").erase "plugin_id").erase "tools" = f.request.payload :=
    Object.ext_get? fun key => (get?_payload members key).trans (h.payload key).symm
  rw [ofMembers_of_wellShaped h.type hw, textField_of_get? h.frameId, textsField_of_get? h.tools,
    if_neg h.frameId_ne, if_neg h.tools_ne, hp, hl]

theorem ofMembers_of_faulty {id : String} {why : Refusal} (hn : Named members id)
    (h : Faulty members why) : ofMembers members = .error (id, why) := by
  rw [named_iff] at hn
  cases why with
  | invalidJson | notObject => exact h.elim
  | missingType =>
    have ht : (members.get? "type").bind Value.asString? = none := by
      cases hv : members.get? "type" with
      | none => rfl
      | some v => exact Value.asString?_eq_none_iff.mpr fun t he => h t (he ▸ hv)
    simp [ofMembers, ht, hn]
  | unknownType kind => simp [ofMembers, h.1, h.2, hn]
  | invalidShape m =>
    obtain ⟨ht, -, path, hc⟩ := h
    simp [ofMembers, ht, hc, hn]
  | emptyFrameId =>
    obtain ⟨ht, hw, hf⟩ := h
    have he : textField members "frame_id" = "" := textField_of_get? hf
    rw [ofMembers_of_wellShaped ht hw, if_pos he, ← hn, he]
  | emptyTools =>
    obtain ⟨ht, hw, hf, hs⟩ := h
    have hne : textField members "frame_id" ≠ "" := by
      obtain ⟨t, hv⟩ := hw.frameId
      rw [textField_of_get? hv]
      rintro rfl
      exact hf hv
    have he : textsField members "tools" = [] :=
      hs.elim textsField_of_get?_none (@textsField_of_get? _ _ [])
    rw [ofMembers_of_wellShaped ht hw, if_neg hne, if_pos he, hn]

theorem exists_spells {id : String} {tools : List String}
    (ht : members.get? "type" = some (.string "frame"))
    (hf : members.get? "frame_id" = some (.string id)) (hi : id ≠ "")
    (hp : members.get? "plugin_id" = none ∨ ∃ t, members.get? "plugin_id" = some (.string t))
    (hs : members.get? "tools" = some (.array (tools.map .string))) (hne : tools ≠ []) :
    ∃ f, Spells members f := by
  let payload := ((members.erase "type").erase "plugin_id").erase "tools"
  rcases hp with hp | ⟨t, hp⟩
  · exact ⟨⟨id, "", tools, payload⟩, ht, hf, hi, .inr ⟨hp, rfl⟩, hs, hne, get?_payload members⟩
  · exact ⟨⟨id, t, tools, payload⟩, ht, hf, hi, .inl hp, hs, hne, get?_payload members⟩

theorem spells_or_faulty (members : Object) :
    (∃ f, Spells members f) ∨ ∃ why, Faulty members why := by
  by_cases ht : ∃ kind, members.get? "type" = some (.string kind)
  · obtain ⟨kind, ht⟩ := ht
    by_cases hk : kind = "frame"
    · subst hk
      cases hc : shape.check members.toValue with
      | error m =>
        refine .inr ⟨.invalidShape m.mismatch, ht, fun hw => ?_, m.path, hc⟩
        obtain ⟨v, hv⟩ := wellShaped_iff.mp hw
        simp [hc] at hv
      | ok v =>
        have hw : WellShaped members := wellShaped_iff.mpr ⟨v, hc⟩
        obtain ⟨id, hf⟩ := hw.frameId
        by_cases hi : id = ""
        · subst hi
          exact .inr ⟨.emptyFrameId, ht, hw, hf⟩
        · have hf' : members.get? "frame_id" ≠ some (.string "") := by
            simpa [hf, Value.string_inj] using hi
          rcases hw.tools with hs | ⟨tools, hs⟩
          · exact .inr ⟨.emptyTools, ht, hw, hf', .inl hs⟩
          · by_cases hne : tools = []
            · subst hne
              exact .inr ⟨.emptyTools, ht, hw, hf', .inr hs⟩
            · exact .inl (exists_spells ht hf hi hw.pluginId hs hne)
    · exact .inr ⟨.unknownType kind, ht, hk⟩
  · exact .inr ⟨.missingType, fun t h => ht ⟨t, h⟩⟩

end

section
variable {s : String}

theorem parse_of_spells {members : Object} {f : Frame} (hs : Json.parse s = .ok (.object members))
    (hf : Spells members f) : parse s = .ok f := by
  simp [parse, hs, ofMembers_of_spells hf]

theorem parse_of_refused {id : String} {why : Refusal} (h : Refused s id why) :
    parse s = .error (id, why) := by
  cases h with
  | invalidJson hs => simp [parse, hs]
  | notObject hs hv => simp [parse, hs, Value.asObject?_eq_none_iff.mpr hv]
  | faulty hs hn hf => simp [parse, hs, ofMembers_of_faulty hn hf]

theorem spells_or_refused (s : String) :
    (∃ members f, Json.parse s = .ok (.object members) ∧ Spells members f) ∨
      ∃ id why, Refused s id why := by
  cases hs : Json.parse s with
  | error f => exact .inr ⟨"", _, .invalidJson hs⟩
  | ok v =>
    cases hv : v.asObject? with
    | none => exact .inr ⟨"", _, .notObject hs (Value.asObject?_eq_none_iff.mp hv)⟩
    | some members =>
      obtain rfl := Value.asObject?_eq_some_iff.mp hv
      rcases spells_or_faulty members with ⟨f, hf⟩ | ⟨why, hf⟩
      · exact .inl ⟨members, f, rfl, hf⟩
      · exact .inr ⟨_, why, .faulty hs (named_iff.mpr rfl) hf⟩

/-- A text is read as a frame exactly if it is a JSON object that spells one, and every other text
is refused without a code, under the id it gives, for the first thing that is wrong with it. -/
theorem parse_accepts_grammar (s : String) :
    (∀ f, parse s = .ok f ↔
      ∃ members, Json.parse s = .ok (.object members) ∧ Spells members f) ∧
    (∀ id why, parse s = .error (id, why) ↔ Refused s id why) ∧
    (∀ r, read (some s) = .error r ↔
      ∃ id why, Refused s id why ∧ r = .error id why.message none) := by
  have hok (f : Frame) : parse s = .ok f ↔
      ∃ members, Json.parse s = .ok (.object members) ∧ Spells members f := by
    refine ⟨fun h => ?_, fun ⟨members, hs, hf⟩ => parse_of_spells hs hf⟩
    rcases spells_or_refused s with ⟨members, g, hs, hg⟩ | ⟨id, why, hr⟩
    · have he := parse_of_spells hs hg
      rw [h, Except.ok.injEq] at he
      exact ⟨members, hs, he ▸ hg⟩
    · simp [parse_of_refused hr] at h
  have herror (id : String) (why : Refusal) : parse s = .error (id, why) ↔ Refused s id why := by
    refine ⟨fun h => ?_, parse_of_refused⟩
    rcases spells_or_refused s with ⟨members, g, hs, hg⟩ | ⟨id', why', hr⟩
    · simp [parse_of_spells hs hg] at h
    · have he := parse_of_refused hr
      rw [h, Except.error.injEq, Prod.mk.injEq] at he
      rwa [he.1, he.2]
  refine ⟨hok, herror, fun r => ?_⟩
  simp only [← herror, Frame.read]
  cases parse s with
  | ok f => simp [mapError_ok]
  | error p =>
    obtain ⟨id, why⟩ := p
    simp only [mapError_error, refusalReply, Except.error.injEq, Prod.mk.injEq]
    constructor
    · rintro rfl
      exact ⟨id, why, ⟨rfl, rfl⟩, rfl⟩
    · rintro ⟨_, _, ⟨rfl, rfl⟩, rfl⟩
      rfl

end

end Frame

end ToolPipeline
