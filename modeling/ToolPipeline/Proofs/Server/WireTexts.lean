import ToolPipeline.Proofs.Json.ReadBounds
import ToolPipeline.Proofs.Json.Reordering
import ToolPipeline.Proofs.Server.Transports

/-! Requests, steps and results as texts. Each is read back from its text as it was, down to the
depth that texts are read to, and however the text of one is spelled, it is written in one way. -/

namespace ToolPipeline

open Json

/-- A type with a JSON form: the shape that its texts have, what is made of them, and the tree that
is written. -/
structure Wire (α : Type) where
  shape : Shape
  ofValue : Value → α
  toJson : α → Json

def Request.wire : Wire Request := ⟨shape, ofValue, toJson⟩
def StepOutput.wire : Wire StepOutput := ⟨shape, ofValue, toJson⟩
def RunResult.wire : Wire RunResult := ⟨shape, ofValue, toJson⟩

namespace Wire

section
variable {α : Type} (wire : Wire α)

def read (s : List Piece) : Except Failure α := (wire.shape.parsePieces s).map wire.ofValue

def text (a : α) : String := (wire.toJson a).compact

/-- The numbers in it are whole and in the range that is read as such. -/
def Whole (a : α) : Prop := ∀ n ∈ (wire.toJson a).numbers, n.IsWhole

/-- A tree is read as it: by the members of the fields, in any order and among members of other
names, or by their items in order, where fields with a default may be left out. -/
structure Gives (t : Json) (a : α) : Prop where
  taken : ∃ v, wire.shape.Takes t v ∧ wire.ofValue v = a
  whole : ∀ n ∈ t.numbers, n.IsWhole
  fits : wire.shape.reach t ≤ 127

end

/-- What is written is read back, and is the one form of all the texts that are read as the same. -/
structure RoundTrips {α : Type} (wire : Wire α) (parse : String → Except Failure α) : Prop where
  parse_eq : ∀ s, parse s = wire.read (Piece.ofString s)
  back : ∀ a, wire.Whole a → (parse (wire.text a) = .ok a ↔ (wire.toJson a).nesting ≤ 127)
  tooDeep : ∀ a, wire.Whole a → 127 < (wire.toJson a).nesting →
    ∃ f, parse (wire.text a) = .error f ∧ f.cause = .flaw .tooDeep
  normal : ∀ s a, wire.read s = .ok a → (∀ n ∈ (wire.toJson a).numbers, ∃ i, n = .int i) →
    ∃ b, parse (wire.text a) = .ok b ∧ b = a ∧ wire.text b = wire.text a
  respelled : ∀ a t core text, wire.Gives t a → Spells t core → Padded core text →
    parse (String.ofList text) = .ok a
  reordered : ∀ a t t', Reordered t t' → wire.Gives t a → wire.Gives t' a

structure Sound {α : Type} (wire : Wire α) : Prop where
  takes : ∀ a, ∃ v, wire.shape.Takes (wire.toJson a) v ∧ wire.ofValue v = a
  reach : ∀ a, wire.shape.reach (wire.toJson a) = (wire.toJson a).nesting
  defaults : wire.shape.DefaultsBounded depthLimit
  bounded : ∀ v, Bounded depthLimit v.json → Bounded depthLimit (wire.toJson (wire.ofValue v))

section
variable {α : Type} {wire : Wire α} {a : α} {t t' : Json}

theorem Gives.reordered (h : wire.Gives t a) (hr : Reordered t t') : wire.Gives t' a := by
  obtain ⟨v, hv, ha⟩ := h.taken
  have hunordered := wire.shape.unordered
  exact ⟨⟨v, hunordered.takes hr hv, ha⟩, hr.forall_numbers_iff.mpr h.whole,
    hunordered.reach hr ▸ h.fits⟩

theorem read_spelled (ht : ∃ v, wire.shape.Takes t v ∧ wire.ofValue v = a)
    (hn : ∀ n ∈ t.numbers, n.IsWhole) {core text : List Char} (hs : Spells t core)
    (htext : Padded core text) :
    (wire.shape.reach t ≤ 127 → wire.read (Piece.ofString (String.ofList text)) = .ok a) ∧
      (127 < wire.shape.reach t → ∃ f, wire.read (Piece.ofString (String.ofList text)) = .error f ∧
        f.cause = .flaw .tooDeep) := by
  obtain ⟨v, hv, rfl⟩ := ht
  obtain ⟨hfit, hdeep⟩ := Shape.parsePieces_taken hn hv hs htext
  rw [Piece.ofString, String.toList_ofList]
  refine ⟨fun hle => map_eq_ok_iff.mpr ⟨v, hfit hle, rfl⟩, fun hlt => ?_⟩
  obtain ⟨f, he, hc⟩ := hdeep hlt
  exact ⟨f, by rw [read, he]; rfl, hc⟩

theorem Sound.whole_of_read (h : wire.Sound) {s : List Piece} (hs : wire.read s = .ok a)
    (hint : ∀ n ∈ (wire.toJson a).numbers, ∃ i, n = .int i) :
    wire.Whole a ∧ (wire.toJson a).nesting ≤ 127 := by
  obtain ⟨v, hv, rfl⟩ := map_eq_ok_iff.mp hs
  obtain ⟨hnests, hwhole⟩ := h.bounded v (Shape.parsePieces_bounded h.defaults hv)
  refine ⟨fun n hn => ?_, hnests⟩
  obtain ⟨i, hi⟩ := hint n hn
  exact hwhole n hn i hi

theorem Sound.roundTrips (h : wire.Sound) {parse : String → Except Failure α}
    (hparse : ∀ s, parse s = wire.read (Piece.ofString s)) : wire.RoundTrips parse := by
  have hwritten (a : α) (hw : wire.Whole a) :=
    read_spelled (h.takes a) hw (spells_chars (wire.toJson a)) (.refl _)
  have hback (a : α) (hw : wire.Whole a) (hle : (wire.toJson a).nesting ≤ 127) :
      parse (wire.text a) = .ok a := by
    rw [hparse]
    exact (hwritten a hw).1 (h.reach a ▸ hle)
  have hdeep (a : α) (hw : wire.Whole a) (hlt : 127 < (wire.toJson a).nesting) :
      ∃ f, parse (wire.text a) = .error f ∧ f.cause = .flaw .tooDeep := by
    rw [hparse]
    exact (hwritten a hw).2 (h.reach a ▸ hlt)
  constructor
  case parse_eq => exact hparse
  case back =>
    intro a hw
    refine ⟨fun he => Nat.not_lt.mp fun hlt => ?_, hback a hw⟩
    obtain ⟨f, hf, -⟩ := hdeep a hw hlt
    rw [hf] at he
    cases he
  case tooDeep => exact hdeep
  case normal =>
    intro s a hs hint
    obtain ⟨hw, hnests⟩ := h.whole_of_read hs hint
    exact ⟨a, hback a hw hnests, rfl, rfl⟩
  case respelled =>
    intro a t core text ht hspells htext
    rw [hparse]
    exact (read_spelled ht.taken ht.whole hspells htext).1 ht.fits
  case reordered => exact fun a t t' hr ht => ht.reordered hr

end

end Wire

namespace Json

section
variable {depth : Nat} {v : Value} {o : Object} {key : String}

theorem bounded_ofObject_iff :
    Bounded (depth + 1) (ofObject o) ↔ o.All fun v => Bounded depth v.json :=
  bounded_object_iff.trans Object.forall_members_iff

theorem all_bounded (h : Bounded (depth + 1) v.json) :
    (v.asObject?.getD .empty).All fun w => Bounded depth w.json := by
  cases ho : v.asObject? with
  | none => exact Object.all_empty
  | some o =>
    obtain rfl := Value.asObject?_eq_some_iff.mp ho
    exact bounded_ofObject_iff.mp h

theorem bounded_objectField (h : o.All fun v => Bounded (depth + 1) v.json) (key : String) :
    Bounded (depth + 1) (ofObject (objectField o key)) := by
  unfold objectField
  cases hv : o.get? key with
  | none => exact bounded_ofObject_iff.mpr Object.all_empty
  | some v => exact bounded_ofObject_iff.mpr (all_bounded (h key v hv))

theorem bounded_of_mem_listField (h : o.All fun v => Bounded (depth + 1) v.json)
    (hv : v ∈ listField o key) : Bounded depth v.json := by
  unfold listField at hv
  cases hw : o.get? key with
  | none => simp [hw] at hv
  | some w =>
    cases hvs : w.items? with
    | none => simp [hw, hvs] at hv
    | some vs =>
      obtain rfl := Value.items?_eq_some_iff.mp hvs
      have hmem : v ∈ vs := by simpa [hw, hvs] using hv
      exact bounded_array_iff.mp (h key _ hw) v.json (List.mem_map_of_mem hmem)

theorem bounded_of_none (v : Value) (h : none = some v) : Bounded depth v.json := by
  cases h

theorem bounded_textList (texts : List String) : Bounded (depth + 1) (textList texts) :=
  bounded_array_iff.mpr (List.forall_mem_map.mpr fun _ _ => bounded_of_no_numbers rfl rfl)

theorem objectField_of_get? {p : Object} (h : o.get? key = some (.object p)) :
    objectField o key = p := by
  simp [objectField, h]

theorem listField_of_get? {vs : List Value} (h : o.get? key = some (.array vs)) :
    listField o key = vs := by
  simp [listField, h, Value.items?_array]

end

theorem takes_textList (texts : List String) :
    (Shape.list .string).Takes (textList texts) (.array (texts.map .string)) :=
  ⟨_, _, rfl, rfl, List.forall₂_map_left_iff.mpr <| List.forall₂_map_right_iff.mpr <|
    List.forall₂_same.mpr fun _ _ => ⟨rfl, rfl⟩⟩

theorem takes_object (o : Object) : Shape.object.Takes (ofObject o) (.object o) :=
  ⟨rfl, (hold_json (.object o)).symm⟩

end Json

namespace Request

theorem nesting_toJson (r : Request) : r.toJson.nesting = (ofObject r.payload).nesting + 1 := by
  have htools : (textList r.tools).nesting ≤ 1 :=
    nesting_array_le_iff.mpr (List.forall_mem_map.mpr fun _ _ => Nat.le_refl 0)
  have hpayload : 1 ≤ (ofObject r.payload).nesting := Nat.succ_le_succ (Nat.zero_le _)
  simp only [toJson, nesting, membersNesting]
  omega

theorem takes_body (r : Request) : shape.Takes r.toJson (.object r.body) := by
  have hnames : ["plugin_id", "tools", "payload"].Nodup := by decide
  refine ⟨r.body, rfl, fun name _ => List.nodup_iff_count_le_one.mp hnames name,
    ⟨⟨.string r.pluginId, ?_, rfl, rfl⟩, ⟨_, ?_, takes_textList r.tools⟩,
      ⟨_, ?_, takes_object r.payload⟩, trivial⟩, fun name hname => ?_⟩
  · simp [body, Object.get?_insert]
  · simp [body, Object.get?_insert]
  · simp [body]
  · simp only [Fields.names, List.mem_cons, List.not_mem_nil, or_false, not_or] at hname
    simp [body, Object.get?_insert, hname]

theorem sound_wire : wire.Sound where
  takes r := ⟨.object r.body, takes_body r, ofValue_body r⟩
  reach r := by
    have htools := (Shape.Plain.list .string).reach_eq (textList r.tools)
    simp [wire, shape, toJson, Shape.reach, Fields.memberReach, nesting, membersNesting, htools]
  defaults := by
    refine ⟨trivial, ?_, trivial, ?_, trivial, ?_, trivial⟩
    · rintro v ⟨⟩
      exact bounded_of_no_numbers rfl rfl
    · rintro v ⟨⟩
      exact bounded_array_iff.mpr (List.forall_mem_nil _)
    · rintro v ⟨⟩
      exact bounded_object_iff.mpr (List.forall_mem_nil _)
  bounded v h := by
    have hall := all_bounded h
    refine bounded_object_iff.mpr ?_
    simp only [List.forall_mem_cons]
    exact ⟨bounded_of_no_numbers rfl rfl, bounded_textList _, bounded_objectField hall _,
      List.forall_mem_nil _⟩

end Request

namespace StepOutput

def body (s : StepOutput) : Object :=
  (Object.empty.insert "tool" (.string s.tool)).insert "output" (.object s.output)

theorem ofValue_body (s : StepOutput) : ofValue (.object s.body) = s := by
  have htool : textField s.body "tool" = s.tool :=
    textField_of_get? (by simp [body, Object.get?_insert])
  have houtput : objectField s.body "output" = s.output := objectField_of_get? (by simp [body])
  simp [ofValue, htool, houtput]

theorem nesting_toJson (s : StepOutput) : s.toJson.nesting = (ofObject s.output).nesting + 1 := by
  simp [toJson, nesting, membersNesting]

theorem takes_body (s : StepOutput) : shape.Takes s.toJson (.object s.body) := by
  have hnames : ["tool", "output"].Nodup := by decide
  refine ⟨s.body, rfl, fun name _ => List.nodup_iff_count_le_one.mp hnames name,
    ⟨⟨.string s.tool, ?_, rfl, rfl⟩, ⟨_, ?_, takes_object s.output⟩, trivial⟩, fun name hname => ?_⟩
  · simp [body, Object.get?_insert]
  · simp [body]
  · simp only [Fields.names, List.mem_cons, List.not_mem_nil, or_false, not_or] at hname
    simp [body, Object.get?_insert, hname]

theorem reach_toJson (s : StepOutput) : shape.reach s.toJson = s.toJson.nesting := by
  simp [shape, toJson, Shape.reach, Fields.memberReach, nesting, membersNesting]

theorem defaultsBounded (depth : Nat) : shape.DefaultsBounded depth := by
  cases depth with
  | zero => trivial
  | succ depth => exact ⟨trivial, bounded_of_none, trivial, bounded_of_none, trivial⟩

theorem bounded_toJson {depth : Nat} {v : Value} (h : Bounded (depth + 2) v.json) :
    Bounded (depth + 2) (toJson (ofValue v)) := by
  have hall := all_bounded h
  refine bounded_object_iff.mpr ?_
  simp only [List.forall_mem_cons]
  exact ⟨bounded_of_no_numbers rfl rfl, bounded_objectField hall _, List.forall_mem_nil _⟩

theorem sound_wire : wire.Sound where
  takes s := ⟨.object s.body, takes_body s, ofValue_body s⟩
  reach := reach_toJson
  defaults := defaultsBounded depthLimit
  bounded _ := bounded_toJson

end StepOutput

namespace RunResult

def body (r : RunResult) : Object :=
  (Object.empty.insert "result" (.object r.result)).insert "steps"
    (.array (r.steps.map fun s => .object s.body))

theorem ofValue_body (r : RunResult) : ofValue (.object r.body) = r := by
  have hresult : objectField r.body "result" = r.result :=
    objectField_of_get? (by simp [body, Object.get?_insert])
  have hsteps : listField r.body "steps" = r.steps.map fun s => .object s.body :=
    listField_of_get? (by simp [body])
  simp [ofValue, hresult, hsteps, Function.comp_def, StepOutput.ofValue_body]

/-- The payload of a result lies one level deep in it, those of its steps three. -/
theorem nesting_toJson_le_iff (r : RunResult) (n : Nat) : r.toJson.nesting ≤ n + 3 ↔
    (ofObject r.result).nesting ≤ n + 2 ∧ ∀ s ∈ r.steps, (ofObject s.output).nesting ≤ n := by
  have hsteps : nesting (.array (r.steps.map StepOutput.toJson)) ≤ n + 2 ↔
      ∀ s ∈ r.steps, (ofObject s.output).nesting ≤ n := by
    rw [nesting_array_le_iff, List.forall_mem_map]
    refine forall₂_congr fun s _ => ?_
    rw [StepOutput.nesting_toJson, Nat.add_le_add_iff_right]
  rw [← hsteps]
  exact nesting_object_le_iff.trans (by simp)

theorem takes_body (r : RunResult) : shape.Takes r.toJson (.object r.body) := by
  have hnames : ["result", "steps"].Nodup := by decide
  have hsteps : List.Forall₂ StepOutput.shape.Takes (r.steps.map StepOutput.toJson)
      (r.steps.map fun s => .object s.body) :=
    List.forall₂_map_left_iff.mpr <| List.forall₂_map_right_iff.mpr <|
      List.forall₂_same.mpr fun s _ => s.takes_body
  refine ⟨r.body, rfl, fun name _ => List.nodup_iff_count_le_one.mp hnames name,
    ⟨⟨_, ?_, takes_object r.result⟩, ⟨_, ?_, _, _, rfl, rfl, hsteps⟩, trivial⟩,
    fun name hname => ?_⟩
  · simp [body, Object.get?_insert]
  · simp [body]
  · simp only [Fields.names, List.mem_cons, List.not_mem_nil, or_false, not_or] at hname
    simp [body, Object.get?_insert, hname]

theorem sound_wire : wire.Sound where
  takes r := ⟨.object r.body, takes_body r, ofValue_body r⟩
  reach r := by
    have hsteps : deepest StepOutput.shape.reach (r.steps.map StepOutput.toJson) =
        itemsNesting (r.steps.map StepOutput.toJson) := by
      exact (deepest_of_forall₂ (List.forall₂_map_left_iff.mpr <| List.forall₂_map_right_iff.mpr <|
        List.forall₂_same.mpr fun s _ => s.reach_toJson)).trans (itemsNesting_eq _).symm
    simp [wire, shape, toJson, Shape.reach, Fields.memberReach, nesting, membersNesting, hsteps]
  defaults := ⟨trivial, bounded_of_none, StepOutput.defaultsBounded 125, bounded_of_none, trivial⟩
  bounded v h := by
    have hall := all_bounded h
    refine bounded_object_iff.mpr ?_
    simp only [List.forall_mem_cons]
    refine ⟨bounded_objectField hall _, bounded_array_iff.mpr ?_, List.forall_mem_nil _⟩
    exact List.forall_mem_map.mpr <| List.forall_mem_map.mpr fun w hw =>
      StepOutput.bounded_toJson (bounded_of_mem_listField hall hw)

end RunResult

/-- Requests, steps and results are read back from their texts. -/
theorem wire_texts_round_trip : Request.wire.RoundTrips Request.parse ∧
    StepOutput.wire.RoundTrips StepOutput.parse ∧ RunResult.wire.RoundTrips RunResult.parse :=
  ⟨Request.sound_wire.roundTrips fun _ => rfl, StepOutput.sound_wire.roundTrips fun _ => rfl,
    RunResult.sound_wire.roundTrips fun _ => rfl⟩

def nestedList : Nat → Value
  | 0 => .null
  | n + 1 => .array [nestedList n]

def nestedPayload (n : Nat) : Payload := Object.empty.insert "k" (nestedList n)
def nestedRequest (n : Nat) : Request := ⟨"p", ["t"], nestedPayload n⟩
def nestedResult (n : Nat) : RunResult := ⟨.empty, [⟨"t", nestedPayload n⟩]⟩

theorem nesting_nestedPayload (n : Nat) : (ofObject (nestedPayload n)).nesting = n + 1 := by
  have hlist : (nestedList n).json.nesting = n := by
    induction n with
    | zero => rfl
    | succ n ih => simp [nestedList, Value.array, nesting, itemsNesting, ih]
  have hpayload : ofObject (nestedPayload n) = .object [("k", (nestedList n).json)] := rfl
  simp [hpayload, nesting, membersNesting, hlist]

theorem numbers_nestedPayload (n : Nat) : (ofObject (nestedPayload n)).numbers = [] := by
  have hlist : (nestedList n).json.numbers = [] := by
    induction n with
    | zero => rfl
    | succ n ih => simp [nestedList, Value.array, numbers, itemNumbers, ih]
  have hpayload : ofObject (nestedPayload n) = .object [("k", (nestedList n).json)] := rfl
  simp [hpayload, numbers, memberNumbers, hlist]

/-- The payload of a request may nest 126 deep, that of a step in a result 124. -/
theorem wire_texts_round_trip_edge :
    Request.parse (Request.wire.text (nestedRequest 125)) = .ok (nestedRequest 125) ∧
      (∃ f, Request.parse (Request.wire.text (nestedRequest 126)) = .error f ∧
        f.cause = .flaw .tooDeep) ∧
      RunResult.parse (RunResult.wire.text (nestedResult 123)) = .ok (nestedResult 123) ∧
      ∃ f, RunResult.parse (RunResult.wire.text (nestedResult 124)) = .error f ∧
        f.cause = .flaw .tooDeep := by
  obtain ⟨hrequests, -, hresults⟩ := wire_texts_round_trip
  have hrequest (n : Nat) : Request.wire.Whole (nestedRequest n) := by
    simp [Wire.Whole, Request.wire, Request.toJson, nestedRequest, textList, numbers, memberNumbers,
      itemNumbers, numbers_nestedPayload]
  have hresult (n : Nat) : RunResult.wire.Whole (nestedResult n) := by
    have hempty : (ofObject Object.empty).numbers = [] := rfl
    simp [Wire.Whole, RunResult.wire, RunResult.toJson, StepOutput.toJson, nestedResult, numbers,
      memberNumbers, itemNumbers, numbers_nestedPayload, hempty]
  have hnests (n : Nat) : (nestedRequest n).toJson.nesting = n + 2 := by
    rw [Request.nesting_toJson, nestedRequest, nesting_nestedPayload]
  have hfits (n : Nat) : (nestedResult n).toJson.nesting ≤ 127 ↔ n + 1 ≤ 124 := by
    have hempty : (ofObject Object.empty).nesting ≤ 126 := by decide
    rw [RunResult.nesting_toJson_le_iff]
    simp [nestedResult, nesting_nestedPayload, hempty]
  refine ⟨(hrequests.back _ (hrequest 125)).mpr (Nat.le_of_eq (hnests 125)),
    hrequests.tooDeep _ (hrequest 126) ?_, (hresults.back _ (hresult 123)).mpr ((hfits 123).mpr ?_),
    hresults.tooDeep _ (hresult 124) (Nat.lt_of_not_le fun hle => ?_)⟩
  · exact Nat.lt_of_lt_of_eq (Nat.lt_succ_self 127) (hnests 126).symm
  · exact Nat.le_refl 124
  · exact absurd ((hfits 124).mp hle) (by decide)

end ToolPipeline
