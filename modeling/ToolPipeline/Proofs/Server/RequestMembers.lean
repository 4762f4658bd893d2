import ToolPipeline.Proofs.Json.ReadTrees
import ToolPipeline.Proofs.Pipeline.RunCourse
import ToolPipeline.Proofs.Server.RequestBodies

/-! Requests that are read from the members of an object, as its text lists them: which members
make a request, and which of them it consists of. -/

namespace ToolPipeline

open Json

namespace Json

section
variable {t : Json}

theorem hold_eq_string_iff {x : String} : hold t = .string x ↔ t = .string x := by
  refine ⟨fun h => ?_, fun h => h ▸ rfl⟩
  have hj := congrArg Value.json h
  cases t with
  | string s => exact hj
  | null | bool | number | array | object => cases hj

theorem map_hold_eq_strings_iff {items : List Json} {texts : List String} :
    items.map hold = texts.map .string ↔ items = texts.map .string := by
  induction items generalizing texts with
  | nil => cases texts <;> simp
  | cons t items ih => cases texts <;> simp [hold_eq_string_iff, ih]

theorem hold_eq_strings_iff {texts : List String} :
    hold t = .array (texts.map .string) ↔ t = .array (texts.map .string) := by
  constructor
  · intro h
    have hj := congrArg Value.json h
    cases t with
    | array items =>
      have hi := Value.array_inj.mp h
      rw [holdItems_eq, map_hold_eq_strings_iff] at hi
      rw [hi]
    | null | bool | number | string | object => cases hj
  · rintro rfl
    rw [hold, holdItems_eq, map_hold_eq_strings_iff.mpr rfl]

theorem hold_eq_object_iff {o : Object} :
    hold t = .object o ↔ ∃ inner, t = .object inner ∧ o = Object.ofList (holdMembers inner) := by
  constructor
  · intro h
    have hj := congrArg Value.json h
    cases t with
    | object inner => exact ⟨inner, rfl, (Value.object_inj.mp h).symm⟩
    | null | bool | number | string | array => cases hj
  · rintro ⟨inner, rfl, rfl⟩
    rfl

end

theorem lastUnder?_holdMembers (members : List (String × Json)) (key : String) :
    lastUnder? (holdMembers members) key = (lastUnder? members key).map hold := by
  rw [lastUnder?, lastUnder?, holdMembers_eq, ← List.map_reverse, lookup_map_snd]

/-- The member of that name satisfies `P`; if there is none, `absent` holds. -/
def Given (members : List (String × Json)) (name : String) (P : Json → Prop) (absent : Prop) :
    Prop :=
  (∃ t, (name, t) ∈ members ∧ P t) ∨ name ∉ keys members ∧ absent

section
variable {members members' : List (String × Json)} {name : String} {P Q : Json → Prop}
  {absent : Prop} {t u : Json}

theorem eq_of_count_le_one (h : (keys members).count name ≤ 1) (ht : (name, t) ∈ members)
    (hu : (name, u) ∈ members) : t = u := by
  induction members with
  | nil => cases ht
  | cons m members ih =>
    have hkey {v : Json} (hv : (name, v) ∈ members) : 0 < (keys members).count name :=
      List.count_pos_iff.mpr (List.mem_map_of_mem (f := Prod.fst) hv)
    rw [keys, List.map_cons, List.count_cons] at h
    change (keys members).count name + _ ≤ 1 at h
    rcases List.mem_cons.mp ht with rfl | ht <;> rcases List.mem_cons.mp hu with he | hu
    · exact (Prod.mk.inj he).2.symm
    · have hp := hkey hu
      rw [if_pos (beq_self_eq_true name)] at h
      omega
    · have hp := hkey ht
      rw [← he, if_pos (beq_self_eq_true name)] at h
      omega
    · exact ih (by omega) ht hu

theorem Given.congr (h : ∀ t, P t ↔ Q t) :
    Given members name P absent ↔ Given members name Q absent := by
  simp only [Given, h]

theorem getD_lastUnder?_eq_iff (h : (keys members).count name ≤ 1) {d v : Value} :
    (lastUnder? (holdMembers members) name).getD d = v ↔
      Given members name (fun t => hold t = v) (v = d) := by
  rw [lastUnder?_holdMembers]
  cases hl : lastUnder? members name with
  | none =>
    have hn : name ∉ keys members := fun hk => by
      have hs := isSome_lastUnder?.mpr hk
      rw [hl] at hs
      cases hs
    constructor
    · exact fun he => .inr ⟨hn, he.symm⟩
    · rintro (⟨t, ht, -⟩ | ⟨-, he⟩)
      · exact absurd (List.mem_map_of_mem ht) hn
      · exact he.symm
  | some t =>
    have ht := mem_of_lastUnder? hl
    constructor
    · exact fun he => .inl ⟨t, ht, he⟩
    · rintro (⟨u, hu, he⟩ | ⟨hn, -⟩)
      · rw [eq_of_count_le_one h ht hu]
        exact he
      · exact absurd (List.mem_map_of_mem ht) hn

theorem Given.all (h : Given members name P absent) (hc : (keys members).count name ≤ 1)
    (ht : (name, t) ∈ members) : P t := by
  rcases h with ⟨u, hu, hp⟩ | ⟨hn, -⟩
  · rwa [eq_of_count_le_one hc ht hu]
  · exact absurd (List.mem_map_of_mem ht) hn

theorem Given.of_not_mem (h : Given members name P absent) (hn : name ∉ keys members) : absent := by
  rcases h with ⟨t, ht, -⟩ | ⟨-, ha⟩
  · exact absurd (List.mem_map_of_mem ht) hn
  · exact ha

theorem exists_given {α : Type} {R : α → Json → Prop} (d : α)
    (h : ∀ t, (name, t) ∈ members → ∃ a, R a t) : ∃ a, Given members name (R a) (a = d) := by
  by_cases hn : name ∈ keys members
  · obtain ⟨⟨_, t⟩, ht, rfl⟩ := List.mem_map.mp hn
    obtain ⟨a, ha⟩ := h t ht
    exact ⟨a, .inl ⟨t, ht, ha⟩⟩
  · exact ⟨d, .inr ⟨hn, rfl⟩⟩

theorem Given.of_mem_iff (h : ∀ t, (name, t) ∈ members ↔ (name, t) ∈ members')
    (hg : Given members name P absent) : Given members' name P absent := by
  rcases hg with ⟨t, ht, hp⟩ | ⟨hn, ha⟩
  · exact .inl ⟨t, (h t).mp ht, hp⟩
  · refine .inr ⟨fun hk => hn ?_, ha⟩
    obtain ⟨⟨_, t⟩, ht, rfl⟩ := List.mem_map.mp hk
    exact List.mem_map_of_mem ((h t).mpr ht)

end

end Json

namespace Request

/-- No field is given twice, and those that are given have their shapes. -/
structure Shaped (members : List (String × Json)) : Prop where
  once : ∀ name ∈ fieldNames, (keys members).count name ≤ 1
  pluginId : ∀ t, ("plugin_id", t) ∈ members → ∃ id : String, t = .string id
  tools : ∀ t, ("tools", t) ∈ members → ∃ names : List String, t = .array (names.map .string)
  payload : ∀ t, ("payload", t) ∈ members → ∃ inner, t = .object inner

/-- The request has what the members give, and something empty for each that is missing. Inside the
payload, the last member of a key counts. -/
structure ReadFrom (r : Request) (members : List (String × Json)) : Prop where
  once : ∀ name ∈ fieldNames, (keys members).count name ≤ 1
  pluginId : Given members "plugin_id" (fun t => t = .string r.pluginId) (r.pluginId = "")
  tools : Given members "tools" (fun t => t = .array (r.tools.map .string)) (r.tools = [])
  payload : Given members "payload"
    (fun t => ∃ inner, t = .object inner ∧
      ∀ key, r.payload.get? key = (lastUnder? inner key).map hold) (r.payload = .empty)

section
variable {r : Request} {members members' : List (String × Json)} {s s' : String} {o : Object}

theorem ReadFrom.shaped (h : r.ReadFrom members) : Shaped members where
  once := h.once
  pluginId t ht := ⟨r.pluginId, h.pluginId.all (h.once _ (by decide)) ht⟩
  tools t ht := ⟨r.tools, h.tools.all (h.once _ (by decide)) ht⟩
  payload t ht := by
    obtain ⟨inner, he, -⟩ := h.payload.all (h.once _ (by decide)) ht
    exact ⟨inner, he⟩

theorem Shaped.exists_readFrom (h : Shaped members) : ∃ r : Request, r.ReadFrom members := by
  obtain ⟨id, hid⟩ := exists_given "" h.pluginId
  obtain ⟨names, hnames⟩ := exists_given [] h.tools
  obtain ⟨payload, hpayload⟩ := exists_given (R := fun (o : Object) t => ∃ inner,
      t = .object inner ∧ ∀ key, o.get? key = (lastUnder? inner key).map hold) .empty
    fun t (ht : ("payload", t) ∈ members) => by
      obtain ⟨inner, he⟩ := h.payload t ht
      exact ⟨.ofList (holdMembers inner), inner, he, fun key => by
        rw [Object.get?_ofList, lastUnder?_holdMembers]⟩
  exact ⟨⟨id, names, payload⟩, h.once, hid, hnames, hpayload⟩

theorem once_iff : ((keys members).filter (fieldNames.contains ·)).Nodup ↔
    ∀ name ∈ fieldNames, (keys members).count name ≤ 1 := by
  rw [List.nodup_iff_count_le_one]
  constructor
  · intro h name hn
    have hc := h name
    rwa [List.count_filter (by simpa using hn)] at hc
  · intro h name
    by_cases hn : name ∈ fieldNames
    · rw [List.count_filter (by simpa using hn)]
      exact h name hn
    · rw [List.count_eq_zero.mpr fun hm => hn (by simpa using (List.mem_filter.mp hm).2)]
      exact Nat.zero_le 1

theorem part?_object (o : Object) (name : String) (i : Nat) :
    part? (.object o) name i = o.get? name := rfl

theorem readFrom_iff : r.ReadFrom members ↔
    (∀ name ∈ fieldNames, (keys members).count name ≤ 1) ∧
      r.HeldBy (.object (.ofList (holdMembers members))) := by
  have hfield {name : String} (hc : (keys members).count name ≤ 1) {i : Nat} {d v : Value} :
      (part? (.object (.ofList (holdMembers members))) name i).getD d = v ↔
        Given members name (fun t => hold t = v) (v = d) := by
    rw [part?_object, Object.get?_ofList, getD_lastUnder?_eq_iff hc]
  have hpluginId : Given members "plugin_id" (fun t => t = .string r.pluginId) (r.pluginId = "") ↔
      Given members "plugin_id" (fun t => hold t = .string r.pluginId)
        (Value.string r.pluginId = .string "") := by
    simp only [hold_eq_string_iff, Value.string_inj]
  have htools : Given members "tools" (fun t => t = .array (r.tools.map .string)) (r.tools = []) ↔
      Given members "tools" (fun t => hold t = .array (r.tools.map .string))
        (Value.array (r.tools.map .string) = .array []) := by
    simp only [hold_eq_strings_iff, Value.array_inj, List.map_eq_nil_iff]
  have hpayload : Given members "payload"
      (fun t => ∃ inner, t = .object inner ∧
        ∀ key, r.payload.get? key = (lastUnder? inner key).map hold) (r.payload = .empty) ↔
      Given members "payload" (fun t => hold t = .object r.payload)
        (Value.object r.payload = .object .empty) := by
    simp only [hold_eq_object_iff, Value.object_inj, ← lastUnder?_holdMembers,
      ← Object.get?_ofList]
    refine Given.congr fun t => exists_congr fun inner => and_congr_right fun _ => ?_
    exact ⟨Object.ext_get?, fun he key => he ▸ rfl⟩
  constructor
  · rintro ⟨hc, hp, ht, ho⟩
    exact ⟨hc, .inl ⟨_, rfl⟩, (hfield (hc _ (by decide))).mpr (hpluginId.mp hp),
      (hfield (hc _ (by decide))).mpr (htools.mp ht),
      (hfield (hc _ (by decide))).mpr (hpayload.mp ho)⟩
  · rintro ⟨hc, -, hp, ht, ho⟩
    exact ⟨hc, hpluginId.mpr ((hfield (hc _ (by decide))).mp hp),
      htools.mpr ((hfield (hc _ (by decide))).mp ht),
      hpayload.mpr ((hfield (hc _ (by decide))).mp ho)⟩

theorem parse_eq_ok_iff (ho : Json.parse s = .ok (.object o)) :
    Request.parse s = .ok r ↔ r.HeldBy (.object o) ∧ ¬ Repeats (Piece.ofString s) := by
  have hlong : ¬ Json.Overlong fields (.object o) :=
    fun ⟨vs, he, _⟩ => nomatch congrArg Value.kind he
  constructor
  · intro h
    obtain ⟨w, hw, rfl⟩ := map_eq_ok_iff.mp h
    by_cases hfits : (∃ held, shape.check (.object o) = .ok held) ∧
        GivenOnce fields.checkers (namesIn (Piece.ofString s))
    · obtain ⟨⟨held, hc⟩, hn⟩ := hfits
      have hread := readable_fields.parsePieces_of_check ho hc hn hlong
      have hsame : w = held := Except.ok.inj (hw.symm.trans hread)
      exact ⟨heldBy_iff.mpr ⟨held, hc, hsame ▸ rfl⟩, Rest.givenOnce_iff.mp hn⟩
    · obtain ⟨rest, hr, -⟩ := readWhole_eq_ok_iff.mp ho
      obtain ⟨f, hf, -⟩ := readable_fields.parsePieces_mismatch hr hfits
      cases hf.symm.trans hw
  · rintro ⟨hheld, hn⟩
    obtain ⟨held, hc, rfl⟩ := heldBy_iff.mp hheld
    have hread := readable_fields.parsePieces_of_check ho hc (Rest.givenOnce_iff.mpr hn) hlong
    exact map_eq_ok_iff.mpr ⟨held, hread, rfl⟩

/-- A request is read from an object whose text has these members if and only if they make it. -/
theorem parse_eq_ok_iff_readFrom (h : parseTree s = .ok (.object members)) :
    Request.parse s = .ok r ↔ r.ReadFrom members := by
  have ho : Json.parse s = .ok (.object (.ofList (holdMembers members))) := by
    rw [parse_eq_hold, h]
    rfl
  obtain ⟨rest, hr, -⟩ := readWhole_eq_ok_iff.mp h
  obtain ⟨d, tail, after, hs, he⟩ := readEntries_of_readTree hr
  rw [parse_eq_ok_iff ho, readFrom_iff, Repeats, namesIn_of_readEntries hs he,
    map_fst_holdMembers, not_not, once_iff, and_comm]

def fieldsOf (members : List (String × Json)) : List (String × Json) :=
  members.filter fun m => fieldNames.contains m.1

theorem mem_fieldsOf {name : String} (hn : name ∈ fieldNames) {t : Json} :
    (name, t) ∈ fieldsOf members ↔ (name, t) ∈ members := by
  simp [fieldsOf, hn]

theorem count_fieldsOf {name : String} (hn : name ∈ fieldNames) :
    (keys (fieldsOf members)).count name = (keys members).count name := by
  have hf : keys (fieldsOf members) = (keys members).filter (fieldNames.contains ·) := by
    rw [keys, keys, List.filter_map]
    rfl
  rw [hf, List.count_filter (by simpa using hn)]

theorem ReadFrom.of_fieldsOf (hf : (fieldsOf members).Perm (fieldsOf members'))
    (h : r.ReadFrom members) : r.ReadFrom members' := by
  have hmem {name : String} (hn : name ∈ fieldNames) (t : Json) :
      (name, t) ∈ members ↔ (name, t) ∈ members' := by
    rw [← mem_fieldsOf hn, hf.mem_iff, mem_fieldsOf hn]
  refine ⟨fun name hn => ?_, h.pluginId.of_mem_iff (hmem (by decide)),
    h.tools.of_mem_iff (hmem (by decide)), h.payload.of_mem_iff (hmem (by decide))⟩
  have hc : (keys (fieldsOf members)).count name = (keys (fieldsOf members')).count name :=
    (hf.map Prod.fst).count_eq name
  rw [← count_fieldsOf hn, ← hc, count_fieldsOf hn]
  exact h.once name hn

theorem ReadFrom.empty (h : r.ReadFrom members)
    (hm : "plugin_id" ∉ keys members ∨ "tools" ∉ keys members) :
    r.pluginId = "" ∨ r.tools = [] := by
  rcases hm with hm | hm
  · exact .inl (h.pluginId.of_not_mem hm)
  · exact .inr (h.tools.of_not_mem hm)

theorem run_of_empty (h : r.pluginId = "" ∨ r.tools = []) (e : Engine) (runId : String)
    (o : Options) (offered : Nat) (w : World) :
    ∃ error, (e.run runId r o offered w).1.outcome = .error (.invalid error) ∧
      (r.pluginId = "" → error = .emptyPluginId) ∧
      ∀ p, r.pluginId ≠ "" → e.registry.lookup r.pluginId = some p → error = .emptyToolList := by
  by_cases hid : r.pluginId = ""
  · have hv : validate e.registry r.pluginId r.tools = .error .emptyPluginId := if_pos hid
    exact ⟨_, Engine.run_rejected hv runId o offered w, fun _ => rfl, fun _ hne => absurd hid hne⟩
  · have ht := h.resolve_left hid
    cases hl : e.registry.lookup r.pluginId with
    | none =>
      have hv : validate e.registry r.pluginId r.tools = .error (.unknownPlugin r.pluginId) := by
        simp only [validate, hid, hl, if_false]
      exact ⟨_, Engine.run_rejected hv runId o offered w, fun he => absurd he hid,
        fun _ _ hp => by cases hp⟩
    | some p =>
      have hv : validate e.registry r.pluginId r.tools = .error .emptyToolList := by
        simp only [validate, hid, hl, ht, if_false, if_true]
      exact ⟨_, Engine.run_rejected hv runId o offered w, fun he => absurd he hid,
        fun _ _ _ => rfl⟩

end

/-- Of a text that spells an object, a request is read if and only if its fields are given at most
once each and have their shapes; the request has what they give. Neither the order of the members
nor other members make a difference, and what is left out is left to the checks of the request. -/
theorem requests_read_from_members :
    (∀ s o, Json.parse s = .ok (.object o) → ∃ members,
      parseTree s = .ok (.object members) ∧ o = .ofList (holdMembers members) ∧
      ((∃ r, Request.parse s = .ok r) ↔ Shaped members) ∧
      ∀ r, Request.parse s = .ok r ↔ r.ReadFrom members) ∧
    (∀ s s' members members', parseTree s = .ok (.object members) →
      parseTree s' = .ok (.object members') → (fieldsOf members).Perm (fieldsOf members') →
      ∀ r, Request.parse s = .ok r ↔ Request.parse s' = .ok r) ∧
    (∀ s members, parseTree s = .ok (.object members) → Shaped members →
      "plugin_id" ∉ keys members ∨ "tools" ∉ keys members →
      ∃ r, Request.parse s = .ok r ∧
        ∀ (e : Engine) (runId : String) (o : Options) (offered : Nat) (w : World),
        ∃ error, (e.run runId r o offered w).1.outcome = .error (.invalid error) ∧
          ("plugin_id" ∉ keys members → error = .emptyPluginId) ∧
          ∀ p, r.pluginId ≠ "" → e.registry.lookup r.pluginId = some p →
            error = .emptyToolList) := by
  refine ⟨?_, ?_, ?_⟩
  · intro s o ho
    rw [parse_eq_hold] at ho
    obtain ⟨t, ht, hheld⟩ := map_eq_ok_iff.mp ho
    obtain ⟨members, rfl, rfl⟩ := hold_eq_object_iff.mp hheld
    have hiff (r : Request) := parse_eq_ok_iff_readFrom (r := r) ht
    refine ⟨members, ht, rfl, ⟨?_, fun hs => ?_⟩, hiff⟩
    · rintro ⟨r, hr⟩
      exact ((hiff r).mp hr).shaped
    · obtain ⟨r, hr⟩ := hs.exists_readFrom
      exact ⟨r, (hiff r).mpr hr⟩
  · intro s s' members members' hs hs' hf r
    rw [parse_eq_ok_iff_readFrom hs, parse_eq_ok_iff_readFrom hs']
    exact ⟨.of_fieldsOf hf, .of_fieldsOf hf.symm⟩
  · intro s members hs hshape hmissing
    obtain ⟨r, hr⟩ := hshape.exists_readFrom
    refine ⟨r, (parse_eq_ok_iff_readFrom hs).mpr hr, fun e runId o offered w => ?_⟩
    obtain ⟨error, ho, hid, htools⟩ := run_of_empty (hr.empty hmissing) e runId o offered w
    exact ⟨error, ho, fun hn => hid (hr.pluginId.of_not_mem hn), htools⟩

def toollessText : String :=
  "\x7b\"payload\":\x7b\"a\":true,\"a\":null\x7d,\"plugin_id\":\"frame\"\x7d"

def shuffledText : String :=
  "\x7b\"plugin_id\":\"frame\",\"x\":[],\"payload\":\x7b\"a\":true,\"a\":null\x7d\x7d"

theorem requests_read_from_members_two :
    ∃ r : Request, Request.parse toollessText = .ok r ∧ Request.parse shuffledText = .ok r ∧
      r.pluginId = "frame" ∧ r.tools = [] ∧ r.payload.get? "a" = some .null ∧
      ((⟨.standard false, .memory⟩ : Engine).run "r" r .default 0 .initial).1.outcome =
        .error (.invalid .emptyToolList) := by
  obtain ⟨hread, horder, hchecks⟩ := requests_read_from_members
  have hs : parseTree toollessText = .ok (.object
      [("payload", .object [("a", .bool true), ("a", .null)]),
        ("plugin_id", .string "frame")]) := by
    rfl
  have hs' : parseTree shuffledText = .ok (.object [("plugin_id", .string "frame"),
      ("x", .array []), ("payload", .object [("a", .bool true), ("a", .null)])]) := by
    rfl
  have hshape : Shaped
      [("payload", .object [("a", .bool true), ("a", .null)]), ("plugin_id", .string "frame")] := by
    refine ⟨by decide, ?_, ?_, ?_⟩ <;> simp
  obtain ⟨r, hr, hrun⟩ := hchecks toollessText _ hs hshape (.inr (by decide))
  have hfields : (fieldsOf [("payload", .object [("a", .bool true), ("a", .null)]),
      ("plugin_id", .string "frame")]).Perm (fieldsOf [("plugin_id", .string "frame"),
        ("x", .array []), ("payload", .object [("a", .bool true), ("a", .null)])]) :=
    .swap ..
  have hr' := (horder _ _ _ _ hs hs' hfields r).mp hr
  obtain ⟨members, hm, -, -, hiff⟩ := hread toollessText _ (by rw [parse_eq_hold, hs]; rfl)
  cases hs.symm.trans hm
  obtain ⟨-, hid, htools, hpayload⟩ := (hiff r).mp hr
  have hid : Json.string "frame" = .string r.pluginId :=
    hid.all (by decide) (.tail _ (.head _))
  have hid : r.pluginId = "frame" := (Json.string.inj hid).symm
  obtain ⟨inner, he, hget⟩ := hpayload.all (by decide) (.head _)
  cases he
  obtain ⟨error, ho, -, htool⟩ := hrun ⟨.standard false, .memory⟩ "r" .default 0 .initial
  obtain rfl := htool FrameTools.plugin (by rw [hid]; decide) (by rw [hid]; rfl)
  exact ⟨r, hr, hr', hid, htools.of_not_mem (by decide), hget "a", ho⟩

end Request

end ToolPipeline
