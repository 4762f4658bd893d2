import ToolPipeline.Proofs.Json.HeldRecord
import ToolPipeline.Settings.Basic

/-! The ten values that settings are made of. An object that has all of them is read as settings if
each has its type, and the settings then have these values. -/

namespace ToolPipeline

open Json

/-- One of the values that settings are made of. -/
inductive Leaf where
  | host | port | maxMessageSize | heartbeatIntervalSecs | maxFramesInFlight
  | restTimeoutMs | frameTimeoutMs
  | level | json
  | enableDebug
  deriving DecidableEq, Repr

namespace Leaf

def sect : Leaf → String
  | host | port | maxMessageSize | heartbeatIntervalSecs | maxFramesInFlight => "server"
  | restTimeoutMs | frameTimeoutMs => "pipeline"
  | level | json => "logging"
  | enableDebug => "plugins"

def key : Leaf → String
  | host => "host"
  | port => "port"
  | maxMessageSize => "max_message_size"
  | heartbeatIntervalSecs => "heartbeat_interval_secs"
  | maxFramesInFlight => "max_frames_in_flight"
  | restTimeoutMs => "rest_timeout_ms"
  | frameTimeoutMs => "frame_timeout_ms"
  | level => "level"
  | json => "json"
  | enableDebug => "enable_debug"

def of (s : Settings) : Leaf → Value
  | host => .string s.server.host
  | port => .int s.server.port.toNat
  | maxMessageSize => .int s.server.maxMessageSize.toNat
  | heartbeatIntervalSecs => .int s.server.heartbeatIntervalSecs.toNat
  | maxFramesInFlight => .int s.server.maxFramesInFlight.toNat
  | restTimeoutMs => .int s.pipeline.restTimeoutMs.toNat
  | frameTimeoutMs => .int s.pipeline.frameTimeoutMs.toNat
  | level => .string s.logging.level
  | json => .bool s.logging.json
  | enableDebug => .bool s.plugins.enableDebug

/-- The values that a leaf may have: texts, flags, and whole numbers of 16 or of 64 bits. -/
def Fits : Leaf → Value → Prop
  | host, v | level, v => ∃ text, v = .string text
  | json, v | enableDebug, v => ∃ flag, v = .bool flag
  | port, v => ∃ n : Nat, n ≤ Nat.pow 2 16 - 1 ∧ v = .int n
  | _, v => ∃ n : Nat, n ≤ Nat.pow 2 64 - 1 ∧ v = .int n

/-- What an object of sections holds at a leaf. -/
def In (l : Leaf) (o : Object) (v : Value) : Prop :=
  ∃ p, o.get? l.sect = some (.object p) ∧ p.get? l.key = some v

def shape : Leaf → Shape
  | host | level => .string
  | json | enableDebug => .boolean
  | port => .natural "u16" (Nat.pow 2 16 - 1)
  | maxMessageSize | maxFramesInFlight => .natural "usize" Settings.word
  | heartbeatIntervalSecs | restTimeoutMs | frameTimeoutMs => .natural "u64" Settings.word

def sectionShape : Leaf → Shape
  | host | port | maxMessageSize | heartbeatIntervalSecs | maxFramesInFlight =>
    Settings.serverShape
  | restTimeoutMs | frameTimeoutMs => Settings.pipelineShape
  | level | json => Settings.loggingShape
  | enableDebug => Settings.pluginsShape

def siblings : Leaf → List Leaf
  | host | port | maxMessageSize | heartbeatIntervalSecs | maxFramesInFlight =>
    [host, port, maxMessageSize, heartbeatIntervalSecs, maxFramesInFlight]
  | restTimeoutMs | frameTimeoutMs => [restTimeoutMs, frameTimeoutMs]
  | level | json => [level, json]
  | enableDebug => [enableDebug]

def field (l : Leaf) : ValueField := ⟨l.key, l.shape.check, some (l.of Settings.default)⟩

def sectionField (l : Leaf) : ValueField :=
  ⟨l.sect, l.sectionShape.check, (l.sectionShape.check Object.empty.toValue).toOption⟩

def firsts : List Leaf := [host, restTimeoutMs, level, enableDebug]

variable {l : Leaf} {o p : Object} {v w : Value}

theorem check_section (l : Leaf) (p : Object) :
    l.sectionShape.check (.object p) = checkMembers (l.siblings.map field) p := by
  cases l <;> exact checkRecord_object _ _ _

theorem check_settings (o : Object) :
    Settings.shape.check (.object o) = checkMembers (firsts.map sectionField) o :=
  checkRecord_object _ _ _

theorem check_eq_ok_iff : l.shape.check v = .ok w ↔ w = v ∧ l.Fits v := by
  cases l with
  | host | level => exact Shape.check_string_eq_ok_iff
  | json | enableDebug => exact Shape.check_boolean_eq_ok_iff
  | port | maxMessageSize | heartbeatIntervalSecs | maxFramesInFlight | restTimeoutMs
  | frameTimeoutMs => exact Shape.check_natural_eq_ok_iff

theorem fits_of (l : Leaf) (s : Settings) : l.Fits (l.of s) := by
  cases l with
  | host | level => exact ⟨_, rfl⟩
  | json | enableDebug => exact ⟨_, rfl⟩
  | port => exact ⟨_, Nat.le_sub_one_of_lt (UInt16.toNat_lt _), rfl⟩
  | maxMessageSize | heartbeatIntervalSecs | maxFramesInFlight | restTimeoutMs | frameTimeoutMs =>
    exact ⟨_, Nat.le_sub_one_of_lt (UInt64.toNat_lt _), rfl⟩

theorem not_fits_object (l : Leaf) (p : Object) : ¬ l.Fits (.object p) := by
  have hkind {w : Value} (h : w.kind ≠ .object) : Value.object p ≠ w := fun he => h (he ▸ rfl)
  cases l with
  | host | level =>
    rintro ⟨text, h⟩
    exact hkind (fun hk => by cases hk) h
  | json | enableDebug =>
    rintro ⟨flag, h⟩
    exact hkind (fun hk => by cases hk) h
  | port | maxMessageSize | heartbeatIntervalSecs | maxFramesInFlight | restTimeoutMs
  | frameTimeoutMs =>
    rintro ⟨n, -, h⟩
    exact hkind (fun hk => by cases hk) h

theorem plainFields (l : Leaf) : PlainFields (l.siblings.map field) where
  distinct := by cases l <;> decide
  keeps f hf v w h := by
    obtain ⟨m, -, rfl⟩ := List.mem_map.mp hf
    exact (check_eq_ok_iff.mp h).1

theorem sect_of_mem {m : Leaf} (h : m ∈ l.siblings) : m.sect = l.sect := by
  revert m
  cases l <;> simp [siblings, sect]

theorem mem_siblings (l : Leaf) : l ∈ l.siblings := by cases l <;> decide

theorem section_ok_iff {values : Leaf → Value}
    (h : ∀ m ∈ l.siblings, p.get? m.key = some (values m)) :
    (∃ w, l.sectionShape.check (.object p) = .ok w) ↔
      ∀ m ∈ l.siblings, m.Fits (values m) := by
  rw [check_section, (plainFields l).checkMembers_ok_iff, List.forall_mem_map]
  refine forall₂_congr fun m hm => ?_
  have hm : p.get? m.field.name = some (values m) := h m hm
  have hread : m.field.read (values m) = .ok (values m) ↔ m.Fits (values m) :=
    check_eq_ok_iff.trans (by simp)
  simp only [hm, reduceCtorEq, false_and, false_or, Option.some.injEq, exists_eq_left', hread]

theorem section_values {values : Leaf → Value}
    (h : ∀ m ∈ l.siblings, p.get? m.key = some (values m))
    (hw : l.sectionShape.check (.object p) = .ok w) :
    ∃ r, w = .object r ∧ ∀ m ∈ l.siblings, r.get? m.key = some (values m) := by
  rw [check_section] at hw
  obtain ⟨r, rfl, hr⟩ := (plainFields l).get?_of_checkMembers hw
  refine ⟨r, rfl, fun m hm => ?_⟩
  have hf := hr m.field (List.mem_map_of_mem hm)
  exact hf.trans (by rw [show p.get? m.field.name = some (values m) from h m hm, Option.some_or])

theorem filled?_sect (hp : o.get? l.sect = some (.object p)) :
    filled? (firsts.map sectionField) o l.sect = (l.sectionShape.check (.object p)).toOption := by
  have hf : (firsts.map sectionField).find? (·.name == l.sect) = some l.sectionField := by
    cases l <;> rfl
  rw [filled?, hf, Option.bind_some, hp]
  rfl

theorem forall_sect {P : String → Prop} : (∀ f ∈ firsts.map sectionField, P f.name) ↔
    ∀ l : Leaf, P l.sect := by
  constructor
  · intro h l
    have hf : ∃ f ∈ firsts.map sectionField, f.name = l.sect := by
      cases l <;> simp [firsts, sectionField, sect]
    obtain ⟨f, hf, hn⟩ := hf
    exact hn ▸ h f hf
  · intro h f hf
    obtain ⟨l, -, rfl⟩ := List.mem_map.mp hf
    exact h l

section
variable {values : Leaf → Value}

theorem siblings_in (h : ∀ l : Leaf, l.In o (values l)) (l : Leaf) :
    ∃ p, o.get? l.sect = some (.object p) ∧ ∀ m ∈ l.siblings, p.get? m.key = some (values m) := by
  obtain ⟨p, hp, -⟩ := h l
  refine ⟨p, hp, fun m hm => ?_⟩
  obtain ⟨q, hq, hk⟩ := h m
  rw [sect_of_mem hm, hp, Option.some.injEq, Value.object_inj] at hq
  rwa [hq]

/-- An object with values at all leaves is read as settings if each of them has its type. -/
theorem settings_ok_iff (h : ∀ l : Leaf, l.In o (values l)) :
    (∃ w, Settings.shape.check (.object o) = .ok w) ↔ ∀ l : Leaf, l.Fits (values l) := by
  have hsection (l : Leaf) : (filled? (firsts.map sectionField) o l.sect).isSome ↔
      ∀ m ∈ l.siblings, m.Fits (values m) := by
    obtain ⟨p, hp, hk⟩ := siblings_in h l
    rw [filled?_sect hp, ← section_ok_iff hk, Option.isSome_iff_exists]
    simp only [toOption_eq_some_iff]
  rw [check_settings, checkMembers_ok_iff,
    forall_sect (P := fun name => (filled? (firsts.map sectionField) o name).isSome)]
  simp only [hsection]
  exact ⟨fun hl l => hl l l l.mem_siblings, fun hl l m _ => hl m⟩

theorem settings_values (h : ∀ l : Leaf, l.In o (values l))
    (hw : Settings.shape.check (.object o) = .ok w) :
    ∃ r, w = .object r ∧ ∀ l : Leaf, l.In r (values l) := by
  rw [check_settings] at hw
  obtain ⟨hs, r, rfl, hr⟩ := filled?_of_checkMembers hw
  refine ⟨r, rfl, fun l => ?_⟩
  obtain ⟨p, hp, hk⟩ := siblings_in h l
  have hl : (filled? (firsts.map sectionField) o l.sect).isSome :=
    forall_sect (P := fun name => (filled? (firsts.map sectionField) o name).isSome).mp hs l
  rw [filled?_sect hp] at hl
  obtain ⟨u, hu⟩ := Option.isSome_iff_exists.mp hl
  obtain ⟨q, rfl, hq⟩ := section_values hk (toOption_eq_some_iff.mp hu)
  exact ⟨q, by rw [hr, filled?_sect hp, hu], hq l l.mem_siblings⟩

end

theorem textField_eq {text : String} (h : l.In o (.string text)) :
    Json.textField (objectField o l.sect) l.key = text := by
  obtain ⟨p, hp, hk⟩ := h
  simp [Json.textField, objectField, hp, hk]

theorem flagOf_eq {flag : Bool} (h : l.In o (.bool flag)) :
    Settings.flagOf (objectField o l.sect) l.key = flag := by
  obtain ⟨p, hp, hk⟩ := h
  have hb : (Value.bool flag).asBool? = some flag := rfl
  simp [Settings.flagOf, objectField, hp, hk, hb]

theorem naturalOf_eq {n : Nat} (h : l.In o (.int n)) :
    Settings.naturalOf (objectField o l.sect) l.key = n := by
  obtain ⟨p, hp, hk⟩ := h
  have hn : (Value.int n).asInt? = some (n : Int) := rfl
  simp [Settings.naturalOf, objectField, hp, hk, hn]

theorem of_ofValue (h : l.In o v) (hv : l.Fits v) : l.of (Settings.ofValue (.object o)) = v := by
  cases l with
  | host | level =>
    obtain ⟨text, rfl⟩ := hv
    exact congrArg Value.string (textField_eq h)
  | json | enableDebug =>
    obtain ⟨flag, rfl⟩ := hv
    exact congrArg Value.bool (flagOf_eq h)
  | port =>
    obtain ⟨n, hn, rfl⟩ := hv
    have hlt : n < 2 ^ 16 := Nat.lt_of_le_pred (Nat.two_pow_pos 16) hn
    have hport : (UInt16.ofNat (Settings.naturalOf _ _)).toNat = n :=
      (congrArg (fun k => (UInt16.ofNat k).toNat) (naturalOf_eq h)).trans
        (UInt16.toNat_ofNat_of_lt hlt)
    exact congrArg (fun k : Nat => Value.int k) hport
  | maxMessageSize | maxFramesInFlight | heartbeatIntervalSecs | restTimeoutMs | frameTimeoutMs =>
    obtain ⟨n, hn, rfl⟩ := hv
    have hlt : n < 2 ^ 64 := Nat.lt_of_le_pred (Nat.two_pow_pos 64) hn
    have hword : (UInt64.ofNat (Settings.naturalOf _ _)).toNat = n :=
      (congrArg (fun k => (UInt64.ofNat k).toNat) (naturalOf_eq h)).trans
        (UInt64.toNat_ofNat_of_lt hlt)
    exact congrArg (fun k : Nat => Value.int k) hword

theorem ext_of {s t : Settings} (h : ∀ l : Leaf, l.of s = l.of t) : s = t := by
  have hint {m n : Nat} (he : Value.int m = .int n) : m = n :=
    Int.ofNat.inj (Option.some.inj (congrArg Value.asInt? he))
  have hbool {a b : Bool} (he : Value.bool a = .bool b) : a = b :=
    Option.some.inj (congrArg Value.asBool? he)
  have hserver : s.server = t.server := by
    have hhost := Value.string_inj.mp (h host)
    have hport := UInt16.toNat_inj.mp (hint (h port))
    have hsize := UInt64.toNat_inj.mp (hint (h maxMessageSize))
    have hheart := UInt64.toNat_inj.mp (hint (h heartbeatIntervalSecs))
    have hframes := UInt64.toNat_inj.mp (hint (h maxFramesInFlight))
    cases hs : s.server
    cases ht : t.server
    simp_all
  have hpipeline : s.pipeline = t.pipeline := by
    have hrest := UInt64.toNat_inj.mp (hint (h restTimeoutMs))
    have hframe := UInt64.toNat_inj.mp (hint (h frameTimeoutMs))
    cases hs : s.pipeline
    cases ht : t.pipeline
    simp_all
  have hlogging : s.logging = t.logging := by
    have hlevel := Value.string_inj.mp (h level)
    have hjson := hbool (h json)
    cases hs : s.logging
    cases ht : t.logging
    simp_all
  have hplugins : s.plugins = t.plugins := by
    have hdebug := hbool (h enableDebug)
    cases hs : s.plugins
    cases ht : t.plugins
    simp_all
  cases s
  cases t
  simp_all

end Leaf

end ToolPipeline
