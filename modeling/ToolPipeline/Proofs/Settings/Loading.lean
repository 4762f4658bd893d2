import ToolPipeline.Proofs.Success
import ToolPipeline.Settings.Load

/-! What loading settings comes to: their layers are merged, the whole is read as settings, and the
ranges are checked. -/

namespace ToolPipeline.Settings

variable {s : Settings} {layers : List Layer}

structure InRange (s : Settings) : Prop where
  frames : 1 ≤ s.server.maxFramesInFlight.toNat
  messages : 1024 ≤ s.server.maxMessageSize.toNat
  heartbeat : 1 ≤ s.server.heartbeatIntervalSecs.toNat

theorem rangeError?_eq (s : Settings) : s.rangeError? =
    if s.server.maxFramesInFlight.toNat < 1 then some .noFrames
    else if s.server.maxMessageSize.toNat < 1024 then some .smallMessages
    else if s.server.heartbeatIntervalSecs.toNat < 1 then some .noHeartbeat
    else none := by
  have hzero (n : UInt64) : n = 0 ↔ n.toNat < 1 := by
    rw [← UInt64.toNat_inj, Nat.lt_one_iff]
    rfl
  have hless (n : UInt64) : n < 1024 ↔ n.toNat < 1024 := UInt64.lt_iff_toNat_lt
  simp only [rangeError?, hzero, hless]

theorem rangeError?_eq_none_iff : s.rangeError? = none ↔ s.InRange := by
  rw [rangeError?_eq]
  constructor
  · intro h
    split at h
    · cases h
    · split at h
      · cases h
      · split at h
        · cases h
        · exact ⟨by omega, by omega, by omega⟩
  · rintro ⟨hf, hm, hh⟩
    rw [if_neg (by omega), if_neg (by omega), if_neg (by omega)]

theorem ofLayers_of_inRange {v : Json.Value}
    (h : shape.check (Layer.merge layers).toValue = .ok v) (hr : (ofValue v).rangeError? = none) :
    ofLayers layers = .ok (ofValue v) := by
  simp only [ofLayers, h, hr]

theorem ofLayers_of_rangeError {v : Json.Value} {e : RangeError}
    (h : shape.check (Layer.merge layers).toValue = .ok v)
    (hr : (ofValue v).rangeError? = some e) : ofLayers layers = .error (.range e) := by
  simp only [ofLayers, h, hr]

theorem ofLayers_of_misfit {m : Json.Misfit}
    (h : shape.check (Layer.merge layers).toValue = .error m) :
    ∃ origin signed, ofLayers layers = .error (.misfit origin signed m) := by
  simp only [ofLayers, h]
  exact ⟨_, _, rfl⟩

theorem inRange_of_load {file : Option SourceFile} {environment : List (String × String)}
    (h : load file environment = .ok s) : s.InRange := by
  obtain ⟨layers, -, h⟩ := bind_eq_ok_iff.mp h
  cases hv : shape.check (Layer.merge layers).toValue with
  | error m =>
    obtain ⟨origin, signed, he⟩ := ofLayers_of_misfit hv
    rw [he] at h
    cases h
  | ok v =>
    cases hr : (ofValue v).rangeError? with
    | some e =>
      rw [ofLayers_of_rangeError hv hr] at h
      cases h
    | none =>
      rw [ofLayers_of_inRange hv hr] at h
      cases h
      exact rangeError?_eq_none_iff.mp hr

end ToolPipeline.Settings
