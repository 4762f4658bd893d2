import ToolPipeline.Proofs.Server.ConnectionMoves
import ToolPipeline.Proofs.Settings.Loading

/-! Servers of loaded settings. Their pings, slots and time limits are as set, but values that are
too large for a clock or for a count of slots are loaded all the same. -/

namespace ToolPipeline

/-- Connections can count the silence of two pings, and their slots. -/
structure Settings.Countable (s : Settings) : Prop where
  pings : s.server.heartbeatIntervalSecs.toNat < Nat.pow 2 63
  slots : s.server.maxFramesInFlight.toNat ≤ ServerConfig.mostSlots

instance (s : Settings) : Decidable s.Countable :=
  decidable_of_iff
    (s.server.heartbeatIntervalSecs.toNat < Nat.pow 2 63 ∧
      s.server.maxFramesInFlight.toNat ≤ ServerConfig.mostSlots)
    ⟨fun h => ⟨h.1, h.2⟩, fun h => ⟨h.pings, h.slots⟩⟩

namespace ServerConfig

variable {s : Settings}

theorem heartbeatSecs_of_inRange (h : s.InRange) :
    (ofSettings s).heartbeatSecs = s.server.heartbeatIntervalSecs.toNat :=
  Nat.max_eq_left h.heartbeat

theorem pongTimeoutSecs_of_inRange (h : s.InRange) :
    (ofSettings s).pongTimeoutSecs =
      if s.server.heartbeatIntervalSecs.toNat < Nat.pow 2 63
      then .ok (2 * s.server.heartbeatIntervalSecs.toNat)
      else .error (.text "overflow when multiplying duration by scalar") := by
  have hpow : Nat.pow 2 64 = 2 * Nat.pow 2 63 := rfl
  simp only [pongTimeoutSecs, heartbeatSecs_of_inRange h, hpow, Nat.mul_lt_mul_left,
    Nat.zero_lt_two]

theorem slots_of_inRange (h : s.InRange) :
    (ofSettings s).slots =
      if s.server.maxFramesInFlight.toNat ≤ mostSlots then .ok s.server.maxFramesInFlight.toNat
      else .error (.text ("a semaphore may not have more than MAX_PERMITS permits ("
        ++ toString mostSlots ++ ")")) := by
  have hmax : max (ofSettings s).maxFramesInFlight.toNat 1 = s.server.maxFramesInFlight.toNat :=
    Nat.max_eq_left h.frames
  simp only [slots, hmax]

/-- The last moment of a clock that counts seconds in 63 bits. -/
def lastMoment : Nat := 1000 * Nat.pow 2 63 - 1

/-- A deadline that many milliseconds from now, of which zero are none, is not beyond the clock. -/
structure Limits (ms : UInt64) (now : Nat) (deadline : Option Nat) : Prop where
  eq : deadline = if ms = 0 then none else some (now + ms.toNat)
  inTime : ∀ d, deadline = some d → now + Nat.pow 2 64 ≤ lastMoment → d ≤ lastMoment

theorem limits_withTimeout {o : Options} (ho : o.deadline = none) (ms : UInt64) (now : Nat) :
    Limits ms now (o.withTimeout now ((limit ms).map UInt64.toNat)).deadline := by
  have heq : (o.withTimeout now ((limit ms).map UInt64.toNat)).deadline =
      if ms = 0 then none else some (now + ms.toNat) := by
    unfold limit
    split
    · exact ho
    · rfl
  refine ⟨heq, fun d hd hn => ?_⟩
  have hms : ms.toNat < Nat.pow 2 64 := ms.toNat_lt
  rw [heq] at hd
  split at hd
  · cases hd
  · obtain rfl := Option.some.inj hd
    omega

end ServerConfig

namespace Connection

variable {c : ServerConfig} {token : Token}

theorem opened_of_ok {secs slots : Nat} (hp : c.pongTimeoutSecs = .ok secs)
    (hs : c.slots = .ok slots) : opened c token = .ok (.start token slots) := by
  simp only [opened, hp, hs, bind, Except.bind, pure, Except.pure]

theorem opened_of_silence {p : Panic} (hp : c.pongTimeoutSecs = .error p) :
    opened c token = .error p := by
  simp only [opened, hp, bind, Except.bind]

theorem opened_of_slots {secs : Nat} {p : Panic} (hp : c.pongTimeoutSecs = .ok secs)
    (hs : c.slots = .error p) : opened c token = .error p := by
  simp only [opened, hp, hs, bind, Except.bind]

end Connection

/-- What connections and runs of a server make of settings that were loaded. -/
structure Settings.Served (s : Settings) (c : ServerConfig) : Prop where
  heartbeat : c.heartbeatSecs = s.server.heartbeatIntervalSecs.toNat ∧ 1 ≤ c.heartbeatSecs
  messages : c.maxMessageSize = s.server.maxMessageSize ∧ 1024 ≤ c.maxMessageSize.toNat
  opened : s.Countable → c.pongTimeoutSecs = .ok (2 * c.heartbeatSecs) ∧
    2 * c.heartbeatSecs ≤ Nat.pow 2 64 - 1 ∧
    ∃ slots, c.slots = .ok slots ∧ slots = s.server.maxFramesInFlight.toNat ∧
      1 ≤ slots ∧ slots ≤ ServerConfig.mostSlots ∧
      ∀ token, Connection.opened c token = .ok (.start token slots)
  /-- Nothing else keeps a connection from being opened, and this always does. -/
  broken : ¬ s.Countable → ∃ p, ∀ token, Connection.opened c token = .error p
  requests : ∀ token now,
    ServerConfig.Limits s.pipeline.restTimeoutMs now (Rest.options c token now).deadline
  frames : ∀ token now,
    ServerConfig.Limits s.pipeline.frameTimeoutMs now (Frame.options c token now).deadline

/-- Of the settings that are loaded, those that are countable never make a connection panic, and all
others always do. -/
theorem connections_of_loaded_settings {file : Option SourceFile}
    {environment : List (String × String)} {s : Settings}
    (h : Settings.load file environment = .ok s) : s.Served (.ofSettings s) := by
  have hr := Settings.inRange_of_load h
  have hheart := ServerConfig.heartbeatSecs_of_inRange hr
  have hpong := ServerConfig.pongTimeoutSecs_of_inRange hr
  have hslots := ServerConfig.slots_of_inRange hr
  refine ⟨⟨hheart, hheart ▸ hr.heartbeat⟩, ⟨rfl, hr.messages⟩, fun hc => ?_, fun hc => ?_,
    fun token now => ServerConfig.limits_withTimeout rfl _ now,
    fun token now => ServerConfig.limits_withTimeout rfl _ now⟩
  · rw [if_pos hc.pings] at hpong
    rw [if_pos hc.slots] at hslots
    have hpow : Nat.pow 2 64 = 2 * Nat.pow 2 63 := rfl
    have hpings := hc.pings
    exact ⟨hheart ▸ hpong, by omega, _, hslots, rfl, hr.frames, hc.slots,
      fun token => Connection.opened_of_ok hpong hslots⟩
  · by_cases hp : s.server.heartbeatIntervalSecs.toNat < Nat.pow 2 63
    · have hs : ¬ s.server.maxFramesInFlight.toNat ≤ ServerConfig.mostSlots :=
        fun hs => hc ⟨hp, hs⟩
      rw [if_pos hp] at hpong
      rw [if_neg hs] at hslots
      exact ⟨_, fun token => Connection.opened_of_slots hpong hslots⟩
    · rw [if_neg hp] at hpong
      exact ⟨_, fun token => Connection.opened_of_silence hpong⟩

/-- Two frames at once, and requests without a limit. -/
theorem connections_of_loaded_settings_two_frames :
    let environment := [("VISTA_SERVER__MAX_FRAMES_IN_FLIGHT", "2"),
      ("VISTA_PIPELINE__REST_TIMEOUT_MS", "0")]
    ∃ s, Settings.load none environment = .ok s ∧ s.Countable ∧ s.Served (.ofSettings s) ∧
      Connection.opened (.ofSettings s) [] = .ok (.start [] 2) ∧
      (Rest.options (.ofSettings s) [] 5).deadline = none ∧
      (Frame.options (.ofSettings s) [] 5).deadline = some 2005 := by
  intro environment
  let s : Settings :=
    { Settings.default with
      server := { Settings.default.server with maxFramesInFlight := 2 }
      pipeline := { Settings.default.pipeline with restTimeoutMs := 0 } }
  have hload : (Settings.load none environment).toOption = some s := by decide +kernel
  have h := toOption_eq_some_iff.mp hload
  have hc : s.Countable := by decide
  have hs := connections_of_loaded_settings h
  obtain ⟨-, -, slots, -, rfl, -, -, hopened⟩ := hs.opened hc
  exact ⟨s, h, hc, hs, hopened [], (hs.requests [] 5).eq, (hs.frames [] 5).eq⟩

/-- Seconds between two pings that cannot be doubled, and slots that cannot be counted, are loaded.
-/
theorem loaded_settings_may_panic :
    (∃ s, Settings.load none
        [("VISTA_SERVER__HEARTBEAT_INTERVAL_SECS", "9223372036854775808")] = .ok s ∧
      (ServerConfig.ofSettings s).pongTimeoutSecs =
        .error (.text "overflow when multiplying duration by scalar") ∧
      Connection.opened (.ofSettings s) [] =
        .error (.text "overflow when multiplying duration by scalar")) ∧
    ∃ s, Settings.load none
        [("VISTA_SERVER__MAX_FRAMES_IN_FLIGHT", "2305843009213693952")] = .ok s ∧
      Connection.opened (.ofSettings s) [] = .error (.text
        "a semaphore may not have more than MAX_PERMITS permits (2305843009213693951)") := by
  let slow : Settings :=
    { Settings.default with
      server := { Settings.default.server with heartbeatIntervalSecs := 9223372036854775808 } }
  let wide : Settings :=
    { Settings.default with
      server := { Settings.default.server with maxFramesInFlight := 2305843009213693952 } }
  have hslow : (Settings.load none
      [("VISTA_SERVER__HEARTBEAT_INTERVAL_SECS", "9223372036854775808")]).toOption = some slow := by
    decide +kernel
  have hwide : (Settings.load none
      [("VISTA_SERVER__MAX_FRAMES_IN_FLIGHT", "2305843009213693952")]).toOption = some wide := by
    decide +kernel
  exact ⟨⟨slow, toOption_eq_some_iff.mp hslow, rfl, rfl⟩, wide, toOption_eq_some_iff.mp hwide, rfl⟩

end ToolPipeline
