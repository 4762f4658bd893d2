import ToolPipeline.Settings.Basic
import ToolPipeline.Tool.Basic

/-! What a server needs to know before it starts. -/

namespace ToolPipeline

/-- Time limits are in milliseconds. -/
structure ServerConfig where
  host : String
  port : UInt16
  maxMessageSize : UInt64
  heartbeatIntervalSecs : UInt64
  maxFramesInFlight : UInt64
  restTimeout : Option UInt64
  frameTimeout : Option UInt64
  deriving DecidableEq, Repr

namespace ServerConfig

/-- Port zero stands for any free port. -/
def default : ServerConfig := ⟨"127.0.0.1", 0, 16777216, 30, 4, some 30000, some 2000⟩

def limit (ms : UInt64) : Option UInt64 := if ms = 0 then none else some ms

def ofSettings (s : Settings) : ServerConfig where
  host := s.server.host
  port := s.server.port
  maxMessageSize := s.server.maxMessageSize
  heartbeatIntervalSecs := s.server.heartbeatIntervalSecs
  maxFramesInFlight := s.server.maxFramesInFlight
  restTimeout := limit s.pipeline.restTimeoutMs
  frameTimeout := limit s.pipeline.frameTimeoutMs

def bindAddress (c : ServerConfig) : String := c.host ++ ":" ++ toString c.port.toNat

def heartbeatSecs (c : ServerConfig) : Nat := max c.heartbeatIntervalSecs.toNat 1

/-- The seconds of silence after which a client counts as gone: two pings. A span of time holds less
than 2^64 seconds. -/
def pongTimeoutSecs (c : ServerConfig) : Except Panic Nat :=
  if 2 * c.heartbeatSecs < Nat.pow 2 64 then .ok (2 * c.heartbeatSecs)
  else .error (.text "overflow when multiplying duration by scalar")

/-- More slots than that cannot be counted. -/
def mostSlots : Nat := Nat.pow 2 61 - 1

def slots (c : ServerConfig) : Except Panic Nat :=
  let slots := max c.maxFramesInFlight.toNat 1
  if slots ≤ mostSlots then .ok slots
  else
    .error <| .text <| "a semaphore may not have more than MAX_PERMITS permits ("
      ++ toString mostSlots ++ ")"

end ServerConfig

end ToolPipeline
