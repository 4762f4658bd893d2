import ToolPipeline.Pipeline.Request

/-! The settings of the program: four sections of ten values in all. -/

namespace ToolPipeline

open Json

structure ServerSettings where
  host : String
  port : UInt16
  maxMessageSize : UInt64
  heartbeatIntervalSecs : UInt64
  maxFramesInFlight : UInt64
  deriving DecidableEq, Repr

/-- Time limits in milliseconds; zero stands for no limit. -/
structure PipelineSettings where
  restTimeoutMs : UInt64
  frameTimeoutMs : UInt64
  deriving DecidableEq, Repr

structure LoggingSettings where
  level : String
  json : Bool
  deriving DecidableEq, Repr

structure PluginSettings where
  enableDebug : Bool
  deriving DecidableEq, Repr

structure Settings where
  server : ServerSettings
  pipeline : PipelineSettings
  logging : LoggingSettings
  plugins : PluginSettings
  deriving DecidableEq, Repr

namespace Settings

def default : Settings where
  server := ⟨"127.0.0.1", 8700, 16777216, 30, 4⟩
  pipeline := ⟨30000, 2000⟩
  logging := ⟨"info", false⟩
  plugins := ⟨false⟩

def natJson (n : Nat) : Json := .number (.int n)

def serverJson (s : ServerSettings) : Json :=
  .object [("host", .string s.host), ("port", natJson s.port.toNat),
    ("max_message_size", natJson s.maxMessageSize.toNat),
    ("heartbeat_interval_secs", natJson s.heartbeatIntervalSecs.toNat),
    ("max_frames_in_flight", natJson s.maxFramesInFlight.toNat)]

def pipelineJson (s : PipelineSettings) : Json :=
  .object [("rest_timeout_ms", natJson s.restTimeoutMs.toNat),
    ("frame_timeout_ms", natJson s.frameTimeoutMs.toNat)]

def loggingJson (s : LoggingSettings) : Json :=
  .object [("level", .string s.level), ("json", .bool s.json)]

def pluginsJson (s : PluginSettings) : Json := .object [("enable_debug", .bool s.enableDebug)]

/-- Sections and values in the order in which they are declared. -/
def toJson (s : Settings) : Json :=
  .object [("server", serverJson s.server), ("pipeline", pipelineJson s.pipeline),
    ("logging", loggingJson s.logging), ("plugins", pluginsJson s.plugins)]

def naturalField (name : String) (type : String) (most default : Nat) (rest : Fields) : Fields :=
  .cons name (.natural type most) (some (.int default)) rest

def textField (name default : String) (rest : Fields) : Fields :=
  .cons name .string (some (.string default)) rest

def flagField (name : String) (default : Bool) (rest : Fields) : Fields :=
  .cons name .boolean (some (.bool default)) rest

def word : Nat := Nat.pow 2 64 - 1

def serverShape : Shape :=
  .record "ServerSettings" <|
    textField "host" default.server.host <|
    naturalField "port" "u16" (Nat.pow 2 16 - 1) default.server.port.toNat <|
    naturalField "max_message_size" "usize" word default.server.maxMessageSize.toNat <|
    naturalField "heartbeat_interval_secs" "u64" word
      default.server.heartbeatIntervalSecs.toNat <|
    naturalField "max_frames_in_flight" "usize" word default.server.maxFramesInFlight.toNat .nil

def pipelineShape : Shape :=
  .record "PipelineSettings" <|
    naturalField "rest_timeout_ms" "u64" word default.pipeline.restTimeoutMs.toNat <|
    naturalField "frame_timeout_ms" "u64" word default.pipeline.frameTimeoutMs.toNat .nil

def loggingShape : Shape :=
  .record "LoggingSettings" <|
    textField "level" default.logging.level <| flagField "json" default.logging.json .nil

def pluginsShape : Shape :=
  .record "PluginSettings" <| flagField "enable_debug" default.plugins.enableDebug .nil

/-- The default of a section is the object of the defaults of its values. -/
def sectionField (name : String) (shape : Shape) (rest : Fields) : Fields :=
  .cons name shape (shape.check Object.empty.toValue).toOption rest

def shape : Shape :=
  .record "VistaSettings" <|
    sectionField "server" serverShape <| sectionField "pipeline" pipelineShape <|
    sectionField "logging" loggingShape <| sectionField "plugins" pluginsShape .nil

def naturalOf (o : Object) (key : String) : Nat :=
  (((o.get? key).bind Value.asInt?).getD 0).toNat

def flagOf (o : Object) (key : String) : Bool := ((o.get? key).bind Value.asBool?).getD false

def serverOf (o : Object) : ServerSettings where
  host := Json.textField o "host"
  port := .ofNat (naturalOf o "port")
  maxMessageSize := .ofNat (naturalOf o "max_message_size")
  heartbeatIntervalSecs := .ofNat (naturalOf o "heartbeat_interval_secs")
  maxFramesInFlight := .ofNat (naturalOf o "max_frames_in_flight")

def pipelineOf (o : Object) : PipelineSettings where
  restTimeoutMs := .ofNat (naturalOf o "rest_timeout_ms")
  frameTimeoutMs := .ofNat (naturalOf o "frame_timeout_ms")

def loggingOf (o : Object) : LoggingSettings := ⟨Json.textField o "level", flagOf o "json"⟩

def pluginsOf (o : Object) : PluginSettings := ⟨flagOf o "enable_debug"⟩

def ofValue (v : Value) : Settings :=
  let o := v.asObject?.getD .empty
  ⟨serverOf (objectField o "server"), pipelineOf (objectField o "pipeline"),
    loggingOf (objectField o "logging"), pluginsOf (objectField o "plugins")⟩

/-- Reads settings from a text; their ranges are not checked. -/
def parse (s : String) : Except Failure Settings := (shape.parse s).map ofValue

end Settings

/-- Values that have the right type and yet are out of range, in the order of the checks. -/
inductive RangeError where
  | noFrames | smallMessages | noHeartbeat
  deriving DecidableEq, Repr

def RangeError.message : RangeError → String
  | .noFrames => "server.max_frames_in_flight must be at least 1"
  | .smallMessages => "server.max_message_size must be at least 1024 bytes"
  | .noHeartbeat => "server.heartbeat_interval_secs must be at least 1"

def Settings.rangeError? (s : Settings) : Option RangeError :=
  if s.server.maxFramesInFlight = 0 then some .noFrames
  else if s.server.maxMessageSize < 1024 then some .smallMessages
  else if s.server.heartbeatIntervalSecs = 0 then some .noHeartbeat
  else none

end ToolPipeline
