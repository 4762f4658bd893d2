import ToolPipeline.Json.Printer

/-! The state of a server at a glance. -/

namespace ToolPipeline

structure Health where
  uptimeSecs : Nat
  connections : Nat
  plugins : Nat
  shuttingDown : Bool

namespace Health

def status (h : Health) : String := if h.shuttingDown then "shutting_down" else "ok"

def toJson (h : Health) : Json :=
  .object [("status", .string h.status), ("uptime_secs", .number (.int h.uptimeSecs)),
    ("connections", .number (.int h.connections)), ("plugins", .number (.int h.plugins))]

end Health

end ToolPipeline
