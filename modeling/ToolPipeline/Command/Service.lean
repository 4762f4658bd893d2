import ToolPipeline.Command.Setup
import ToolPipeline.Server.Config
import ToolPipeline.Server.Shutdown

/-! A server that is run as a command: it is there until it is interrupted. -/

namespace ToolPipeline

namespace Service

def began (address : String) (plugins : Nat) : List Log.Event :=
  [⟨.info, "vista_server::server", "vista server listening",
      [("addr", .text address), ("plugins", .nat plugins)]⟩,
    ⟨.info, "vista", "press ctrl-c to stop", [("addr", .text address)]⟩]

def interrupted : Log.Event := ⟨.info, "vista", "shutting down", []⟩

def stopped : Log.Event := ⟨.info, "vista_server::server", "vista server stopped", []⟩

/-- What is logged from the interruption on; the server is the one task to wait for, and it ends
after the time given. -/
def ended (after : Nat) : List Log.Event :=
  let drain := Shutdown.drain [some after] none
  interrupted :: (drain.events ++ if drain.timedOut then [] else [stopped])

end Service

namespace Setup

def serverConfig (s : Setup) (host : Option String) (port : Option UInt16) : ServerConfig :=
  let config := ServerConfig.ofSettings s.settings
  { config with host := host.getD config.host, port := port.getD config.port }

/-- The report of a server that listened at an address until it was interrupted, and then ended
after the time given. -/
def serve (s : Setup) (address : String) (after : Nat) : Report :=
  s.success "" <| Log.outside <|
    Service.began address s.registry.ids.length ++ Service.ended after

def notBound (s : Setup) (reason : String) : Report := s.failure (.notBound reason) []

end Setup

end ToolPipeline
