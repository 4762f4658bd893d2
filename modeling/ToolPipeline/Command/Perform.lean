import ToolPipeline.Command.Run
import ToolPipeline.Command.Service

/-! From the arguments of a command to what it prints. -/

namespace ToolPipeline

/-- What is to be done for arguments. A server needs more than can be said in advance. -/
inductive Performance where
  | help
  | usage
  | done (r : Report)
  | serving (s : Setup) (config : ServerConfig)

namespace CommandLine

def perform (l : CommandLine) (around : Surroundings) (runId : String) (w : World) : Performance :=
  match l.prepare around with
  | .error e => .done ⟨1, "", [.text e.report], false⟩
  | .ok s =>
    match s.command with
    | .serve host port => .serving s (s.serverConfig host port)
    | .plugins => .done (s.success (s.registry.toJson.pretty ++ "\n") [])
    | .run plugin tools payload resultOnly =>
      .done (s.run around runId w plugin tools payload resultOnly)

end CommandLine

def perform (arguments : List String) (around : Surroundings) (runId : String) (w : World) :
    Performance :=
  match Arguments.read arguments with
  | .error .helpWanted => .help
  | .error .wrong => .usage
  | .ok l => l.perform around runId w

end ToolPipeline
