import Std.Http.Server
import Std.Async.Signal
import ToolPipeline.Command.Perform
import ToolPipeline.Moment.RunId
import ToolPipeline.Moment.Stamp
import ToolPipeline.Server.Session

/-! The program: it reads files and variables, performs a command, writes what there is to write,
and as a server answers requests until it is interrupted. -/

namespace ToolPipeline.Program

def isThere (path : String) : IO Bool := do
  try
    let _ ← IO.FS.realPath path
    return true
  catch _ => return false

def faultOf (there : Bool) : IO.Error → FileFault
  | .noFileOrDirectory .. => .notFound
  | .inappropriateType .. => .isDirectory
  | e =>
    let message := match e with
      | .permissionDenied .. => "Permission denied (os error 13)"
      | e => toString e
    if there then .unreadable message else .unreachable message

def readFile (path : String) : IO (Except FileFault (List UInt8)) := do
  try
    return .ok (← IO.FS.readBinFile path).toList
  catch e => return .error (faultOf (← isThere path) e)

def variableOf (entry : List Char) : Option (String × String) :=
  (Text.splitAt? ['='] entry).map fun v => (String.ofList v.1, String.ofList v.2)

def environment : IO (List (String × String)) := do
  match ← readFile "/proc/self/environ" with
  | .error _ => return []
  | .ok octets =>
    let text := (textOfOctets? octets).getD ""
    return (Text.splitWhere (· == '\x00') text.toList).filterMap variableOf

/-- The paths at which a command looks for files, so many levels below the root. -/
def pathsOf (l : CommandLine) (home : Option String) (depth : Nat) : List String :=
  let settings := l.settings.getD (Settings.standardPath home)
  let levels := if Path.isAbsolute settings then 1 else depth + 1
  let payloads := match l.command with
    | .run _ _ (.file path) _ => [path]
    | _ => []
  (List.range levels).map (Path.above · settings) ++ payloads

def surroundings (arguments : List String) : IO Surroundings := do
  let environment ← environment
  let depth := (Path.names (toString (← IO.currentDir))).length
  let paths := match Arguments.read arguments with
    | .ok l => pathsOf l (environment.lookup "HOME") depth
    | .error _ => []
  let files ← paths.mapM fun path => return (path, ← readFile path)
  return ⟨fun path => (files.lookup path).getD (.error .notFound), environment⟩

def moment : IO Nat := return (← Std.Time.Timestamp.now).toMillisecondsSinceUnixEpoch.val.toNat

def newRunId : IO String :=
  return Moment.runId (← moment) (← IO.getRandomBytes 10).toList

def lineOf (json : Bool) (stamp : String) (e : Log.Entry) : String :=
  if json then (e.stamped stamp).compact else stamp ++ " " ++ e.plainText

def writeEntries (s : Setup) (entries : List Log.Entry) : IO Unit := do
  let stamp := Moment.stamp (← moment)
  entries.forM fun e => IO.eprintln (lineOf s.settings.logging.json stamp e)

def writeNotice (json : Bool) (stamp : String) : Notice → IO Unit
  | .entry e => IO.eprintln (lineOf json stamp e)
  | .text s => IO.eprintln s

def writeReport (r : Report) : IO UInt32 := do
  let stamp := Moment.stamp (← moment)
  r.notices.forM (writeNotice r.inJson stamp)
  IO.print r.output
  return UInt32.ofNat r.exit

def addressesOf (host : String) (port : UInt16) : IO (Array Std.Net.SocketAddress) := do
  let found ← (Std.Async.DNS.getAddrInfo host "").block
  return found.map fun
    | .v4 a => .v4 ⟨a, port⟩
    | .v6 a => .v6 ⟨a, port⟩

def requestOf (r : Std.Http.Request Std.Http.Body.Stream) (body : ByteArray) : Http.Request :=
  let headers := r.line.headers.toList.map fun h => (h.1.value, h.2.value)
  ⟨toString r.line.method, Http.pathOf (toString r.line.uri), headers, body.toList⟩

def responseOf (r : Http.Response) : Std.Http.Response.Builder :=
  let status := Std.Http.Status.ofCode none (UInt16.ofNat r.status)
  let start := Std.Http.Response.withStatus (status.getD .internalServerError)
  let headers := r.headers.filter fun h => h.1 ≠ "content-length"
  headers.foldl (fun b h => (b.header? h.1 h.2).getD b) start

def answer (s : Setup) (session : IO.Ref Session) (start : Nat)
    (r : Std.Http.Request Std.Http.Body.Stream) :
    Std.Async.ContextAsync (Std.Http.Response Std.Http.Body.Any) := do
  let limit := (← session.get).server.config.maxMessageSize
  let body : ByteArray ← r.body.readAll (some (limit + 1))
  let now := (← IO.monoMsNow) - start
  let request := requestOf r body
  let names : RunNames := ⟨← newRunId, toString (← session.get).requests⟩
  let (response, happened) ← session.modifyGet fun session =>
    let session := { session with world.now := now, occurrences := [] }
    let (response, session) := session.request names none request
    ((response, session.occurrences), session)
  writeEntries s (s.filter.entries happened)
  let response := response.getD ⟨500, [], ""⟩
  let full ← Std.Http.Body.Full.ofString response.body
  return (responseOf response).body (Std.Http.Body.Any.ofBody full)

def serveAt (s : Setup) (config : ServerConfig) (address : Std.Net.SocketAddress) : IO UInt32 := do
  let start ← IO.monoMsNow
  let began ← moment
  let world := { World.initial with clock := fun ms => Moment.stamp (began + ms) }
  let session ← IO.mkRef (Session.start ⟨Engine.new s.registry, config⟩ world)
  let handler : Std.Http.Server.StatelessHandler :=
    ⟨answer s session start, fun _ => pure (), fun _ => pure true⟩
  let http ← (Std.Http.Server.serve address handler).block
  let shown := toString (http.localAddr.getD address)
  writeEntries s (s.filter.entries (Log.outside (Service.began shown s.registry.ids.length)))
  let signal ← Std.Async.Signal.Waiter.mk .sigint false
  let _ ← (← signal.wait).block
  session.modify Session.shutdown
  let before ← IO.monoMsNow
  http.shutdownAndWait.block
  let after := (← IO.monoMsNow) - before
  writeEntries s (s.filter.entries (Log.outside (Service.ended after)))
  return 0

def serve (s : Setup) (config : ServerConfig) : IO UInt32 := do
  try
    let addresses ← addressesOf config.host config.port
    let some address := addresses[0]? | throw (IO.userError "no address")
    let _ ← writeReport (s.success "" [])
    serveAt s config address
  catch e => writeReport (s.notBound (toString e))

def usage : String := "usage: vista [--settings PATH] [--log-level LEVEL] [--debug-plugins]
  serve [--host HOST] [--port PORT]
  run --plugin ID --tools NAME,... [--payload JSON | --payload-file PATH] [--result-only]
  plugins"

end ToolPipeline.Program

open ToolPipeline Program in
def main (arguments : List String) : IO UInt32 := do
  let around ← surroundings arguments
  let began ← moment
  let world := { World.initial with clock := fun ms => Moment.stamp (began + ms) }
  match perform arguments around (← newRunId) world with
  | .help =>
    IO.println usage
    return 0
  | .usage =>
    IO.eprintln usage
    return 2
  | .done r => writeReport r
  | .serving s config => serve s config
