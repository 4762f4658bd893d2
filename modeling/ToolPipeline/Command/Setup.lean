import ToolPipeline.Command.Error
import ToolPipeline.Log.Entry
import ToolPipeline.Tool.Registry

/-! What comes before every command: the settings are loaded, what the arguments say is put over
them, and it is decided what is logged. -/

namespace ToolPipeline

structure Surroundings where
  read : String → Except FileFault (List UInt8)
  environment : List (String × String)

namespace Surroundings

/-- The file at a path, if there is one that could be read or not. -/
def file? (around : Surroundings) (path : String) : Option (Except FileFault (List UInt8)) :=
  if Path.isDevice path then none
  else
    match around.read path with
    | .ok octets => some (.ok octets)
    | .error (.unreadable m) => some (.error (.unreadable m))
    | .error _ => none

/-- The settings file at a path. At a relative one it is looked for in all directories from where
the command runs up to the root, and the first one found is taken. -/
def settingsFile? (around : Surroundings) (path : String) :
    Except SettingsError (Option SourceFile) :=
  let levels := if Path.isAbsolute path then 1 else Path.deepest
  let found := (List.range levels).findSome? fun up =>
    (around.file? (Path.above up path)).map (Path.normal (Path.above up path), ·)
  match found with
  | none => .ok none
  | some (path, .ok octets) => .ok (some ⟨path, octets⟩)
  | some (path, .error f) => .error (.fileUnreadable path f)

end Surroundings

inductive Notice where
  | entry (e : Log.Entry)
  | text (s : String)

structure Report where
  exit : Nat
  output : String
  notices : List Notice
  /-- Whether entries are written in JSON. -/
  inJson : Bool

structure Setup where
  command : Command
  settings : Settings
  filter : Log.Filter
  notices : List Notice

namespace CommandLine

def load (l : CommandLine) (around : Surroundings) : Except CommandError Settings := do
  let path := l.settings.getD (Settings.standardPath (around.environment.lookup "HOME"))
  let loaded := (around.settingsFile? path).bind fun file => Settings.load file around.environment
  let s ← loaded.mapError (CommandError.settings l.settings)
  let s := { s with logging.level := l.logLevel.getD s.logging.level }
  return { s with plugins.enableDebug := l.debugPlugins || s.plugins.enableDebug }

/-- Prepares a command. The plugins are registered already. -/
def prepare (l : CommandLine) (around : Surroundings) : Except CommandError Setup := do
  let s ← l.load around
  let override := around.environment.lookup "RUST_LOG"
  let (filter, complaints) := Log.Filter.choose override s.logging.level
  let registered := Log.outside (Registry.standardEvents s.plugins.enableDebug)
  return ⟨l.command, s, filter, complaints.map .text ++ (filter.entries registered).map .entry⟩

end CommandLine

namespace Setup

def registry (s : Setup) : Registry := Registry.standard s.settings.plugins.enableDebug

def logged (s : Setup) (os : List Log.Occurrence) : List Notice :=
  (s.filter.entries os).map .entry

def success (s : Setup) (output : String) (os : List Log.Occurrence) : Report :=
  ⟨0, output, s.notices ++ s.logged os, s.settings.logging.json⟩

def failure (s : Setup) (e : CommandError) (os : List Log.Occurrence) : Report :=
  ⟨1, "", s.notices ++ s.logged os ++ [.text e.report], s.settings.logging.json⟩

end Setup

end ToolPipeline
