import ToolPipeline.File.Tree
import ToolPipeline.Settings.Basic
import ToolPipeline.Settings.Environment
import ToolPipeline.Settings.File

/-! Loading settings: the defaults, over them the settings file if there is one, over that the
environment; then the ranges are checked. -/

namespace ToolPipeline

open Json

/-- A file with the path under which messages show it. -/
structure SourceFile where
  path : String
  octets : List UInt8

inductive SettingsError where
  | fileUnreadable (path : String) (f : FileFault)
  | fileNotText (path : String)
  | fileNotObject (path : String) (f : Failure)
  /-- A part that has not the type it is asked to have; where it was set is said if that is known,
  and whether it is a number with a sign. -/
  | misfit (origin : Option Origin) (signed : Bool) (m : Misfit)
  | range (e : RangeError)

namespace Origin

def place : Origin → String
  | .defaults => "the defaults"
  | .file path => path ++ " JSON file"
  | .environment => "`VISTA_` environment variable(s)"

def stepName : Step → String
  | .key name => name
  | .index i => toString i
  | .unknown => "?"

def keyText (origin : Origin) (path : List Step) : String :=
  match origin with
  | .environment => ".".intercalate (path.map fun step => (stepName step).map Char.toUpper)
  | _ => ".".intercalate ("default" :: path.map stepName)

end Origin

namespace SettingsError

def describe (signed : Bool) : Found → String
  | .null => "unit"
  | .bool b => "bool " ++ String.ofList (boolText b)
  | .integer n =>
    (if signed then "signed" else "unsigned")
      ++ " int `" ++ String.ofList (Decimal.intDigits n) ++ "`"
  | .float x => "float `" ++ String.ofList (Decimal.Layout.plain.float x) ++ "`"
  | .string s => "string " ++ Text.quote s
  | .sequence => "sequence"
  | .map => "map"

def mismatchText (signed : Bool) : Mismatch → String
  | .wrongType found expected =>
    "invalid type: found " ++ describe signed found ++ ", expected " ++ expected
  | .wrongValue found expected =>
    "invalid value " ++ describe signed found ++ ", expected " ++ expected
  | m => m.message

/-- Whether the settings could not be loaded, as opposed to having a value out of range. -/
def isLoad : SettingsError → Bool
  | .range _ => false
  | _ => true

def message : SettingsError → String
  | .fileUnreadable path f =>
    "failed to load settings: " ++ f.message ++ " in " ++ (Origin.file path).place
  | .fileNotText path =>
    "failed to load settings: stream did not contain valid UTF-8 in " ++ (Origin.file path).place
  | .fileNotObject path f =>
    "failed to load settings: " ++ f.message ++ " in " ++ (Origin.file path).place
  | .misfit none signed m => "failed to load settings: " ++ mismatchText signed m.mismatch
  | .misfit (some origin) signed m =>
    "failed to load settings: " ++ mismatchText signed m.mismatch
      ++ " for key " ++ Text.quote (origin.keyText m.path) ++ " in " ++ origin.place
  | .range e => "invalid settings value: " ++ e.message

end SettingsError

namespace Settings

def fileLayer (file : SourceFile) : Except SettingsError Layer :=
  match textOfOctets? file.octets with
  | none => .error (.fileNotText file.path)
  | some text =>
    match SettingsFile.parse text with
    | .error f => .error (.fileNotObject file.path f)
    | .ok members => .ok ⟨.file file.path, members⟩

def defaultLayer : Layer :=
  ⟨.defaults, [("server", .ofJson (serverJson default.server)),
    ("pipeline", .ofJson (pipelineJson default.pipeline)),
    ("logging", .ofJson (loggingJson default.logging)),
    ("plugins", .ofJson (pluginsJson default.plugins))]⟩

def layers (file : Option SourceFile) (environment : List (String × String)) :
    Except SettingsError (List Layer) :=
  match file with
  | none => .ok [defaultLayer, Environment.layer environment]
  | some file =>
    (fileLayer file).map fun layer => [defaultLayer, layer, Environment.layer environment]

def ofLayers (layers : List Layer) : Except SettingsError Settings :=
  let merged := Layer.merge layers
  match shape.check merged.toValue with
  | .error m =>
    let part := merged.at? m.path
    .error (.misfit (part.bind fun d => Layer.origin? layers d.mark) (part.any Datum.isSigned) m)
  | .ok v =>
    let s := ofValue v
    match s.rangeError? with
    | some e => .error (.range e)
    | none => .ok s

def load (file : Option SourceFile) (environment : List (String × String)) :
    Except SettingsError Settings :=
  (layers file environment).bind ofLayers

/-- Where the settings file is kept; `home` is the home directory, if one is known. -/
def standardPath (home : Option String) : String :=
  Path.join (Path.join (home.getD "/tmp") ".vista") "settings.json"

end Settings

end ToolPipeline
