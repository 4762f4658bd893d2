import ToolPipeline.Decimal.Numeral
import ToolPipeline.Text.Split

/-! The arguments of a command. Options may stand on either side of the command's name where they
belong to all commands, and after it otherwise. -/

namespace ToolPipeline

inductive PayloadSource where
  | text (s : String)
  | file (path : String)
  deriving DecidableEq, Repr

inductive Command where
  | serve (host : Option String) (port : Option UInt16)
  | run (plugin : String) (tools : List String) (payload : PayloadSource) (resultOnly : Bool)
  | plugins
  deriving DecidableEq, Repr

structure CommandLine where
  settings : Option String
  logLevel : Option String
  debugPlugins : Bool
  command : Command
  deriving DecidableEq, Repr

inductive Unusable where
  | helpWanted
  | wrong
  deriving DecidableEq, Repr

namespace Arguments

inductive Taking where
  | nothing
  | text
  | path
  | port

structure OptionKind where
  name : String
  taking : Taking
  repeats : Bool

abbrev Given := List (String × String)

inductive Word where
  | name (s : String)
  | long (option : String) (value : Option String)
  | short (letters : List Char)
  | escape

namespace Word

def ofLong (s : List Char) : Word :=
  match Text.splitAt? ['='] s with
  | some (option, value) => .long (String.ofList option) (some (String.ofList value))
  | none => .long (String.ofList s) none

def ofArgument (s : String) : Word :=
  match s.toList with
  | ['-', '-'] => .escape
  | '-' :: '-' :: rest => ofLong rest
  | '-' :: letter :: rest => .short (letter :: rest)
  | _ => .name s

end Word

def port? (value : String) : Option UInt16 :=
  (Decimal.signed? value.toList).bind fun n =>
    if 0 ≤ n ∧ n.toNat < Nat.pow 2 16 then some (UInt16.ofNat n.toNat) else none

def Taking.accepts (t : Taking) (value : String) : Bool :=
  match t with
  | .nothing => false
  | .text => true
  | .path => value ≠ ""
  | .port => (port? value).isSome

/-- Adds an option with its value. Only some options may be given more than once. -/
def give (given : Given) (kind : OptionKind) (value : String) : Except Unusable Given :=
  if !kind.repeats && (given.lookup kind.name).isSome then .error .wrong
  else .ok (given ++ [(kind.name, value)])

def giveValue (given : Given) (kind : OptionKind) (value : String) : Except Unusable Given :=
  if kind.taking.accepts value then give given kind value else .error .wrong

/-- An option that takes no value stands for itself, and one that does takes it along or waits for
it. -/
def readLong (kinds : List OptionKind) (given : Given) (option : String) (value : Option String) :
    Except Unusable (Given × Option OptionKind) :=
  match kinds.find? (·.name == option), value with
  | none, none => if option = "help" then .error .helpWanted else .error .wrong
  | none, some _ => .error .wrong
  | some kind, none =>
    match kind.taking with
    | .nothing => (give given kind "").map (·, none)
    | _ => .ok (given, some kind)
  | some kind, some value => (giveValue given kind value).map (·, none)

/-- Reads options up to the first name, or all that there are. `waiting` is an option whose value
comes next. -/
def readOptions (kinds : List OptionKind) : Given → (waiting : Option OptionKind) → List String →
    Except Unusable (Given × List String)
  | given, none, [] => .ok (given, [])
  | _, some _, [] => .error .wrong
  | given, some kind, argument :: rest =>
    match Word.ofArgument argument with
    | .name value =>
      match giveValue given kind value with
      | .error e => .error e
      | .ok given => readOptions kinds given none rest
    | _ => .error .wrong
  | given, none, argument :: rest =>
    match Word.ofArgument argument with
    | .name _ => .ok (given, argument :: rest)
    | .escape => if rest = [] then .ok (given, []) else .error .wrong
    | .short letters => if letters.head? = some 'h' then .error .helpWanted else .error .wrong
    | .long option value =>
      match readLong kinds given option value with
      | .error e => .error e
      | .ok (given, waiting) => readOptions kinds given waiting rest

def commonKinds : List OptionKind :=
  [⟨"settings", .path, false⟩, ⟨"log-level", .text, false⟩, ⟨"debug-plugins", .nothing, false⟩]

def serveKinds : List OptionKind := [⟨"host", .text, false⟩, ⟨"port", .port, false⟩]

def runKinds : List OptionKind :=
  [⟨"plugin", .text, false⟩, ⟨"tools", .text, true⟩, ⟨"payload", .text, false⟩,
    ⟨"payload-file", .path, false⟩, ⟨"result-only", .nothing, false⟩]

def commandNames : List String := ["serve", "run", "plugins", "help"]

/-- Help is there for every command, and for help itself. -/
def readHelp : List String → Unusable
  | [] => .helpWanted
  | ["help"] => .helpWanted
  | "help" :: [name] => if commandNames.contains name then .helpWanted else .wrong
  | [name] => if commandNames.contains name then .helpWanted else .wrong
  | _ => .wrong

def values (given : Given) (option : String) : List String :=
  (given.filter fun g => g.1 = option).map Prod.snd

/-- The tools of all `tools` options, each of which lists tools between commas. -/
def toolsOf (given : Given) : List String :=
  (values given "tools").flatMap fun v =>
    (Text.splitWhere (· == ',') v.toList).map String.ofList

def runOf (given : Given) : Except Unusable Command := do
  let some plugin := given.lookup "plugin" | throw .wrong
  if values given "tools" = [] then throw .wrong
  let payload ← match given.lookup "payload", given.lookup "payload-file" with
    | some _, some _ => throw .wrong
    | none, some path => pure (PayloadSource.file path)
    | text, none => pure (PayloadSource.text (text.getD "\x7b\x7d"))
  return .run plugin (toolsOf given) payload (given.lookup "result-only").isSome

def serveOf (given : Given) : Command :=
  .serve (given.lookup "host") ((given.lookup "port").bind port?)

/-- Options after the command's name go before those that stand ahead of it. -/
def commandLine (before after : Given) (command : Command) : CommandLine :=
  let given := after ++ before
  ⟨given.lookup "settings", given.lookup "log-level", (given.lookup "debug-plugins").isSome,
    command⟩

def readAll (kinds : List OptionKind) (arguments : List String) : Except Unusable Given :=
  match readOptions (commonKinds ++ kinds) [] none arguments with
  | .ok (given, []) => .ok given
  | .ok (_, _ :: _) => .error .wrong
  | .error e => .error e

def readCommand (name : String) (arguments : List String) : Except Unusable (Given × Command) :=
  match name with
  | "serve" => (readAll serveKinds arguments).map fun given => (given, serveOf given)
  | "run" => (readAll runKinds arguments).bind fun given => (runOf given).map (given, ·)
  | "plugins" => (readAll [] arguments).map (·, .plugins)
  | "help" => .error (readHelp arguments)
  | _ => .error .wrong

def read (arguments : List String) : Except Unusable CommandLine :=
  match readOptions commonKinds [] none arguments with
  | .error e => .error e
  | .ok (_, []) => .error .wrong
  | .ok (before, name :: rest) =>
    (readCommand name rest).map fun (after, command) => commandLine before after command

end Arguments

end ToolPipeline
