import ToolPipeline.Json.Printer
import ToolPipeline.Text.Quoted

/-! Log events: a level, the part of the program they come from, a message and named fields. -/

namespace ToolPipeline.Log

inductive Level where
  | error | warn | info | debug | trace
  deriving DecidableEq, Repr

namespace Level

def name : Level → String
  | .error => "ERROR"
  | .warn => "WARN"
  | .info => "INFO"
  | .debug => "DEBUG"
  | .trace => "TRACE"

/-- Levels by how much they tell: the more, the higher. -/
def verbosity : Level → Nat
  | .error => 1
  | .warn => 2
  | .info => 3
  | .debug => 4
  | .trace => 5

end Level

inductive Field where
  | text (s : String)
  | int (n : Int)
  | bool (b : Bool)
  | float (x : Float)
  /-- A text shown in quotes. -/
  | shown (s : String)

namespace Field

def nat (n : Nat) : Field := .int n

def render : Field → String
  | .text s => s
  | .int n => String.ofList (Decimal.intDigits n)
  | .bool b => String.ofList (Json.boolText b)
  | .float x => String.ofList (Decimal.Layout.field.float x)
  | .shown s => Text.quote s

def toJson : Field → Json
  | .text s => .string s
  | .int n => .number (.int n)
  | .bool b => .bool b
  | .float x => .number (.float x)
  | .shown s => .string (Text.quote s)

end Field

structure Event where
  level : Level
  target : String
  message : String
  fields : List (String × Field)

namespace Event

/-- The fields as text, without the message. -/
def rendered (e : Event) : List (String × String) := e.fields.map fun f => (f.1, f.2.render)

def field? (e : Event) (name : String) : Option String := (e.rendered.lookup name)

def fieldNames (e : Event) : List String := "message" :: e.fields.map Prod.fst

end Event

structure Span where
  name : String
  level : Level
  target : String
  fields : List (String × Field)

structure Occurrence where
  event : Event
  span : Option Span

def outside (events : List Event) : List Occurrence := events.map (⟨·, none⟩)

def inside (s : Span) (events : List Event) : List Occurrence := events.map (⟨·, some s⟩)

end ToolPipeline.Log
