import ToolPipeline.Json.Printer
import ToolPipeline.Text.Quoted

/-! What can be wrong with a JSON text, and where. A fault is either a flaw of the grammar or a
mismatch with the shape that was asked for. -/

namespace ToolPipeline.Json

/-- Violations of the grammar. -/
inductive Flaw where
  | endInValue | endInList | endInObject | endInString
  | expectedValue | expectedIdent | expectedColon | expectedListEnd | expectedObjectEnd
  | keyNotString | trailingComma | trailingCharacters
  | invalidNumber | numberOutOfRange
  | invalidEscape | invalidCodePoint | controlCharacter | loneSurrogate | endInHexEscape
  | tooDeep
  deriving DecidableEq, Repr

def Flaw.message : Flaw → String
  | .endInValue => "EOF while parsing a value"
  | .endInList => "EOF while parsing a list"
  | .endInObject => "EOF while parsing an object"
  | .endInString => "EOF while parsing a string"
  | .expectedValue => "expected value"
  | .expectedIdent => "expected ident"
  | .expectedColon => "expected `:`"
  | .expectedListEnd => "expected `,` or `]`"
  | .expectedObjectEnd => "expected `,` or `\x7d`"
  | .keyNotString => "key must be a string"
  | .trailingComma => "trailing comma"
  | .trailingCharacters => "trailing characters"
  | .invalidNumber => "invalid number"
  | .numberOutOfRange => "number out of range"
  | .invalidEscape => "invalid escape"
  | .invalidCodePoint => "invalid unicode code point"
  | .controlCharacter => "control character (\\u0000-\\u001F) found while parsing a string"
  | .loneSurrogate => "lone leading surrogate in hex escape"
  | .endInHexEscape => "unexpected end of hex escape"
  | .tooDeep => "recursion limit exceeded"

inductive Found where
  | null
  | bool (b : Bool)
  | integer (n : Int)
  | float (x : Float)
  | string (s : String)
  | sequence
  | map

def Found.ofNumber : Number → Found
  | .int n => .integer n
  | .float x => .float x

def Found.ofJson : Json → Found
  | .null => .null
  | .bool b => .bool b
  | .number n => .ofNumber n
  | .string s => .string s
  | .array _ => .sequence
  | .object _ => .map

def Found.describe : Found → String
  | .null => "null"
  | .bool b => "boolean `" ++ String.ofList (boolText b) ++ "`"
  | .integer n => "integer `" ++ String.ofList (Decimal.intDigits n) ++ "`"
  | .float x => "floating point `" ++ String.ofList (numberText (.float x)) ++ "`"
  | .string s => "string " ++ Text.quote s
  | .sequence => "sequence"
  | .map => "map"

/-- Violations of the shape that was asked for. -/
inductive Mismatch where
  | wrongType (found : Found) (expected : String)
  | wrongValue (found : Found) (expected : String)
  | missingField (name : String)
  | duplicateField (name : String)
  | wrongLength (count : Nat) (expected : String)

def Mismatch.message : Mismatch → String
  | .wrongType found expected => "invalid type: " ++ found.describe ++ ", expected " ++ expected
  | .wrongValue found expected => "invalid value: " ++ found.describe ++ ", expected " ++ expected
  | .missingField name => "missing field `" ++ name ++ "`"
  | .duplicateField name => "duplicate field `" ++ name ++ "`"
  | .wrongLength count expected => "invalid length " ++ toString count ++ ", expected " ++ expected

inductive Cause where
  | flaw (f : Flaw)
  | mismatch (m : Mismatch)

def Cause.message : Cause → String
  | .flaw f => f.message
  | .mismatch m => m.message

inductive Step where
  | key (name : String)
  | index (i : Nat)
  | unknown
  deriving DecidableEq

/-- A fault of a text: its cause, the text that was left when it showed, how many octets of that
belong to the fault, and the way to the value at fault. `settled` is false while the closing
bracket of the value at fault has not been looked for. -/
structure Fault where
  cause : Cause
  rest : List Piece
  into : Nat
  settled : Bool
  path : List Step

namespace Fault

/-- A flaw that shows at the unit to come, or at the end of the text. -/
def ahead (f : Flaw) (rest : List Piece) : Fault :=
  ⟨.flaw f, rest, if rest.isEmpty then 0 else 1, true, []⟩

/-- A flaw that shows in what has just been read, `into` octets further on. -/
def behind (f : Flaw) (rest : List Piece) (into : Nat) : Fault := ⟨.flaw f, rest, into, true, []⟩

def mismatch (m : Mismatch) (rest : List Piece) : Fault := ⟨.mismatch m, rest, 0, true, []⟩

/-- A mismatch that is placed only once the end of its container has been looked for. -/
def unsettled (m : Mismatch) (rest : List Piece) : Fault := ⟨.mismatch m, rest, 0, false, []⟩

def under (f : Fault) (step : Step) : Fault := { f with path := step :: f.path }

end Fault

structure Place where
  line : Nat
  column : Nat
  deriving DecidableEq, Repr

def Place.start : Place := ⟨1, 0⟩

/-- The place after a unit of which `octets` have been read. -/
def Place.after (p : Place) (unit : Piece) (octets : Nat) : Place :=
  if unit = .char '\n' then ⟨p.line + 1, 0⟩ else ⟨p.line, p.column + octets⟩

def Place.advance (p : Place) : (octets : Nat) → List Piece → Place
  | 0, _ => p
  | _, [] => p
  | octets + 1, unit :: rest =>
    if unit.width ≤ octets + 1 then (p.after unit unit.width).advance (octets + 1 - unit.width) rest
    else p.after unit (octets + 1)

def Fault.place (f : Fault) (text : List Piece) : Place :=
  let read := text.take (text.length - f.rest.length)
  (read.foldl (fun p unit => p.after unit unit.width) Place.start).advance f.into f.rest

structure Failure where
  cause : Cause
  path : List Step
  place : Option Place

def Fault.report (f : Fault) (text : List Piece) : Failure :=
  ⟨f.cause, f.path, some (f.place text)⟩

def Failure.message (f : Failure) : String :=
  match f.place with
  | none => f.cause.message
  | some p => f.cause.message ++ " at line " ++ toString p.line ++ " column " ++ toString p.column

def isMismatch : Cause → Bool
  | .mismatch _ => true
  | .flaw _ => false

def pathText : (first : Bool) → List Step → String
  | _, [] => ""
  | first, .key name :: rest => (if first then "" else ".") ++ name ++ pathText false rest
  | _, .index i :: rest => "[" ++ toString i ++ "]" ++ pathText false rest
  | first, .unknown :: rest => (if first then "" else ".") ++ "?" ++ pathText false rest

def Failure.messageWithPath (f : Failure) : String :=
  if f.path.all (· = .unknown) then f.message else pathText true f.path ++ ": " ++ f.message

end ToolPipeline.Json
