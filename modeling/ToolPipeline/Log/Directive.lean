import ToolPipeline.Decimal.Numeral
import ToolPipeline.Log.Event
import ToolPipeline.Pattern.Reader
import ToolPipeline.Text.Blank
import ToolPipeline.Text.Split

/-! Directives of a log filter: how much is told of which targets, by which spans, and with which
fields. A directive is written `target[span{field=value}]=level`, and every part may be missing. -/

namespace ToolPipeline.Log

/-- The most verbose level that is let through, if any is. -/
abbrev Threshold := Option Level

namespace Threshold

def verbosity (t : Threshold) : Nat := (t.map Level.verbosity).getD 0

def admits (t : Threshold) (level : Level) : Bool := level.verbosity ≤ t.verbosity

def highest (ts : List Threshold) : Threshold :=
  ts.foldl (fun best t => if best.verbosity < t.verbosity then t else best) none

def ofNumber? : Nat → Option Threshold
  | 0 => some none
  | 1 => some (some .error)
  | 2 => some (some .warn)
  | 3 => some (some .info)
  | 4 => some (some .debug)
  | 5 => some (some .trace)
  | _ => none

def ofName? (name : String) : Option Threshold :=
  match String.ofList (name.toList.map Char.toLower) with
  | "off" => some none
  | "error" => some (some .error)
  | "warn" => some (some .warn)
  | "info" => some (some .info)
  | "debug" => some (some .debug)
  | "trace" => some (some .trace)
  | _ => none

def parse? (s : List Char) : Option Threshold :=
  ((Decimal.unsigned? s).bind ofNumber?).orElse fun _ => ofName? (String.ofList s)

end Threshold

/-- The value that a field is asked to have. A text that spells a truth value or a number asks for
that, and any other is a pattern for texts. -/
inductive Wanted where
  | bool (b : Bool)
  | natural (n : Nat)
  /-- A whole number with a minus sign, which counts do not have. -/
  | signed (n : Int)
  | float (x : Float)
  | pattern (p : Pattern)

namespace Wanted

def numeral? (s : List Char) : Option Wanted :=
  match Decimal.unsigned? s, Decimal.signed? s with
  | some n, _ => if n < Nat.pow 2 64 then some (natural n) else (Decimal.float? s).map float
  | none, some n =>
    if -(Nat.pow 2 63 : Nat) ≤ n then some (signed n) else (Decimal.float? s).map float
  | none, none => (Decimal.float? s).map float

def parse (s : List Char) : Except Pattern.Fault Wanted :=
  match String.ofList s with
  | "true" => .ok (bool true)
  | "false" => .ok (bool false)
  | _ =>
    match numeral? s with
    | some w => .ok w
    | none => (Pattern.parse s).map pattern

/-- The distance below which floats count as equal. -/
def floatStep : Float := Float.ofBits 0x3CB0000000000000

def accepts : Wanted → Field → Bool
  | bool b, .bool c => b == c
  | natural n, .int m => m == n
  | float x, .float y => (x.isNaN && y.isNaN) || (y - x).abs < floatStep
  | pattern p, .text s => p.covers s
  | pattern p, .shown s => p.covers (Field.shown s).render
  | _, _ => false

def sameAs : Wanted → Wanted → Bool
  | bool b, bool c => b == c
  | natural n, natural m => n == m
  | signed n, signed m => n == m
  | float x, float y => (x.isNaN && y.isNaN) || x == y
  | pattern p, pattern q => p.source == q.source
  | _, _ => false

end Wanted

/-- Asks for a field of a name and, if a value is given, of that value. -/
structure FieldTest where
  name : String
  value : Option Wanted

namespace FieldTest

def parse (s : List Char) : Except Pattern.Fault FieldTest :=
  match Text.splitWhere (· == '=') s with
  | name :: value :: _ => (Wanted.parse value).map fun w => ⟨String.ofList name, some w⟩
  | _ => .ok ⟨String.ofList s, none⟩

def sameAs (a b : FieldTest) : Bool :=
  a.name == b.name &&
    match a.value, b.value with
    | none, none => true
    | some v, some w => v.sameAs w
    | _, _ => false

end FieldTest

structure Directive where
  target : Option String
  span : Option String
  fields : List FieldTest
  threshold : Threshold

inductive DirectiveFault where
  | malformed
  | unknownLevel
  | field (f : Pattern.Fault)
  deriving DecidableEq, Repr

def DirectiveFault.message : DirectiveFault → String
  | .malformed => "invalid filter directive"
  | .unknownLevel =>
    "error parsing level filter: expected one of \"off\", \"error\", \"warn\", \"info\", "
      ++ "\"debug\", \"trace\", or a number 0-5"
  | .field f => "invalid field filter: " ++ f.message

namespace Directive

def all : Directive := ⟨none, none, [], some .trace⟩

def ofThreshold (t : Threshold) : Directive := ⟨none, none, [], t⟩

inductive Reading where
  | start
  | name (start : Nat)
  | span (start : Nat)
  | field (start : Nat)
  | afterFields
  | afterSpan
  | level (start : Nat)

def canBegin (c : Char) : Bool :=
  c == '-' || c == ':' || c == '_' || Text.isLetter c || Text.isNumeral c

def nonempty (s : List Char) : Option String := if s = [] then none else some (String.ofList s)

def withField (d : Directive) (s : List Char) : Except DirectiveFault Directive :=
  if s = [] then .error .malformed
  else
    match FieldTest.parse s with
    | .ok f => .ok { d with fields := d.fields ++ [f] }
    | .error f => .error (.field f)

/-- A missing level lets everything through. -/
def withLevel (d : Directive) (s : List Char) : Except DirectiveFault Directive :=
  if s = [] then .ok { d with threshold := some .trace }
  else
    match Threshold.parse? s with
    | some t => .ok { d with threshold := t }
    | none => .error .unknownLevel

/-- Reads the character `c` at position `i`; `part` cuts a part out of the whole text. -/
def step (part : Nat → Nat → List Char) (r : Reading) (d : Directive) (i : Nat) (c : Char) :
    Except DirectiveFault (Reading × Directive) :=
  match r, c with
  | .start, '[' => .ok (.span (i + 1), d)
  | .start, c => if canBegin c then .ok (.name i, d) else .error .malformed
  | .name s, '=' => .ok (.level (i + 1), { d with target := some (String.ofList (part s i)) })
  | .name s, '[' => .ok (.span (i + 1), { d with target := some (String.ofList (part s i)) })
  | .name s, _ => .ok (.name s, d)
  | .span s, ']' => .ok (.afterSpan, { d with span := some (String.ofList (part s i)) })
  | .span s, '\x7b' => .ok (.field (i + 1), { d with span := nonempty (part s i) })
  | .span s, _ => .ok (.span s, d)
  | .field s, '\x7d' => (d.withField (part s i)).map (.afterFields, ·)
  | .field s, _ => .ok (.field s, d)
  | .afterFields, ']' => .ok (.afterSpan, d)
  | .afterSpan, '=' => .ok (.level (i + 1), d)
  | .level s, _ => .ok (.level s, d)
  | _, _ => .error .malformed

/-- A name alone is that of a level or else that of a target. -/
def finish (rest : Nat → List Char) (d : Directive) : Reading → Except DirectiveFault Directive
  | .name s =>
    match Threshold.parse? (rest s) with
    | some t => .ok (ofThreshold t)
    | none => .ok { all with target := some (String.ofList (rest s)) }
  | .level s => d.withLevel (rest s)
  | .afterSpan => .ok d
  | _ => .error .malformed

/-- The directive that a text spells. Positions count from its first character that is no blank,
and its parts are cut at these positions out of the text as it stands. -/
def parse (s : List Char) : Except DirectiveFault Directive := do
  let part := fun start stop => (s.drop start).take (stop - start)
  let (r, d) ← (Text.trimChars s).zipIdx.foldlM (fun (r, d) (c, i) => step part r d i c)
    (Reading.start, all)
  finish s.drop d r

def isSpanwise (d : Directive) : Bool := d.span.isSome || !d.fields.isEmpty

def isPlain (d : Directive) : Bool := d.span.isNone && d.fields.all fun f => f.value.isNone

def coversTarget (d : Directive) (target : String) : Bool :=
  d.target.all fun t => t.toList.isPrefixOf target.toList

def coversEvent (d : Directive) (e : Event) : Bool :=
  d.coversTarget e.target && d.fields.all fun f => e.fieldNames.contains f.name

def coversSpan (d : Directive) (s : Span) : Bool :=
  d.coversTarget s.target && d.span.all (· = s.name)
    && d.fields.all fun f => (s.fields.lookup f.name).isSome

def acceptsFields (d : Directive) (s : Span) : Bool :=
  d.fields.all fun f => f.value.all fun v => (s.fields.lookup f.name).any v.accepts

def sameSubject (a b : Directive) : Bool :=
  a.target == b.target && a.span == b.span && a.fields.length == b.fields.length
    && (a.fields.zip b.fields).all fun (f, g) => f.sameAs g

end Directive

end ToolPipeline.Log
