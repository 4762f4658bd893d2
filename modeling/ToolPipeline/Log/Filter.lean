import ToolPipeline.Log.Directive

/-! Which events are logged. Of the directives that cover an event the most specific one decides;
directives that name spans or fields may let through more of what happens inside a span. -/

namespace ToolPipeline.Log

structure Filter where
  directives : List Directive

namespace Filter

/-- Whether `a` decides where both cover an event: the longer target goes first, then the larger
number of fields, then the later names of fields. -/
def outranks (a b : Directive) : Bool :=
  let length := fun (d : Directive) => (d.target.map fun t => t.length + 1).getD 0
  let names := fun (d : Directive) => d.fields.map FieldTest.name
  if length a ≠ length b then length b < length a
  else if a.fields.length ≠ b.fields.length then b.fields.length < a.fields.length
  else decide (names b < names a)

/-- The directives that say something of events by themselves; those with fields come last. -/
def plain (f : Filter) : List Directive :=
  let ds := f.directives.filter Directive.isPlain
  ds.filter (fun d => !d.isSpanwise) ++ ds.filter Directive.isSpanwise

/-- Of directives on the same subject only the last one counts. -/
def lastOfEach : List Directive → List Directive
  | [] => []
  | d :: ds => if ds.any d.sameSubject then lastOfEach ds else d :: lastOfEach ds

def spanwise (f : Filter) : List Directive := lastOfEach (f.directives.filter Directive.isSpanwise)

/-- The most specific directive of a list, and of equally specific ones the last. -/
def deciding (ds : List Directive) : Option Directive :=
  ds.foldl (fun best d => if best.any (outranks · d) then best else some d) none

def thresholdAt (ds : List Directive) : Threshold := (deciding ds).bind Directive.threshold

def admits (f : Filter) (e : Event) : Bool :=
  (thresholdAt (f.plain.filter (·.coversEvent e))).admits e.level

/-- The most that is let through anywhere. The values of fields are not known in advance. -/
def ceiling (f : Filter) : Threshold :=
  if f.spanwise.any fun d => d.fields.any fun t => t.value.isSome then some .trace
  else Threshold.highest (f.directives.map Directive.threshold)

def within (f : Filter) (s : Span) : List Directive := f.spanwise.filter (·.coversSpan s)

def opens (f : Filter) (s : Span) : Bool :=
  f.ceiling.admits s.level &&
    (!(f.within s).isEmpty ||
      (thresholdAt (f.plain.filter fun d => d.coversTarget s.target)).admits s.level)

def scope (f : Filter) (s : Span) : Threshold :=
  if f.opens s then
    Threshold.highest (((f.within s).filter (·.acceptsFields s)).map Directive.threshold)
  else none

def admitsIn (f : Filter) (s : Span) (e : Event) : Bool := (f.scope s).admits e.level || f.admits e

/-- Without a directive only errors are let through. -/
def ofDirectives (ds : List Directive) : Filter :=
  ⟨if ds.isEmpty then [.ofThreshold (some .error)] else ds⟩

def parts (s : String) : List (List Char) :=
  (Text.splitWhere (· == ',') s.toList).filter (· ≠ [])

def parse (s : String) : Except DirectiveFault Filter :=
  ((parts s).mapM Directive.parse).map ofDirectives

def parseLossy (s : String) : Filter :=
  ofDirectives ((parts s).filterMap fun p => (Directive.parse p).toOption)

def complaint (p : List Char) (f : DirectiveFault) : String :=
  "ignoring `" ++ String.ofList p ++ "`: " ++ f.message

def complaints (s : String) : List String :=
  (parts s).filterMap fun p =>
    match Directive.parse p with
    | .ok _ => none
    | .error f => some (complaint p f)

/-- The filter to use, and what to say about it: that of `override`, unless it is missing or has a
malformed directive, or else that of `text`. -/
def choose (override : Option String) (text : String) : Filter × List String :=
  match override.map parse with
  | some (.ok f) => (f, [])
  | _ => (parseLossy text, complaints text)

end Filter

end ToolPipeline.Log
