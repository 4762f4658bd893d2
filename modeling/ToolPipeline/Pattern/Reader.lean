import ToolPipeline.Pattern.Notation
import ToolPipeline.Pattern.Program

/-! Patterns as they are written, and the texts that they cover. -/

namespace ToolPipeline

namespace Pattern

/-- A part of a pattern with the depth to which it is nested. -/
structure Part where
  expr : Expr
  depth : Nat
  /-- Whether a sign of repetition may follow. -/
  repeatable : Bool

namespace Part

def sequence (parts : List Part) : Part where
  expr := .sequence (parts.map Part.expr)
  depth := (parts.map Part.depth).foldl max 0 + if parts.length ≤ 1 then 0 else 1
  repeatable := true

def choices (parts : List Part) : Part where
  expr := .choices (parts.map Part.expr)
  depth := (parts.map Part.depth).foldl max 0 + if parts.length ≤ 1 then 0 else 1
  repeatable := true

def repeated (p : Part) (times : Times) (greedy : Bool) : Part :=
  ⟨.repeated p.expr times greedy, p.depth + 1, true⟩

end Part

/-- A group that is still open: what stands before the group inside of it, and the modes to return
to. -/
structure OpenGroup where
  parts : List Part
  branches : List Part
  modes : Modes

/-- What has been read of a pattern. Parts and branches come last first. -/
structure Reading where
  modes : Modes
  parts : List Part
  branches : List Part
  groups : List OpenGroup
  names : List String
  /-- Whether it has been asked for the boundaries of words in all scripts. -/
  unknownLook : Bool

namespace Reading

def start : Reading := ⟨.initial, [], [], [], [], false⟩

def add (r : Reading) (e : Expr) (depth : Nat) : Reading :=
  { r with parts := ⟨e, depth, true⟩ :: r.parts }

def addChars (r : Reading) (c : CharClass) : Reading := r.add (.one c) 0

def whole (r : Reading) : Part :=
  .choices (.sequence r.parts.reverse :: r.branches).reverse

def branch (r : Reading) : Reading :=
  { r with parts := [], branches := .sequence r.parts.reverse :: r.branches }

def repeatLast (r : Reading) (times : Times) (s : List Char) : Option (Reading × List Char) :=
  match r.parts with
  | [] => none
  | p :: parts =>
    if !p.repeatable then none
    else
      let lazy := s.head? == some '?'
      some ({ r with parts := p.repeated times (lazy == r.modes.swapGreed) :: parts },
        if lazy then s.tail else s)

def addEscaped (r : Reading) (e : Escaped) : Option Reading :=
  match e with
  | .char c octet => (r.modes.literal? c octet).map r.addChars
  | .chars c => some (r.addChars c)
  | .look l => some (r.add (.look l) 0)
  | .unknownLook => some { r.add .empty 0 with unknownLook := true }

/-- Names of groups may be given once. -/
def openGroup (r : Reading) (o : Opening) : Option Reading :=
  match o with
  | .switch modes => some { r with modes, parts := ⟨.empty, 0, false⟩ :: r.parts }
  | .group modes name =>
    if name.any r.names.contains then none
    else
      some { r with
        modes, parts := [], branches := [], names := name.toList ++ r.names
        groups := ⟨r.parts, r.branches, r.modes⟩ :: r.groups }

def closeGroup (r : Reading) : Option Reading :=
  match r.groups with
  | [] => none
  | g :: groups =>
    let inner := r.whole
    some { r with
      modes := g.modes, parts := ⟨inner.expr, inner.depth + 1, true⟩ :: g.parts
      branches := g.branches, groups }

/-- Reads the part that begins with a character. A repetition by count would need a brace at its
end, for which a directive has no room. -/
def step (r : Reading) (c : Char) (rest : List Char) : Option (Reading × List Char) :=
  match c with
  | '(' =>
    (readOpening r.modes rest).bind fun (o, rest) => (r.openGroup o).map fun r => (r, rest)
  | ')' => r.closeGroup.map fun r => (r, rest)
  | '|' => some (r.branch, rest)
  | '[' =>
    (readClass r.modes (2 * rest.length + 1) rest).map fun ((chars, depth), rest) =>
      (r.add (.one chars) depth, rest)
  | '?' => r.repeatLast .atMostOnce rest
  | '*' => r.repeatLast .anyNumber rest
  | '+' => r.repeatLast .atLeastOnce rest
  | '\x7b' => none
  | '\\' =>
    (readEscape r.modes rest).bind fun (e, rest) => (r.addEscaped e).map fun r => (r, rest)
  | '.' => r.modes.dot?.map fun chars => (r.addChars chars, rest)
  | '^' => some (r.add (.look r.modes.lineStart) 0, rest)
  | '$' => some (r.add (.look r.modes.lineEnd) 0, rest)
  | c => (r.modes.literal? c false).map fun chars => (r.addChars chars, rest)

/-- Reads to the end. Every step reads at least one character, so `fuel` bounds nothing when it is
more than the length of the text. -/
def readFrom : (fuel : Nat) → Reading → List Char → Option Reading
  | 0, _, _ => none
  | fuel + 1, r, s =>
    match r.modes.skip s with
    | [] => some r
    | c :: rest => (r.step c rest).bind fun (r, rest) => readFrom fuel r rest

end Reading

inductive Fault where
  | malformed
  | unknownLook
  deriving DecidableEq, Repr

def Fault.message : Fault → String
  | .malformed => "error building NFA"
  | .unknownLook =>
    "unsupported regex feature for DFAs: cannot build DFAs for regexes with Unicode word "
      ++ "boundaries; switch to ASCII word boundaries, or heuristically enable Unicode word "
      ++ "boundaries or use a different regex engine"

def nestingLimit : Nat := 250

def readExpr (s : List Char) : Except Fault Expr :=
  match Reading.readFrom (s.length + 1) .start s with
  | none => .error .malformed
  | some r =>
    if r.groups.length ≠ 0 ∨ nestingLimit < r.whole.depth then .error .malformed
    else if r.unknownLook then .error .unknownLook
    else .ok r.whole.expr

end Pattern

structure Pattern where
  source : String
  program : Pattern.Program
  start : Nat

namespace Pattern

def parse (s : List Char) : Except Fault Pattern :=
  (readExpr s).map fun e =>
    let (program, start) := Program.ofExpr e
    ⟨String.ofList s, program, start⟩

/-- Whether the preferred way of reading a text, from its beginning on, reads all of it. -/
def covers (p : Pattern) (s : String) : Bool := p.program.readsFrom none [p.start] s.toList

end Pattern

end ToolPipeline
