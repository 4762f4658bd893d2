import ToolPipeline.Pattern.Expr
import ToolPipeline.Text.Blank
import ToolPipeline.Text.Hex
import ToolPipeline.Text.Letter
import ToolPipeline.Text.Split

/-! The parts of a written pattern: modes, escapes, classes in brackets and the beginnings of
groups. Every function gives what it read with the text that is left, or nothing if the text is
malformed. -/

namespace ToolPipeline.Pattern

structure Modes where
  ignoreCase : Bool
  manyLines : Bool
  dotReadsAll : Bool
  swapGreed : Bool
  allScripts : Bool
  returns : Bool
  spaced : Bool
  deriving DecidableEq, Repr

namespace Modes

def initial : Modes := ⟨false, false, false, false, true, false, false⟩

def set? (m : Modes) (letter : Char) (on : Bool) : Option Modes :=
  match letter with
  | 'i' => some { m with ignoreCase := on }
  | 'm' => some { m with manyLines := on }
  | 's' => some { m with dotReadsAll := on }
  | 'U' => some { m with swapGreed := on }
  | 'u' => some { m with allScripts := on }
  | 'R' => some { m with returns := on }
  | 'x' => some { m with spaced := on }
  | _ => none

def skipFrom : (inComment : Bool) → List Char → List Char
  | _, [] => []
  | true, c :: rest => skipFrom (c ≠ '\n') rest
  | false, c :: rest =>
    if Text.isBlank c then skipFrom false rest
    else if c = '#' then skipFrom true rest
    else c :: rest

/-- Passes over blanks and comments where they mean nothing. -/
def skip (m : Modes) (s : List Char) : List Char := if m.spaced then skipFrom false s else s

/-- A character that stands for itself. The cases of letters are known for Latin letters only, so
letters of all scripts have to be read as they are written. A character that was written as an
octet is one only below 128. -/
def literal? (m : Modes) (c : Char) (octet : Bool) : Option CharClass :=
  if m.allScripts then if m.ignoreCase then none else some (.one c)
  else if octet ∧ 0x80 ≤ c.toNat then none
  else if m.ignoreCase then some (.anyCase (.one c))
  else some (.one c)

def dot? (m : Modes) : Option CharClass :=
  if !m.allScripts then none
  else if m.dotReadsAll then some .any
  else some (.allBut (.ofChars (if m.returns then ['\r', '\n'] else ['\n'])))

/-- The classes that are written as a letter. They are known for Latin letters only, and so are
not their complements. -/
def letterClass? (m : Modes) (letter : Char) : Option CharClass :=
  if m.allScripts then none
  else
    match letter with
    | 'd' => some .digits
    | 's' => some .spaces
    | 'w' => some .wordChars
    | _ => none

def lineStart (m : Modes) : Look := if m.manyLines then .lineStart m.returns else .textStart

def lineEnd (m : Modes) : Look := if m.manyLines then .lineEnd m.returns else .textEnd

end Modes

inductive Escaped where
  | char (c : Char) (octet : Bool)
  | chars (c : CharClass)
  | look (l : Look)
  /-- The boundaries of words in all scripts are not known. -/
  | unknownLook

def isMark (c : Char) : Bool := "\\.+*?()|[]\x7b\x7d^$#&-~".toList.contains c

def standsForItself (c : Char) : Bool :=
  isMark c || (c.toNat < 0x80 && !c.isAlphanum && c != '<' && c != '>')

def readHexFrom (m : Modes) : (count : Nat) → (code : Nat) → List Char → Option (Nat × List Char)
  | 0, code, s => some (code, m.skip s)
  | count + 1, code, s =>
    match m.skip s with
    | [] => none
    | c :: rest => (Hex.digit? c).bind fun d => readHexFrom m count (code * 16 + d) rest

def readHex (m : Modes) (count : Nat) (s : List Char) : Option (Escaped × List Char) :=
  (readHexFrom m count 0 s).bind fun (code, rest) =>
    if code.isValidChar then some (.char (Char.ofNat code) (count == 2), rest) else none

def wordLook (m : Modes) (l : Look) : Escaped := if m.allScripts then .unknownLook else .look l

def readEscape (m : Modes) : List Char → Option (Escaped × List Char)
  | [] => none
  | c :: rest =>
    if ['d', 's', 'w', 'D', 'S', 'W'].contains c then
      (m.letterClass? c).map fun chars => (.chars chars, rest)
    else if standsForItself c then some (.char c false, rest)
    else
      match c with
      | 'x' => readHex m 2 rest
      | 'u' => readHex m 4 rest
      | 'U' => readHex m 8 rest
      | 'a' => some (.char '\x07' false, rest)
      | 'f' => some (.char '\x0c' false, rest)
      | 't' => some (.char '\t' false, rest)
      | 'n' => some (.char '\n' false, rest)
      | 'r' => some (.char '\r' false, rest)
      | 'v' => some (.char '\x0b' false, rest)
      | 'A' => some (.look .textStart, rest)
      | 'z' => some (.look .textEnd, rest)
      | 'b' => some (wordLook m .wordBoundary, rest)
      | 'B' => some (wordLook m .noWordBoundary, rest)
      | '<' => some (wordLook m .wordStart, rest)
      | '>' => some (wordLook m .wordEnd, rest)
      | _ => none

inductive SetOperation where
  | both | without | exactlyOne
  deriving DecidableEq

def SetOperation.apply : SetOperation → CharClass → CharClass → CharClass
  | .both => .both
  | .without => .without
  | .exactlyOne => .exactlyOne

/-- A class together with the depth to which it is nested. -/
abbrev Nested := CharClass × Nat

/-- What has been read of a class: the left side of an operation, and the items after it. -/
structure ClassReading where
  left : Option (SetOperation × Nested)
  items : List CharClass
  depth : Nat

namespace ClassReading

def empty : ClassReading := ⟨none, [], 0⟩

def add (r : ClassReading) (item : CharClass) (depth : Nat) : ClassReading :=
  { r with items := r.items ++ [item], depth := max r.depth depth }

def folded (m : Modes) (c : CharClass) : CharClass := if m.ignoreCase then .anyCase c else c

def whole (r : ClassReading) (m : Modes) : Nested :=
  let right := CharClass.union r.items
  let depth := if r.items.length ≤ 1 then r.depth else r.depth + 1
  match r.left with
  | none => (right, depth)
  | some (o, left, leftDepth) => (o.apply (folded m left) (folded m right), max leftDepth depth + 1)

/-- Takes all that has been read as the left side of an operation. -/
def operate (r : ClassReading) (m : Modes) (o : SetOperation) : ClassReading :=
  { empty with left := some (o, r.whole m) }

end ClassReading

/-- A class between brackets, from its parts. Where a class knows of octets only, what is left out
of it would have to be more than characters. -/
def Modes.bracketed? (m : Modes) (negated : Bool) (c : CharClass) : Option CharClass :=
  if m.allScripts then
    if m.ignoreCase then none else some (if negated then .allBut c else c)
  else if negated then none
  else some (ClassReading.folded m c)

def readNamed? (s : List Char) : Option ((Bool × CharClass) × List Char) := do
  let s ← Text.stripHead? ['[', ':'] s
  let (negated, s) := match s with
    | '^' :: rest => (true, rest)
    | s => (false, s)
  let (name, rest) := s.span (· ≠ ':')
  let rest ← Text.stripHead? [':', ']'] rest
  let named ← CharClass.ofName? (String.ofList name)
  return ((negated, named), rest)

def readItem (m : Modes) : List Char → Option (Escaped × List Char)
  | [] => none
  | '\\' :: rest => readEscape m rest
  | c :: rest => some (.char c false, rest)

def endpoint? (m : Modes) : Escaped → Option Char
  | .char c _ => if m.allScripts ∨ c.toNat < 0x80 then some c else none
  | _ => none

def itemClass? (m : Modes) : Escaped → Option CharClass
  | .chars c => some c
  | e => (endpoint? m e).map CharClass.one

def readRange (m : Modes) (s : List Char) : Option (CharClass × List Char) := do
  let (first, s) ← readItem m s
  match m.skip s with
  | [] => none
  | '-' :: rest =>
    let rest := m.skip rest
    if rest.head? = some ']' ∨ rest.head? = some '-' then
      return (← itemClass? m first, '-' :: rest)
    else
      let (last, s) ← readItem m rest
      let low ← endpoint? m first
      let high ← endpoint? m last
      if low ≤ high then some (.span low high, s) else none
  | s => return (← itemClass? m first, s)

/-- Hyphens at the beginning of a class stand for themselves. -/
def readHyphens (m : Modes) : (fuel : Nat) → ClassReading → List Char →
    ClassReading × List Char
  | 0, r, s => (r, s)
  | fuel + 1, r, s =>
    match m.skip s with
    | '-' :: rest => readHyphens m fuel (r.add (.one '-') 0) rest
    | s => (r, s)

/-- The beginning of a class after its bracket: whether it is negated, and the characters that
would otherwise mean something. -/
def readClassStart (m : Modes) (s : List Char) : Bool × ClassReading × List Char :=
  let (negated, s) := match m.skip s with
    | '^' :: rest => (true, rest)
    | s => (false, s)
  let (r, s) := readHyphens m s.length .empty s
  match r.items, s with
  | [], ']' :: rest => (negated, r.add (.one ']') 0, rest)
  | _, _ => (negated, r, s)

mutual
/-- A class from after its opening bracket. Every bracket and every item reads something, so `fuel`
bounds nothing when it is twice the length of the text. -/
def readClass (m : Modes) : (fuel : Nat) → List Char → Option (Nested × List Char)
  | 0, _ => none
  | fuel + 1, s =>
    let (negated, r, s) := readClassStart m s
    (readClassItems m fuel r s).bind fun ((c, depth), rest) =>
      (m.bracketed? negated c).map fun c => ((c, depth + 1), rest)

def readClassItems (m : Modes) : (fuel : Nat) → ClassReading → List Char →
    Option (Nested × List Char)
  | 0, _, _ => none
  | fuel + 1, r, s =>
    match m.skip s with
    | [] => none
    | ']' :: rest => some (r.whole m, rest)
    | '&' :: '&' :: rest => readClassItems m fuel (r.operate m .both) rest
    | '-' :: '-' :: rest => readClassItems m fuel (r.operate m .without) rest
    | '~' :: '~' :: rest => readClassItems m fuel (r.operate m .exactlyOne) rest
    | '[' :: rest =>
      match readNamed? ('[' :: rest) with
      | some ((negated, c), rest) =>
        (m.bracketed? negated c).bind fun c => readClassItems m fuel (r.add c 0) rest
      | none =>
        (readClass m fuel rest).bind fun ((c, depth), rest) =>
          readClassItems m fuel (r.add c depth) rest
    | s => (readRange m s).bind fun (c, rest) => readClassItems m fuel (r.add c 0) rest
end

/-- How a group begins: it may switch modes for its inside, or for what follows it. -/
inductive Opening where
  | group (modes : Modes) (name : Option String)
  | switch (modes : Modes)

/-- Letters of modes up to a colon or the closing parenthesis; after a hyphen they switch off. -/
def readModes (m : Modes) (seen : List Char) (on dangling : Bool) :
    List Char → Option (Opening × List Char)
  | [] => none
  | ':' :: rest => if dangling then none else some (.group m none, rest)
  | ')' :: rest => if dangling ∨ (seen = [] ∧ on) then none else some (.switch m, rest)
  | '-' :: rest => if on then readModes m seen false true rest else none
  | c :: rest =>
    if seen.contains c then none
    else (m.set? c on).bind fun m => readModes m (c :: seen) on false rest

def isName : List Char → Bool
  | [] => false
  | c :: rest =>
    (c == '_' || Text.isLetter c) &&
      rest.all fun c => "_.[]".toList.contains c || Text.isLetter c || Text.isNumeral c

def readGroupName (m : Modes) (s : List Char) : Option (Opening × List Char) :=
  match s.span (· ≠ '>') with
  | (name, '>' :: rest) =>
    if isName name then some (.group m (some (String.ofList name)), rest) else none
  | _ => none

/-- The beginning of a group after its parenthesis. Looking ahead and behind is not known. -/
def readOpening (m : Modes) (s : List Char) : Option (Opening × List Char) :=
  match m.skip s with
  | '?' :: '=' :: _ | '?' :: '!' :: _ | '?' :: '<' :: '=' :: _ | '?' :: '<' :: '!' :: _ => none
  | '?' :: 'P' :: '<' :: rest | '?' :: '<' :: rest => readGroupName m rest
  | '?' :: rest => readModes m [] true false rest
  | s => some (.group m none, s)

end ToolPipeline.Pattern
