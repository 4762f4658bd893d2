import ToolPipeline.Json.Lexeme

/-! Passing over a value that nobody asked for. Such a value is checked for its grammar only: it
may nest to any depth, its strings need not spell characters and its numbers need not fit. -/

namespace ToolPipeline.Json

def skipEscape : List Piece → Except Fault Nat
  | [] => .error (.behind .endInString [] 0)
  | .char 'u' :: rest => (hexUnit rest).map fun _ => 5
  | .char c :: rest =>
    if ['"', '\\', '/', 'b', 'f', 'n', 'r', 't'].contains c then .ok 1
    else .error (.behind .invalidEscape (.char c :: rest) 1)
  | s => .error (.behind .invalidEscape s 1)

def skipString (skip : Nat) : List Piece → Except Fault (List Piece)
  | [] => .error (.behind .endInString [] 0)
  | p :: rest =>
    match skip with
    | skip + 1 => skipString skip rest
    | 0 =>
      if p = .char '"' then .ok rest
      else if p = .char '\\' then
        match skipEscape rest with
        | .error f => .error f
        | .ok used => skipString used rest
      else if isControl p then .error (.behind .controlCharacter (p :: rest) 0)
      else skipString 0 rest

def skipExponent (s : List Piece) : Except Fault (List Piece) :=
  let s := if isMark ['+', '-'] s then s.drop 1 else s
  match digitOf? s with
  | none => .error (.behind .invalidNumber s (if s.isEmpty then 0 else 1))
  | some (_, rest) => .ok (skipDigits rest)

def skipFraction (s : List Piece) : Except Fault (List Piece) :=
  match digitOf? s with
  | none => .error (.ahead .invalidNumber s)
  | some (_, rest) =>
    let rest := skipDigits rest
    if isMark ['e', 'E'] rest then skipExponent (rest.drop 1) else .ok rest

def skipNumber (s : List Piece) : Except Fault (List Piece) :=
  match digitOf? s with
  | none => .error (.behind .invalidNumber s (if s.isEmpty then 0 else 1))
  | some (d, rest) =>
    if d = 0 ∧ (digitOf? rest).isSome then .error (.ahead .invalidNumber rest)
    else
      let rest := if d = 0 then rest else skipDigits rest
      if isMark ['.'] rest then skipFraction (rest.drop 1)
      else if isMark ['e', 'E'] rest then skipExponent (rest.drop 1)
      else .ok rest

inductive Bracket where
  | list | object
  deriving DecidableEq

/-- What the text owes next inside the innermost open bracket. -/
inductive Due where
  | value | member | end (comma : Bool)

def dueIn : Bracket → Due
  | .list => .value
  | .object => .member

def skipKey (s : List Piece) : Except Fault (List Piece) :=
  match skipSpace s with
  | [] => .error (.ahead .endInObject [])
  | .char '"' :: rest =>
    match skipString 0 rest with
    | .error f => .error f
    | .ok rest =>
      match skipSpace rest with
      | [] => .error (.ahead .endInObject [])
      | .char ':' :: rest => .ok rest
      | rest => .error (.ahead .expectedColon rest)
  | rest => .error (.ahead .keyNotString rest)

def skipScalar (s : List Piece) : Except Fault (List Piece) :=
  match s with
  | [] => .error (.ahead .endInValue [])
  | .char 'n' :: rest => readWord ['u', 'l', 'l'] rest
  | .char 't' :: rest => readWord ['r', 'u', 'e'] rest
  | .char 'f' :: rest => readWord ['a', 'l', 's', 'e'] rest
  | .char '-' :: rest => skipNumber rest
  | .char '"' :: rest => skipString 0 rest
  | s => if (digitOf? s).isSome then skipNumber s else .error (.ahead .expectedValue s)

/-- Passes over values and brackets until no bracket is open. Every two steps read at least one
unit, so `steps` bounds nothing when it is twice the length of the text. -/
def skipFrom : (steps : Nat) → (opened : List Bracket) → Due → List Piece →
    Except Fault (List Piece)
  | 0, _, _, s => .ok s
  | steps + 1, opened, .member, s =>
    match skipKey s with
    | .error f => .error f
    | .ok rest => skipFrom steps opened .value rest
  | steps + 1, opened, .value, s =>
    match skipSpace s with
    | .char '[' :: rest => skipFrom steps (.list :: opened) (.end false) rest
    | .char '{' :: rest => skipFrom steps (.object :: opened) (.end false) rest
    | s =>
      match skipScalar s with
      | .error f => .error f
      | .ok rest => if opened.isEmpty then .ok rest else skipFrom steps opened (.end true) rest
  | _ + 1, [], .end _, s => .ok s
  | steps + 1, bracket :: opened, .end comma, s =>
    let close := fun rest =>
      if opened.isEmpty then .ok rest else skipFrom steps opened (.end true) rest
    match skipSpace s with
    | [] => .error (.ahead (if bracket = .list then .endInList else .endInObject) [])
    | p :: rest =>
      if p = .char ',' ∧ comma then skipFrom steps (bracket :: opened) (dueIn bracket) rest
      else if p = .char ']' ∧ bracket = .list then close rest
      else if p = .char '}' ∧ bracket = .object then close rest
      else if comma then
        .error (.ahead (if bracket = .list then .expectedListEnd else .expectedObjectEnd)
          (p :: rest))
      else skipFrom steps (bracket :: opened) (dueIn bracket) (p :: rest)

def skipValue (s : List Piece) : Except Fault (List Piece) :=
  skipFrom (2 * s.length + 2) [] .value s

end ToolPipeline.Json
