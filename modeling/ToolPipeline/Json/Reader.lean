import ToolPipeline.Json.Lexeme

/-! Reading a JSON text as a value. Containers nest at most 127 deep, and of several members of one
key the last one stays. -/

namespace ToolPipeline.Json

def depthLimit : Nat := 127

def readScalar (s : List Piece) : Result Value :=
  match s with
  | [] => .error (.ahead .endInValue [])
  | .char 'n' :: rest => (readWord ['u', 'l', 'l'] rest).map (.null, ·)
  | .char 't' :: rest => (readWord ['r', 'u', 'e'] rest).map (.bool true, ·)
  | .char 'f' :: rest => (readWord ['a', 'l', 's', 'e'] rest).map (.bool false, ·)
  | .char '-' :: rest => (readNumber false rest).map fun (n, rest) => (.number n, rest)
  | .char '"' :: rest => (readString rest).map fun (t, rest) => (.string t, rest)
  | s =>
    if (digitOf? s).isSome then (readNumber true s).map fun (n, rest) => (.number n, rest)
    else .error (.ahead .expectedValue s)

def afterListComma (rest : List Piece) : Except Fault (List Piece) :=
  match skipSpace rest with
  | [] => .error (.ahead .endInValue [])
  | .char ']' :: rest => .error (.ahead .trailingComma (.char ']' :: rest))
  | s => .ok s

/-- Whether another item of a list follows, and its text; otherwise the text from the closing
bracket on. -/
def nextItem (first : Bool) (s : List Piece) : Except Fault (Bool × List Piece) :=
  match skipSpace s with
  | [] => .error (.ahead .endInList [])
  | .char ']' :: rest => .ok (false, .char ']' :: rest)
  | p :: rest =>
    if first then .ok (true, p :: rest)
    else if p = .char ',' then (afterListComma rest).map (true, ·)
    else .error (.ahead .expectedListEnd (p :: rest))

/-- The items of a list from after its opening bracket; `budget` is no less than their number. -/
def readItemsFrom {α : Type} (item : List Piece → Result α) :
    (budget : Nat) → (index : Nat) → (read : List α) → List Piece → Result (List α)
  | 0, _, read, s => .ok (read.reverse, s)
  | budget + 1, index, read, s =>
    match nextItem (index == 0) s with
    | .error f => .error f
    | .ok (false, s) => .ok (read.reverse, s.drop 1)
    | .ok (true, s) =>
      match item s with
      | .error f => .error (f.under (.index index))
      | .ok (v, rest) => readItemsFrom item budget (index + 1) (v :: read) rest

def readItems {α : Type} (item : List Piece → Result α) (s : List Piece) : Result (List α) :=
  readItemsFrom item (s.length + 1) 0 [] s

def afterObjectComma (rest : List Piece) : Except Fault (List Piece) :=
  match skipSpace rest with
  | [] => .error (.ahead .endInValue [])
  | .char '"' :: rest => .ok (.char '"' :: rest)
  | .char '}' :: rest => .error (.ahead .trailingComma (.char '}' :: rest))
  | s => .error (.ahead .keyNotString s)

/-- The next key of an object and the text after it; otherwise the text from the closing brace
on. -/
def nextKey (first : Bool) (s : List Piece) : Except Fault (Option String × List Piece) :=
  match skipSpace s with
  | [] => .error (.ahead .endInObject [])
  | .char '}' :: rest => .ok (none, .char '}' :: rest)
  | p :: rest => do
    let s ←
      if first then
        if p = .char '"' then .ok (p :: rest) else .error (.ahead .keyNotString (p :: rest))
      else if p = .char ',' then afterObjectComma rest
      else .error (.ahead .expectedObjectEnd (p :: rest))
    let (key, rest) ← readString (s.drop 1)
    return (some key, rest)

def readColon (s : List Piece) : Except Fault (List Piece) :=
  match skipSpace s with
  | [] => .error (.ahead .endInObject [])
  | .char ':' :: rest => .ok rest
  | s => .error (.ahead .expectedColon s)

/-- The members of an object from after its opening brace up to its closing brace. `member` reads
from after a key on. -/
def readMembersFrom {σ : Type} (member : String → σ → List Piece → Result σ) :
    (budget : Nat) → (first : Bool) → σ → List Piece → Result σ
  | 0, _, read, s => .ok (read, s)
  | budget + 1, first, read, s =>
    match nextKey first s with
    | .error f => .error (f.under .unknown)
    | .ok (none, s) => .ok (read, s)
    | .ok (some key, rest) =>
      match member key read rest with
      | .error f => .error f
      | .ok (read, rest) => readMembersFrom member budget false read rest

def readMembers {σ : Type} (member : String → σ → List Piece → Result σ) (initial : σ)
    (s : List Piece) : Result σ :=
  readMembersFrom member (s.length + 1) true initial s

def readMemberValue {α : Type} (value : List Piece → Result α) (key : String) (s : List Piece) :
    Result α :=
  match readColon s with
  | .error f => .error f
  | .ok rest =>
    match value rest with
    | .error f => .error (f.under (.key key))
    | .ok r => .ok r

def readObject (value : List Piece → Result Value) (s : List Piece) : Result Object :=
  (readMembers (fun key o s => (readMemberValue value key s).map fun (v, rest) =>
    (o.insert key v, rest)) Object.empty s).map fun (o, rest) => (o, rest.drop 1)

/-- Any value whose containers nest at most `depth` deep. -/
def readValue (depth : Nat) (s : List Piece) : Result Value :=
  match skipSpace s with
  | .char '[' :: rest =>
    match depth with
    | 0 => .error (.ahead .tooDeep (.char '[' :: rest))
    | depth + 1 => (readItems (readValue depth) rest).map fun (vs, rest) => (.array vs, rest)
  | .char '{' :: rest =>
    match depth with
    | 0 => .error (.ahead .tooDeep (.char '{' :: rest))
    | depth + 1 => (readObject (readValue depth) rest).map fun (o, rest) => (.object o, rest)
  | s => readScalar s

def readEnd (s : List Piece) : Except Fault Unit :=
  match skipSpace s with
  | [] => .ok ()
  | s => .error (.ahead .trailingCharacters s)

def readWhole {α : Type} (reader : List Piece → Result α) (s : List Piece) : Except Failure α :=
  let outcome : Except Fault α := do
    let (v, rest) ← reader s
    readEnd rest
    return v
  outcome.mapError (·.report s)

def parsePieces (s : List Piece) : Except Failure Value := readWhole (readValue depthLimit) s

def parse (s : String) : Except Failure Value := parsePieces (Piece.ofString s)

end ToolPipeline.Json
