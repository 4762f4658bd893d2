import ToolPipeline.Json.Reader
import ToolPipeline.Json.Skip

/-! Shapes that values are asked to have, and reading a text or a held value by its shape. A record
is an object with fields of fixed names; members of other names are passed over, and a text may
also give a record as a list of its fields in order. -/

namespace ToolPipeline.Json

mutual
inductive Shape where
  | any
  | object
  | string
  | boolean
  /-- A whole number up to a bound, under the name that messages give to its range. -/
  | natural (name : String) (most : Nat)
  | list (item : Shape)
  | record (name : String) (fields : Fields)

/-- Named fields in order; a field without a default has to be given. -/
inductive Fields where
  | nil
  | cons (name : String) (shape : Shape) (default : Option Value) (rest : Fields)
end

def Fields.length : Fields → Nat
  | .nil => 0
  | .cons _ _ _ rest => rest.length + 1

/-- What messages call a list that gives the fields of a record. -/
def listExpectation (name : String) (count : Nat) : String :=
  "struct " ++ name ++ " with " ++ toString count ++ if count = 1 then " element" else " elements"

/-- A field together with the way to read it from one kind of source. -/
structure FieldReader (source result : Type) where
  name : String
  read : source → result
  default : Option Value

/-- The fields read so far as an object with every field: the defaults for those not read.
Otherwise the name of the first field that is missing. -/
def complete {σ ρ : Type} (read : Object) : List (FieldReader σ ρ) → Except String Object
  | [] => .ok read
  | field :: rest =>
    match read.get? field.name, field.default with
    | some _, _ => complete read rest
    | none, some v => complete (read.insert field.name v) rest
    | none, none => .error field.name

def naturalMismatch (n : Number) (name : String) (most : Nat) : Except Mismatch Value :=
  match n with
  | .float x => .error (.wrongType (.float x) name)
  | .int i =>
    if 0 ≤ i ∧ i ≤ most then .ok (.int i) else .error (.wrongValue (.integer i) name)

def refuse {α : Type} (expected : String) (s : List Piece) : Result α :=
  match s with
  | .char '[' :: _ => .error (.mismatch (.wrongType .sequence expected) s)
  | .char '{' :: _ => .error (.mismatch (.wrongType .map expected) s)
  | s =>
    match readScalar s with
    | .error f => .error f
    | .ok (v, rest) => .error (.mismatch (.wrongType (.ofJson v.json) expected) rest)

/-- Places a mismatch of a record after its closing brace, if that follows. -/
def settleObject {α : Type} : Result α → Result α
  | .error f =>
    if f.settled then .error f
    else
      match skipSpace f.rest with
      | .char '}' :: rest => .error { f with rest, settled := true }
      | rest => .error { f with rest, settled := true }
  | ok => ok

def settleList {α : Type} : Result α → Result α
  | .error f =>
    if f.settled then .error f
    else
      match skipSpace f.rest with
      | .char ']' :: rest => .error { f with rest, settled := true }
      | .char ',' :: rest => .error { f with rest := skipSpace rest, settled := true }
      | rest => .error { f with rest, settled := true }
  | ok => ok

abbrev TextField := FieldReader (List Piece) (Result Value)

def readField (fields : List TextField) (key : String) (read : Object) (s : List Piece) :
    Result Object :=
  match fields.find? (·.name == key) with
  | none =>
    (readMemberValue (fun s => (skipValue s).map ((), ·)) key s).map fun (_, rest) => (read, rest)
  | some field =>
    if (read.get? key).isSome then .error (.unsettled (.duplicateField key) s)
    else (readMemberValue field.read key s).map fun (v, rest) => (read.insert key v, rest)

def readRecordMembers (fields : List TextField) (s : List Piece) : Result Value :=
  settleObject <|
    match readMembers (readField fields) Object.empty s with
    | .error f => .error f
    | .ok (read, s) =>
      match complete read fields with
      | .error name => .error (.unsettled (.missingField name) s)
      | .ok o => .ok (.object o, s.drop 1)

/-- The closing bracket of a list of which enough has been read. -/
def readListEnd (s : List Piece) : Except Fault (List Piece) :=
  match skipSpace s with
  | [] => .error (.ahead .endInList [])
  | .char ']' :: rest => .ok rest
  | .char ',' :: rest =>
    match skipSpace rest with
    | .char ']' :: rest => .error (.ahead .trailingComma (.char ']' :: rest))
    | rest => .error (.ahead .trailingCharacters rest)
  | rest => .error (.ahead .trailingCharacters rest)

def readFieldItems (expected : String) :
    (index : Nat) → Object → List TextField → List Piece → Result Object
  | _, read, [], s => .ok (read, s)
  | index, read, field :: fields, s =>
    match nextItem (index == 0) s with
    | .error f => .error f
    | .ok (true, s) =>
      match field.read s with
      | .error f => .error (f.under (.index index))
      | .ok (v, rest) =>
        readFieldItems expected (index + 1) (read.insert field.name v) fields rest
    | .ok (false, s) =>
      match field.default with
      | none => .error (.unsettled (.wrongLength index expected) s)
      | some v => readFieldItems expected (index + 1) (read.insert field.name v) fields s

/-- A record given as a list, from after the opening bracket. -/
def readRecordItems (name : String) (fields : List TextField) (s : List Piece) : Result Value :=
  settleList <|
    match readFieldItems (listExpectation name fields.length) 0 Object.empty fields s with
    | .error f => .error f
    | .ok (o, s) => (readListEnd s).map (.object o, ·)

def readNatural (name : String) (most : Nat) (s : List Piece) : Result Value :=
  let number := match s with
    | .char '-' :: rest => some (readNumber false rest)
    | s => if (digitOf? s).isSome then some (readNumber true s) else none
  match number with
  | none => refuse name s
  | some (.error f) => .error f
  | some (.ok (n, rest)) =>
    match naturalMismatch n name most with
    | .error m => .error (.mismatch m rest)
    | .ok v => .ok (v, rest)

mutual
def Shape.read (shape : Shape) (depth : Nat) (s : List Piece) : Result Value :=
  match shape with
  | .any => readValue depth s
  | .object =>
    match skipSpace s, depth with
    | .char '{' :: rest, 0 => .error (.ahead .tooDeep (.char '{' :: rest))
    | .char '{' :: rest, depth + 1 =>
      (readObject (readValue depth) rest).map fun (o, rest) => (.object o, rest)
    | s, _ => refuse "a map" s
  | .string =>
    match skipSpace s with
    | .char '"' :: rest => (readString rest).map fun (t, rest) => (.string t, rest)
    | s => refuse "a string" s
  | .boolean =>
    match skipSpace s with
    | .char 't' :: rest => (readWord ['r', 'u', 'e'] rest).map (.bool true, ·)
    | .char 'f' :: rest => (readWord ['a', 'l', 's', 'e'] rest).map (.bool false, ·)
    | s => refuse "a boolean" s
  | .natural name most => readNatural name most (skipSpace s)
  | .list item =>
    match skipSpace s, depth with
    | .char '[' :: rest, 0 => .error (.ahead .tooDeep (.char '[' :: rest))
    | .char '[' :: rest, depth + 1 =>
      (readItems (fun s => item.read depth s) rest).map fun (vs, rest) => (.array vs, rest)
    | s, _ => refuse "a sequence" s
  | .record name fields =>
    match skipSpace s, depth with
    | .char '{' :: rest, 0 => .error (.ahead .tooDeep (.char '{' :: rest))
    | .char '[' :: rest, 0 => .error (.ahead .tooDeep (.char '[' :: rest))
    | .char '{' :: rest, depth + 1 => readRecordMembers (fields.readers depth) rest
    | .char '[' :: rest, depth + 1 => readRecordItems name (fields.readers depth) rest
    | s, _ => refuse ("struct " ++ name) s

def Fields.readers (fields : Fields) (depth : Nat) : List TextField :=
  match fields with
  | .nil => []
  | .cons name shape default rest =>
    ⟨name, fun s => shape.read depth s, default⟩ :: rest.readers depth
end

def Shape.parsePieces (shape : Shape) (s : List Piece) : Except Failure Value :=
  readWhole (shape.read depthLimit) s

def Shape.parse (shape : Shape) (s : String) : Except Failure Value :=
  shape.parsePieces (Piece.ofString s)

structure Misfit where
  mismatch : Mismatch
  path : List Step

def Misfit.under (m : Misfit) (step : Step) : Misfit := { m with path := step :: m.path }

/-- What is asked of a part of a value, said of the value. -/
def within {α : Type} (step : Step) : Except Misfit α → Except Misfit α
  | .error m => .error (m.under step)
  | .ok a => .ok a

def misfit {α : Type} (m : Mismatch) : Except Misfit α := .error ⟨m, []⟩

abbrev ValueField := FieldReader Value (Except Misfit Value)

def wrongType {α : Type} (v : Value) (expected : String) : Except Misfit α :=
  misfit (.wrongType (.ofJson v.json) expected)

/-- Reads the members of a record in the order of their keys. -/
def checkMembers (fields : List ValueField) (o : Object) : Except Misfit Value := do
  let read ← o.toList.foldlM (fun (read : Object) (key, v) =>
    match fields.find? (·.name == key) with
    | none => .ok read
    | some field => within (.key key) ((field.read v).map (read.insert key))) Object.empty
  match complete read fields with
  | .error name => misfit (.missingField name)
  | .ok o => .ok (.object o)

/-- Reads the fields of a record in their own order; further items are passed over. -/
def checkFieldItems (expected : String) :
    (index : Nat) → Object → List ValueField → List Value → Except Misfit Value
  | _, read, [], _ => .ok (.object read)
  | index, read, field :: fields, v :: items =>
    match within (.index index) (field.read v) with
    | .error m => .error m
    | .ok v => checkFieldItems expected (index + 1) (read.insert field.name v) fields items
  | index, read, field :: fields, [] =>
    match field.default with
    | none => misfit (.wrongLength index expected)
    | some v => checkFieldItems expected (index + 1) (read.insert field.name v) fields []

def checkRecord (name : String) (fields : List ValueField) (v : Value) : Except Misfit Value :=
  match v.asObject?, v.items? with
  | some o, _ => checkMembers fields o
  | none, some items =>
    checkFieldItems (listExpectation name fields.length) 0 Object.empty fields items
  | none, none => wrongType v ("struct " ++ name)

mutual
/-- Checks that a held value has the given shape and fills in defaults. -/
def Shape.check (shape : Shape) (v : Value) : Except Misfit Value :=
  match shape with
  | .any => .ok v
  | .object => if v.asObject?.isSome then .ok v else wrongType v "a map"
  | .string => if v.asString?.isSome then .ok v else wrongType v "a string"
  | .boolean => if v.asBool?.isSome then .ok v else wrongType v "a boolean"
  | .natural name most =>
    match v.json with
    | .number n =>
      match naturalMismatch n name most with
      | .error m => misfit m
      | .ok v => .ok v
    | _ => wrongType v name
  | .list item =>
    match v.items? with
    | none => wrongType v "a sequence"
    | some items =>
      (items.zipIdx.mapM fun (v, i) => within (.index i) (item.check v)).map .array
  | .record name fields => checkRecord name fields.checkers v

def Fields.checkers (fields : Fields) : List ValueField :=
  match fields with
  | .nil => []
  | .cons name shape default rest => ⟨name, fun v => shape.check v, default⟩ :: rest.checkers
end

end ToolPipeline.Json
