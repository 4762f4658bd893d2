import ToolPipeline.Settings.Datum

/-! Settings files. A file holds a JSON object. An object inside of it may stand for another value,
which one of its members gives; another member says as which layer that value counts. -/

namespace ToolPipeline.SettingsFile

open Json

/-- The key of the mark that the value beside it gets. -/
def markKey : String := "___figment_value_id"

/-- The key of the value for which the whole object stands. -/
def valueKey : String := "___figment_value_value"

structure Parts where
  members : List (String × Datum)
  mark : Option Nat
  value : Option Datum

namespace Parts

def none : Parts := ⟨[], .none, .none⟩

/-- The value for which the object stands: itself, if no member gives another one. -/
def datum (p : Parts) : Datum :=
  match p.value, p.mark with
  | some d, some mark => d.marked mark
  | some d, .none => d
  | .none, _ => .dict p.members 0

end Parts

/-- The number of a layer; zero stands for the file itself. -/
def readMark (depth : Nat) (s : List Piece) : Result Nat :=
  let expected := "a 64-bit metadata id integer"
  match skipSpace s, depth with
  | .char '[' :: rest, 0 => .error (.ahead .tooDeep (.char '[' :: rest))
  | .char '{' :: rest, 0 => .error (.ahead .tooDeep (.char '{' :: rest))
  | .char '[' :: rest, _ + 1 =>
    settleList (.error (.unsettled (.wrongType .sequence expected) rest))
  | .char '{' :: rest, _ + 1 =>
    settleObject (.error (.unsettled (.wrongType .map expected) rest))
  | s, _ =>
    match readScalar s with
    | .error f => .error f
    | .ok (v, rest) =>
      match v.asInt? with
      | some (.ofNat mark) => .ok (mark, rest)
      | _ => .error (.mismatch (.wrongType (.ofJson v.json) expected) rest)

def readPart (depth : Nat) (value : List Piece → Result Datum) (key : String) (p : Parts)
    (s : List Piece) : Result Parts :=
  if key = markKey then
    (readMemberValue (readMark depth) key s).map fun (mark, rest) => ({ p with mark }, rest)
  else
    (readMemberValue value key s).map fun (d, rest) =>
      if key = valueKey then ({ p with value := d }, rest)
      else ({ p with members := Datum.put key d p.members }, rest)

def readDatum (depth : Nat) (s : List Piece) : Result Datum :=
  match skipSpace s with
  | .char '[' :: rest =>
    match depth with
    | 0 => .error (.ahead .tooDeep (.char '[' :: rest))
    | depth + 1 => (readItems (readDatum depth) rest).map fun (ds, rest) => (.list ds 0, rest)
  | .char '{' :: rest =>
    match depth with
    | 0 => .error (.ahead .tooDeep (.char '{' :: rest))
    | depth + 1 =>
      (readMembers (readPart depth (readDatum depth)) Parts.none rest).map fun (p, rest) =>
        (p.datum, rest.drop 1)
  | s => (readScalar s).map fun (v, rest) => (.ofJson v.json, rest)

/-- The members of the object that a file holds. That object stands for itself. -/
def readTop (s : List Piece) : Result (List (String × Datum)) :=
  match skipSpace s with
  | .char '{' :: rest =>
    (readMembers (fun key read s =>
      (readMemberValue (readDatum (depthLimit - 1)) key s).map fun (d, rest) =>
        (Datum.put key d read, rest)) [] rest).map fun (read, rest) => (read, rest.drop 1)
  | s => refuse "a map" s

def parse (text : String) : Except Failure (List (String × Datum)) :=
  readWhole readTop (Piece.ofString text)

end ToolPipeline.SettingsFile
