import ToolPipeline.Json.Shape

/-! Values that settings are spelled with. They are JSON values in which every part knows the layer
that set it, and in which a zero may carry a sign. -/

namespace ToolPipeline

open Json

/-- A value without parts; a whole number is signed if it carries a minus sign. -/
inductive Atom where
  | null
  | bool (b : Bool)
  | whole (n : Int) (signed : Bool)
  | float (x : Float)
  | text (s : String)

namespace Atom

def toValue : Atom → Value
  | .null => .null
  | .bool b => .bool b
  | .whole n _ => .int n
  | .float x => .number (.float x)
  | .text s => .string s

def ofNumber : Number → Atom
  | .int n => .whole n (n < 0)
  | .float x => .float x

def isSigned : Atom → Bool
  | .whole _ signed => signed
  | _ => false

end Atom

/-- Every part is marked with the number of the layer that set it, counted from one; zero stands
for no layer so far. -/
inductive Datum where
  | atom (a : Atom) (mark : Nat)
  | list (items : List Datum) (mark : Nat)
  | dict (members : List (String × Datum)) (mark : Nat)

namespace Datum

/-- Puts a member in the place of the one of that key, or else at the end. -/
def put {α : Type} (key : String) (a : α) : List (String × α) → List (String × α)
  | [] => [(key, a)]
  | (k, b) :: rest => if k = key then (k, a) :: rest else (k, b) :: put key a rest

/-- Members by their keys; of several of one key the last one stays. -/
def membersOf {α : Type} (members : List (String × α)) : List (String × α) :=
  members.foldl (fun read m => put m.1 m.2 read) []

def mark : Datum → Nat
  | .atom _ mark => mark
  | .list _ mark => mark
  | .dict _ mark => mark

def isSigned : Datum → Bool
  | .atom a _ => a.isSigned
  | _ => false

mutual
def toValue : Datum → Value
  | .atom a _ => a.toValue
  | .list items _ => .array (valuesOf items)
  | .dict members _ => .object (objectOf members)

def valuesOf : List Datum → List Value
  | [] => []
  | d :: rest => d.toValue :: valuesOf rest

def objectOf : List (String × Datum) → Object
  | [] => .empty
  | (key, d) :: rest => (objectOf rest).insert key d.toValue
end

mutual
def ofJson : Json → Datum
  | .null => .atom .null 0
  | .bool b => .atom (.bool b) 0
  | .number n => .atom (.ofNumber n) 0
  | .string s => .atom (.text s) 0
  | .array items => .list (ofItems items) 0
  | .object members => .dict (ofMembers members) 0

def ofItems : List Json → List Datum
  | [] => []
  | v :: rest => ofJson v :: ofItems rest

def ofMembers : List (String × Json) → List (String × Datum)
  | [] => []
  | (key, v) :: rest => (key, ofJson v) :: ofMembers rest
end

def at? (d : Datum) : List Step → Option Datum
  | [] => some d
  | step :: rest =>
    match d, step with
    | .dict members _, .key name => (members.lookup name).bind (·.at? rest)
    | .list items _, .index i => (items[i]?).bind (·.at? rest)
    | _, _ => none

mutual
def mapMarks (f : Nat → Nat) : Datum → Datum
  | .atom a mark => .atom a (f mark)
  | .list items mark => .list (mapItemMarks f items) (f mark)
  | .dict members mark => .dict (mapMemberMarks f members) (f mark)

def mapItemMarks (f : Nat → Nat) : List Datum → List Datum
  | [] => []
  | d :: rest => d.mapMarks f :: mapItemMarks f rest

def mapMemberMarks (f : Nat → Nat) : List (String × Datum) → List (String × Datum)
  | [] => []
  | (key, d) :: rest => (key, d.mapMarks f) :: mapMemberMarks f rest
end

def marked (mark : Nat) (d : Datum) : Datum := d.mapMarks fun _ => mark

/-- Marks the parts that no layer has set so far. -/
def settled (mark : Nat) (d : Datum) : Datum := d.mapMarks fun m => if m = 0 then mark else m

mutual
/-- Lays a value over another one: two objects are merged key by key, otherwise the upper value
stays. -/
def overlay (below : Datum) : Datum → Datum
  | .dict members mark =>
    match below with
    | .dict old _ => .dict (overlayMembers old members) mark
    | _ => .dict members mark
  | d => d

def overlayMembers (below : List (String × Datum)) :
    List (String × Datum) → List (String × Datum)
  | [] => below
  | (key, d) :: rest =>
    let d := match below.lookup key with
      | some old => overlay old d
      | none => d
    overlayMembers (put key d below) rest
end

end Datum

end ToolPipeline
