import ToolPipeline.Log.Filter

/-! Events as they are written out, one a line. -/

namespace ToolPipeline.Log

/-- An event as it is logged, with the span around it if that was noticed. -/
structure Entry where
  event : Event
  span : Option Span

namespace Filter

def entry? (f : Filter) (o : Occurrence) : Option Entry :=
  match o.span with
  | none => if f.admits o.event then some ⟨o.event, none⟩ else none
  | some s =>
    if f.admitsIn s o.event then some ⟨o.event, if f.opens s then some s else none⟩ else none

def entries (f : Filter) (os : List Occurrence) : List Entry := os.filterMap f.entry?

end Filter

namespace Span

def toJson (s : Span) : Json :=
  .object ((s.fields.map fun f => (f.1, f.2.toJson)) ++ [("name", .string s.name)])

end Span

namespace Entry

def fieldsJson (e : Entry) : Json :=
  .object (("message", .string e.event.message) :: e.event.fields.map fun f => (f.1, f.2.toJson))

def toJson (e : Entry) : Json :=
  .object <| [("level", .string e.event.level.name), ("fields", e.fieldsJson),
    ("target", .string e.event.target)]
    ++ match e.span with
      | some s => [("span", s.toJson), ("spans", .array [s.toJson])]
      | none => []

def stamped (e : Entry) (moment : String) : Json :=
  match e.toJson with
  | .object members => .object (("timestamp", .string moment) :: members)
  | v => v

def plainText (e : Entry) : String :=
  let fields := e.event.rendered.map fun f => " " ++ f.1 ++ "=" ++ f.2
  let span := (e.span.map fun s => s.name ++ ": ").getD ""
  e.event.level.name ++ " " ++ span ++ e.event.target ++ ": " ++ e.event.message
    ++ String.join fields

end Entry

end ToolPipeline.Log
