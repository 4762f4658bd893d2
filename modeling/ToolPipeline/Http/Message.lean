import ToolPipeline.Json.Printer
import ToolPipeline.Text.Octets

/-! Requests and responses. Names of headers are compared without regard to case, and of several
headers of one name the first one counts. -/

namespace ToolPipeline.Http

def lower (s : String) : String := s.map Char.toLower

structure Request where
  method : String
  path : String
  headers : List (String × String)
  body : List UInt8

def Request.header? (r : Request) (name : String) : Option String :=
  (r.headers.find? fun h => lower h.1 == name).map Prod.snd

structure Response where
  status : Nat
  headers : List (String × String)
  body : String
  deriving DecidableEq, Repr

namespace Response

def length (r : Response) : Nat := r.body.utf8ByteSize

def withHeaders (r : Response) (headers : List (String × String)) : Response :=
  { r with headers := r.headers ++ headers }

def typed (status : Nat) (mediaType body : String) : Response :=
  ⟨status, [("content-type", mediaType), ("content-length", toString body.utf8ByteSize)], body⟩

def json (status : Nat) (v : Json) : Response := typed status "application/json" v.compact

def plain (status : Nat) (body : String) : Response :=
  typed status "text/plain; charset=utf-8" body

def empty (status : Nat) : Response := ⟨status, [], ""⟩

/-- The same response without its body; its headers still speak of the body. -/
def withoutBody (r : Response) : Response := { r with body := "" }

end Response

/-- The path of a request's target, which may be given with its scheme and its host. -/
def pathOf (target : String) : String :=
  let cs := target.toList.takeWhile fun c => c ≠ '?' && c ≠ '#'
  let path :=
    if cs.head? = some '/' || cs = ['*'] then cs
    else
      match cs.dropWhile (· ≠ ':') with
      | ':' :: '/' :: '/' :: rest =>
        match rest.dropWhile (· ≠ '/') with
        | [] => ['/']
        | path => path
      | _ => []
  String.ofList path

end ToolPipeline.Http
