/-! Media types as headers name them: a type, a subtype that may end in a suffix, and parameters. -/

namespace ToolPipeline.Http

structure MediaType where
  kind : String
  subtype : String
  suffix : Option String
  deriving DecidableEq, Repr

namespace MediaType

def isToken (c : Char) : Bool := c.isAlphanum || "!#$%&'*+-.^_`|~".toList.contains c

/-- Where a parameter list may stand after some of its characters. `fresh` says that none of the
characters of the current part has been read. -/
inductive ParameterState where
  | name (fresh : Bool)
  | value (fresh : Bool)
  | quoted (fresh : Bool)
  | closed
  deriving DecidableEq, Repr

namespace ParameterState

def step (s : ParameterState) (c : Char) : Option ParameterState :=
  match s with
  | .name fresh =>
    if fresh && c == ' ' then some (.name true)
    else if isToken c then some (.name false)
    else if !fresh && c == '=' then some (.value true)
    else none
  | .value fresh =>
    if fresh && c == '"' then some (.quoted true)
    else if isToken c then some (.value false)
    else if !fresh && c == ';' then some (.name true)
    else none
  | .quoted fresh =>
    if !fresh && c == '"' then some .closed
    else if c.toNat < 0x20 || c.toNat == 0x7F then none
    else some (.quoted false)
  | .closed =>
    if c == ';' then some (.name true) else if c == ' ' then some .closed else none

def mayEnd : ParameterState → Bool
  | .name fresh => fresh
  | .value _ => true
  | .quoted _ => false
  | .closed => true

end ParameterState

def areParameters (text : List Char) : Bool :=
  (text.foldlM ParameterState.step (.name true)).any ParameterState.mayEnd

/-- The parts of a subtype before and after its last plus sign, which may not be the first
character. -/
def splitSuffix (subtype : List Char) : String × Option String :=
  match subtype.reverse.span (· ≠ '+') with
  | (_, []) => (String.ofList subtype, none)
  | (_, [_]) => (String.ofList subtype, none)
  | (suffix, _ :: rest) => (String.ofList rest.reverse, some (String.ofList suffix.reverse))

def parse? (text : String) : Option MediaType :=
  let cs := text.toList
  let kind := cs.takeWhile isToken
  match cs.dropWhile isToken with
  | '/' :: rest =>
    let subtype := rest.takeWhile isToken
    let wellFormed := match rest.dropWhile isToken with
      | [] => true
      | c :: parameters => c == ';' && !subtype.isEmpty && areParameters parameters
    if kind.isEmpty || !wellFormed then none
    else
      let (subtype, suffix) := splitSuffix (subtype.map Char.toLower)
      some ⟨String.ofList (kind.map Char.toLower), subtype, suffix⟩
  | _ => none

def isJson (m : MediaType) : Bool :=
  m.kind == "application" && (m.subtype == "json" || m.suffix == some "json")

end MediaType

end ToolPipeline.Http
