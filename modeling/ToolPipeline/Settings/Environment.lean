import ToolPipeline.Decimal.Numeral
import ToolPipeline.Settings.Layer
import ToolPipeline.Text.Blank
import ToolPipeline.Text.Split

/-! Settings in environment variables. The name of a variable gives the way to a value; its text
spells the value, and a text that spells none stands for itself. -/

namespace ToolPipeline.Environment

/-- A pair of underscores separates keys just as a point does. -/
def dotted : List Char → List Char
  | '_' :: '_' :: rest => '.' :: dotted rest
  | c :: rest => c :: dotted rest
  | [] => []

/-- The keys that the name of a variable gives, if it is the name of a setting. -/
def keysOf? (name : String) : Option (List String) :=
  let cs := Text.trimChars name.toList
  if (cs.take 6).map Char.toLower = "vista_".toList then
    let keys := Text.splitWhere (· == '.') (Text.trimChars (dotted (cs.drop 6)))
    if keys.any List.isEmpty then none
    else some (keys.map fun key => String.ofList (key.map Char.toLower))
  else none

def isGap (c : Char) : Bool := c == ' ' || c == '\t' || c == '\n' || c == '\r' || c == '\x0c'

def isSeparator (c : Char) : Bool := c == ',' || c == '{' || c == '}' || c == '[' || c == ']'

def isKeyChar (c : Char) : Bool := c.isAlphanum || c == '_' || c == '-'

def simpleEscape? (c : Char) : Option Char :=
  match c with
  | '"' => some '"'
  | '\\' => some '\\'
  | 'b' => some '\x08'
  | 'f' => some '\x0c'
  | 'n' => some '\n'
  | 'r' => some '\r'
  | 't' => some '\t'
  | _ => none

def charOfHex? (digits : List Char) : Option Char := do
  let ds ← digits.mapM Hex.digit?
  let code := ds.foldl (fun n d => n * 16 + d) 0
  if code.isValidChar then some (Char.ofNat code) else none

def readQuoted : List Char → Option (List Char × List Char)
  | [] => none
  | '"' :: rest => some ([], rest)
  | '\\' :: 'u' :: a :: b :: c :: d :: rest => do
    let char ← charOfHex? [a, b, c, d]
    let (text, rest) ← readQuoted rest
    return (char :: text, rest)
  | '\\' :: 'U' :: a :: b :: c :: d :: e :: f :: g :: h :: rest => do
    let char ← charOfHex? [a, b, c, d, e, f, g, h]
    let (text, rest) ← readQuoted rest
    return (char :: text, rest)
  | '\\' :: e :: rest => do
    let char ← simpleEscape? e
    let (text, rest) ← readQuoted rest
    return (char :: text, rest)
  | c :: rest => do
    if c ≠ '\t' ∧ (c.toNat < 0x20 ∨ c.toNat = 0x7F) then none
    let (text, rest) ← readQuoted rest
    return (c :: text, rest)

/-- Whole numbers below 2^64, and from -2^63 on if they carry a minus sign. -/
def wholeOf? (text : List Char) : Option Int :=
  let least : Int := if text.head? = some '-' then -(Nat.pow 2 63 : Nat) else 0
  (Decimal.signed? text).bind fun n => if least ≤ n ∧ n < (Nat.pow 2 64 : Nat) then some n else none

/-- A text without quotes: a number, if it spells one. Only a point makes it a fraction. -/
def bareAtom (text : List Char) : Atom :=
  match if text.contains '.' then Decimal.float? text else none, wholeOf? text with
  | some x, _ => .float x
  | none, some n => .whole n (text.head? = some '-')
  | none, none => .text (String.ofList text)

def textDatum (s : String) : Datum := .atom (.text s) 0

/-- Items between commas up to the closing bracket, which may also follow a comma; `budget` is no
less than their number. -/
def readItems {α : Type} (item : List Char → Option (α × List Char)) (closing : Char) :
    (budget : Nat) → (read : List α) → List Char → Option (List α × List Char)
  | 0, _, _ => none
  | budget + 1, read, s =>
    if s.head? = some closing then some (read.reverse, s.tail)
    else
      match item s with
      | none => none
      | some (a, ',' :: rest) => readItems item closing budget (a :: read) rest
      | some (a, rest) =>
        if rest.head? = some closing then some ((a :: read).reverse, rest.tail) else none

def readKey (s : List Char) : Option (String × List Char) :=
  match s with
  | '"' :: rest => (readQuoted rest).map fun (text, rest) => (String.ofList text, rest)
  | s =>
    let key := s.takeWhile isKeyChar
    if key.isEmpty then none else some (String.ofList key, s.dropWhile isKeyChar)

def readMember (value : List Char → Option (Datum × List Char)) (s : List Char) :
    Option ((String × Datum) × List Char) := do
  let (key, s) ← readKey (s.dropWhile isGap)
  let s ← Text.stripHead? ['='] (s.dropWhile isGap)
  let (d, s) ← value (s.dropWhile isGap)
  return ((key, d), s.dropWhile isGap)

/-- A value without the gaps around it; `value` reads the values inside of it. -/
def readInner (value : List Char → Option (Datum × List Char)) (s : List Char) :
    Option (Datum × List Char) :=
  match Text.stripHead? ['t', 'r', 'u', 'e'] s, Text.stripHead? ['f', 'a', 'l', 's', 'e'] s with
  | some rest, _ => some (.atom (.bool true) 0, rest)
  | none, some rest => some (.atom (.bool false) 0, rest)
  | none, none =>
    match s with
    | '{' :: rest =>
      (readItems (readMember value) '}' (rest.length + 1) [] rest).map fun (members, rest) =>
        (.dict (Datum.membersOf members) 0, rest)
    | '[' :: rest =>
      (readItems value ']' (rest.length + 1) [] rest).map fun (items, rest) => (.list items 0, rest)
    | '"' :: rest =>
      (readQuoted rest).map fun (text, rest) => (textDatum (String.ofList text), rest)
    | '\'' :: c :: '\'' :: rest => some (textDatum c.toString, rest)
    | '\'' :: _ => none
    | s =>
      let text := Text.trimChars (s.takeWhile (!isSeparator ·))
      some (.atom (bareAtom text) 0, s.dropWhile (!isSeparator ·))

/-- A value with gaps around it; `depth` is no less than the depth of its brackets. -/
def readValue : (depth : Nat) → List Char → Option (Datum × List Char)
  | 0, _ => none
  | depth + 1, s =>
    (readInner (readValue depth) (s.dropWhile isGap)).map fun (d, rest) => (d, rest.dropWhile isGap)

def datumOf (text : String) : Datum :=
  match readValue (text.length + 1) text.toList with
  | some (d, []) => d
  | _ => textDatum text

def nest (d : Datum) : List String → Datum
  | [] => d
  | key :: keys => .dict [(key, nest d keys)] 0

/-- What a variable sets: a key of the top, and what is to be found there. -/
def memberOf? (name text : String) : Option (String × Datum) :=
  match keysOf? name with
  | some (key :: keys) => some (key, nest (datumOf text) keys)
  | _ => none

/-- The layer of all variables, each over those before it. -/
def layer (environment : List (String × String)) : Layer where
  origin := .environment
  members := environment.foldl (fun below (name, text) =>
    Datum.overlayMembers below (memberOf? name text).toList) []

end ToolPipeline.Environment
