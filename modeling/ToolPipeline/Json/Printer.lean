import ToolPipeline.Json.Basic
import ToolPipeline.Decimal.Layout
import ToolPipeline.Text.Hex

/-! The text of a JSON value: compact, without any blanks, or indented by two blanks a level.
Members are written in the order in which the tree lists them. -/

namespace ToolPipeline.Json

/-- Only the quote, the backslash and the control characters below the blank are escaped. -/
def escape (c : Char) : List Char :=
  match c with
  | '"' => ['\\', '"']
  | '\\' => ['\\', '\\']
  | '\x08' => ['\\', 'b']
  | '\x0c' => ['\\', 'f']
  | '\n' => ['\\', 'n']
  | '\r' => ['\\', 'r']
  | '\t' => ['\\', 't']
  | c =>
    if c.toNat < 0x20 then ['\\', 'u', '0', '0', Hex.digit (c.toNat / 16), Hex.digit c.toNat]
    else [c]

def quoted (s : List Char) : List Char := '"' :: (s.flatMap escape ++ ['"'])

/-- A float that is not finite has no JSON text; null stands in for it. -/
def numberText : Number → List Char
  | .int n => Decimal.intDigits n
  | .float x =>
    if x.isNaN || x.isInf then ['n', 'u', 'l', 'l'] else Decimal.Layout.json.float x

def boolText (b : Bool) : List Char :=
  if b then ['t', 'r', 'u', 'e'] else ['f', 'a', 'l', 's', 'e']

def separated (separator : List Char) : List (List Char) → List Char
  | [] => []
  | first :: rest => first ++ rest.flatMap (separator ++ ·)

mutual
def chars : Json → List Char
  | .null => ['n', 'u', 'l', 'l']
  | .bool b => boolText b
  | .number n => numberText n
  | .string s => quoted s.toList
  | .array items => '[' :: (separated [','] (itemChars items) ++ [']'])
  | .object members => '{' :: (separated [','] (memberChars members) ++ ['}'])

def itemChars : List Json → List (List Char)
  | [] => []
  | v :: rest => chars v :: itemChars rest

def memberChars : List (String × Json) → List (List Char)
  | [] => []
  | (k, v) :: rest => (quoted k.toList ++ ':' :: chars v) :: memberChars rest
end

def compact (v : Json) : String := String.ofList (chars v)

def newline (level : Nat) : List Char := '\n' :: List.replicate (2 * level) ' '

def bracketed (opening closing : Char) (level : Nat) : List (List Char) → List Char
  | [] => [opening, closing]
  | parts =>
    opening :: (newline (level + 1) ++ separated (',' :: newline (level + 1)) parts
      ++ newline level ++ [closing])

mutual
def prettyChars (level : Nat) : Json → List Char
  | .array items => bracketed '[' ']' level (prettyItems (level + 1) items)
  | .object members => bracketed '{' '}' level (prettyMembers (level + 1) members)
  | v => chars v

def prettyItems (level : Nat) : List Json → List (List Char)
  | [] => []
  | v :: rest => prettyChars level v :: prettyItems level rest

def prettyMembers (level : Nat) : List (String × Json) → List (List Char)
  | [] => []
  | (k, v) :: rest =>
    (quoted k.toList ++ ':' :: ' ' :: prettyChars level v) :: prettyMembers level rest
end

def pretty (v : Json) : String := String.ofList (prettyChars 0 v)

end ToolPipeline.Json
