/-! Classes of characters: ranges of code points, and what set operations make of them. -/

namespace ToolPipeline.Pattern

inductive CharClass where
  | nothing
  | range (low high : Nat)
  | either (a b : CharClass)
  | both (a b : CharClass)
  | without (a b : CharClass)
  | exactlyOne (a b : CharClass)
  | allBut (a : CharClass)
  /-- Latin letters count in both cases. -/
  | anyCase (a : CharClass)
  deriving DecidableEq, Repr

def otherCase (code : Nat) : Nat :=
  if 0x41 ≤ code ∧ code ≤ 0x5A then code + 0x20
  else if 0x61 ≤ code ∧ code ≤ 0x7A then code - 0x20
  else code

namespace CharClass

def contains : CharClass → (code : Nat) → Bool
  | nothing, _ => false
  | range low high, code => decide (low ≤ code) && decide (code ≤ high)
  | either a b, code => a.contains code || b.contains code
  | both a b, code => a.contains code && b.contains code
  | without a b, code => a.contains code && !b.contains code
  | exactlyOne a b, code => a.contains code != b.contains code
  | allBut a, code => !a.contains code
  | anyCase a, code => a.contains code || a.contains (otherCase code)

def one (c : Char) : CharClass := range c.toNat c.toNat

def span (low high : Char) : CharClass := range low.toNat high.toNat

def any : CharClass := range 0 0x10FFFF

def union (classes : List CharClass) : CharClass := classes.foldl either nothing

def ofChars (cs : List Char) : CharClass := union (cs.map one)

def digits : CharClass := span '0' '9'

def letters : CharClass := either (span 'A' 'Z') (span 'a' 'z')

def spaces : CharClass := either (range 0x9 0xD) (one ' ')

def wordChars : CharClass := union [digits, letters, one '_']

/-- The classes that are written by name, which know of no other letters than Latin ones. -/
def ofName? : String → Option CharClass
  | "alnum" => some (either digits letters)
  | "alpha" => some letters
  | "ascii" => some (range 0 0x7F)
  | "blank" => some (ofChars ['\t', ' '])
  | "cntrl" => some (either (range 0 0x1F) (range 0x7F 0x7F))
  | "digit" => some digits
  | "graph" => some (span '!' '~')
  | "lower" => some (span 'a' 'z')
  | "print" => some (span ' ' '~')
  | "punct" => some (union [span '!' '/', span ':' '@', range 0x5B 0x60, range 0x7B 0x7E])
  | "space" => some spaces
  | "upper" => some (span 'A' 'Z')
  | "word" => some wordChars
  | "xdigit" => some (union [digits, span 'A' 'F', span 'a' 'f'])
  | _ => none

end CharClass

end ToolPipeline.Pattern
