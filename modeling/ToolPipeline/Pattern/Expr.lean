import ToolPipeline.Pattern.CharClass

/-! Expressions for texts. Where several ways of reading are open, the one named first goes before
the others. -/

namespace ToolPipeline.Pattern

/-- What can be asked of a place in a text without reading on. Lines end in line feeds or, where
`returns` is set, also in carriage returns. -/
inductive Look where
  | textStart
  | textEnd
  | lineStart (returns : Bool)
  | lineEnd (returns : Bool)
  | wordBoundary
  | noWordBoundary
  | wordStart
  | wordEnd
  deriving DecidableEq, Repr

namespace Look

def isWordChar (c : Char) : Bool := CharClass.wordChars.contains c.toNat

/-- Whether it holds between two characters; one that is missing is beyond an end of the text. -/
def holds (l : Look) (before after : Option Char) : Bool :=
  match l with
  | .textStart => before.isNone
  | .textEnd => after.isNone
  | .lineStart false => before.all (· == '\n')
  | .lineEnd false => after.all (· == '\n')
  | .lineStart true => before.all fun c => c == '\n' || (c == '\r' && after != some '\n')
  | .lineEnd true => after.all fun c => c == '\r' || (c == '\n' && before != some '\r')
  | .wordBoundary => before.any isWordChar != after.any isWordChar
  | .noWordBoundary => before.any isWordChar == after.any isWordChar
  | .wordStart => !before.any isWordChar && after.any isWordChar
  | .wordEnd => before.any isWordChar && !after.any isWordChar

end Look

inductive Times where
  | atMostOnce | anyNumber | atLeastOnce
  deriving DecidableEq, Repr

inductive Expr where
  | empty
  | one (chars : CharClass)
  | look (l : Look)
  | seq (a b : Expr)
  | choice (a b : Expr)
  /-- A greedy repetition goes on before it stops, the others stop before they go on. -/
  | repeated (a : Expr) (times : Times) (greedy : Bool)
  deriving DecidableEq, Repr

namespace Expr

def mayBeEmpty : Expr → Bool
  | empty => true
  | one _ => false
  | look _ => true
  | seq a b => a.mayBeEmpty && b.mayBeEmpty
  | choice a b => a.mayBeEmpty || b.mayBeEmpty
  | repeated a .atLeastOnce _ => a.mayBeEmpty
  | repeated .. => true

def sequence : List Expr → Expr
  | [] => empty
  | [e] => e
  | e :: es => seq e (sequence es)

def choices : List Expr → Expr
  | [] => empty
  | [e] => e
  | e :: es => choice e (choices es)

end Expr

end ToolPipeline.Pattern
