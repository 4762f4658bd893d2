import ToolPipeline.Text.Hex
import ToolPipeline.Text.Shown

/-! A text between quotes, as messages show it: a character that does not show by itself is written
as its code point. -/

namespace ToolPipeline.Text

def codePoint (c : Char) : List Char := ['\\', 'u', '{'] ++ Hex.ofNat c.toNat ++ ['}']

def quoteChar (c : Char) : List Char :=
  match c with
  | '\x00' => ['\\', '0']
  | '\t' => ['\\', 't']
  | '\r' => ['\\', 'r']
  | '\n' => ['\\', 'n']
  | '"' => ['\\', '"']
  | '\\' => ['\\', '\\']
  | c => if isShown c then [c] else codePoint c

def quote (s : String) : String := String.ofList ('"' :: (s.toList.flatMap quoteChar ++ ['"']))

end ToolPipeline.Text
