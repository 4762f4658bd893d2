/-! Texts that arrive as octets. A sequence of octets is cut into characters and stray octets,
those that belong to no well-formed character. -/

namespace ToolPipeline

inductive Piece where
  | char (c : Char)
  | stray (octet : UInt8)
  deriving DecidableEq

namespace Piece

def width : Piece → Nat
  | .char c => c.utf8Size
  | .stray _ => 1

def totalWidth (s : List Piece) : Nat := s.foldl (fun n p => n + p.width) 0

def ofString (s : String) : List Piece := s.toList.map .char

def chars? : List Piece → Option (List Char)
  | [] => some []
  | .char c :: rest => (chars? rest).map (c :: ·)
  | .stray _ :: _ => none

end Piece

/-- Octets that may follow the first octet of a character of several octets: how many in all,
the bounds of the first of them, and the bits that the first octet contributes. -/
def leadOctet (b : UInt8) : Option (Nat × UInt8 × UInt8 × Nat) :=
  let n := b.toNat
  if 0xC2 ≤ n ∧ n ≤ 0xDF then some (1, 0x80, 0xBF, n - 0xC0)
  else if n = 0xE0 then some (2, 0xA0, 0xBF, 0)
  else if n = 0xED then some (2, 0x80, 0x9F, 0xD)
  else if 0xE1 ≤ n ∧ n ≤ 0xEF then some (2, 0x80, 0xBF, n - 0xE0)
  else if n = 0xF0 then some (3, 0x90, 0xBF, 0)
  else if 0xF1 ≤ n ∧ n ≤ 0xF3 then some (3, 0x80, 0xBF, n - 0xF0)
  else if n = 0xF4 then some (3, 0x80, 0x8F, 4)
  else none

/-- The code point that `count` more octets complete, the first of them within the bounds. -/
def tailOctets : (count : Nat) → (low high : UInt8) → (bits : Nat) → List UInt8 → Option Nat
  | 0, _, _, bits, _ => some bits
  | _ + 1, _, _, _, [] => none
  | count + 1, low, high, bits, b :: rest =>
    if low ≤ b ∧ b ≤ high then tailOctets count 0x80 0xBF (bits * 64 + (b.toNat - 0x80)) rest
    else none

/-- Cuts octets into units; `skip` octets belong to the character read last. -/
def cutOctets : (skip : Nat) → List UInt8 → List Piece
  | _, [] => []
  | skip + 1, _ :: rest => cutOctets skip rest
  | 0, b :: rest =>
    if b < 0x80 then .char (Char.ofNat b.toNat) :: cutOctets 0 rest
    else
      match leadOctet b with
      | none => .stray b :: cutOctets 0 rest
      | some (count, low, high, bits) =>
        match tailOctets count low high bits rest with
        | none => .stray b :: cutOctets 0 rest
        | some code => .char (Char.ofNat code) :: cutOctets count rest

def Piece.ofOctets (octets : List UInt8) : List Piece := cutOctets 0 octets

def textOfOctets? (octets : List UInt8) : Option String :=
  (Piece.chars? (Piece.ofOctets octets)).map String.ofList

def octetsOfText (s : String) : List UInt8 := s.toUTF8.toList

end ToolPipeline
