import ToolPipeline.Decimal.Shortest

/-! Writing a float: where its digits go, by a small table of decisions. -/

namespace ToolPipeline.Decimal

/-- The decisions of one notation. Positional notation is used when the first digit's exponent is
between `least` and `most`; otherwise `e` and the exponent follow the digits. -/
structure Layout where
  least : Option Int
  most : Option Int
  /-- Whether a whole number in positional notation ends in `.0`. -/
  pointZero : Bool
  /-- Whether a positive exponent carries a plus sign. -/
  plusSign : Bool
  tie : Tie

def Layout.json : Layout := ⟨some (-5), some 15, true, true, .toEven⟩

def Layout.field : Layout := ⟨some (-4), some 15, true, false, .up⟩

def Layout.plain : Layout := ⟨none, none, false, false, .up⟩

def digitsOf (n : Nat) : List Char := Nat.toDigits 10 n

def zeros (n : Nat) : List Char := List.replicate n '0'

/-- Digits with the point after `whole` of them, which may lie outside the digits. -/
def positional (layout : Layout) (digits : List Char) (whole : Int) : List Char :=
  let count : Int := digits.length
  if count ≤ whole then
    digits ++ zeros (whole - count).toNat ++ if layout.pointZero then ['.', '0'] else []
  else if 0 < whole then
    digits.take whole.toNat ++ '.' :: digits.drop whole.toNat
  else
    '0' :: '.' :: (zeros (-whole).toNat ++ digits)

def intDigits (n : Int) : List Char :=
  if n < 0 then '-' :: digitsOf n.natAbs else digitsOf n.natAbs

def scientific (layout : Layout) (digits : List Char) (exponent : Int) : List Char :=
  let mark := 'e' :: ((if layout.plusSign ∧ 0 ≤ exponent then ['+'] else []) ++ intDigits exponent)
  match digits with
  | [] => mark
  | [d] => d :: mark
  | d :: rest => d :: '.' :: (rest ++ mark)

def Layout.write (layout : Layout) (d : Scaled) : List Char :=
  let digits := digitsOf d.digits
  let lead := d.exponent + digits.length - 1
  if (layout.least.all (· ≤ lead)) && (layout.most.all (lead ≤ ·)) then
    positional layout digits (lead + 1)
  else scientific layout digits lead

def Layout.float (layout : Layout) (x : Float) : List Char :=
  if x.isNaN then ['N', 'a', 'N']
  else
    let bits := x.toBits
    let sign := if Nat.pow 2 63 ≤ bits.toNat then ['-'] else []
    let magnitude := UInt64.ofNat (bits.toNat % Nat.pow 2 63)
    sign ++
      if x.isInf then ['i', 'n', 'f']
      else if magnitude = 0 then '0' :: if layout.pointZero then ['.', '0'] else []
      else layout.write (shortest layout.tie magnitude)

end ToolPipeline.Decimal
