/-! Numbers spelled in decimal digits. -/

namespace ToolPipeline.Decimal

/-- The number that digits spell; there has to be at least one. -/
def natural? (digits : List Char) : Option Nat :=
  if digits.isEmpty || !digits.all Char.isDigit then none
  else some (digits.foldl (fun n c => n * 10 + (c.toNat - '0'.toNat)) 0)

def unsigned? : List Char → Option Nat
  | '+' :: digits => natural? digits
  | digits => natural? digits

def signed? : List Char → Option Int
  | '-' :: digits => (natural? digits).map fun n => -(n : Int)
  | s => (unsigned? s).map Int.ofNat

/-- The sign of a numeral, and what follows it; without a sign it is positive. -/
def readSign : List Char → Bool × List Char
  | '-' :: rest => (true, rest)
  | '+' :: rest => (false, rest)
  | rest => (false, rest)

/-- The exponent that follows the digits of a decimal; none at all is zero. -/
def exponent? : List Char → Option Int
  | [] => some 0
  | c :: rest =>
    if c = 'e' ∨ c = 'E' then
      let (negative, digits) := readSign rest
      (natural? digits).map fun n => if negative then -(n : Int) else n
    else none

def nearest (digits : Nat) (exponent : Int) : Float :=
  Float.ofScientific digits (exponent < 0) exponent.natAbs

/-- Digits with a point anywhere among them or none, and an exponent after them. -/
def decimal? (s : List Char) : Option Float := do
  let whole := s.takeWhile Char.isDigit
  let (places, rest) := match s.dropWhile Char.isDigit with
    | '.' :: rest => (rest.takeWhile Char.isDigit, rest.dropWhile Char.isDigit)
    | rest => ([], rest)
  let digits ← natural? (whole ++ places)
  let exponent ← exponent? rest
  return nearest digits (exponent - places.length)

def float? (s : List Char) : Option Float := do
  let (negative, s) := readSign s
  let x ← match String.ofList (s.map Char.toLower) with
    | "inf" | "infinity" => some (1.0 / 0.0)
    | "nan" => some (0.0 / 0.0)
    | _ => decimal? s
  return if negative then -x else x

end ToolPipeline.Decimal
