/-! The fewest decimal digits that read back as a given float: among the decimals that round to
the float, those with the fewest digits, and of these the one nearest to it. -/

namespace ToolPipeline.Decimal

/-- The absolute value of a finite float as `mantissa * 2 ^ exponent`. `closeBelow` says that the
next smaller float is only half as far away as the next larger one. -/
structure Binary where
  mantissa : Nat
  exponent : Int
  closeBelow : Bool

def Binary.ofBits (bits : UInt64) : Binary :=
  let field : Nat := bits.toNat / Nat.pow 2 52 % Nat.pow 2 11
  let fraction : Nat := bits.toNat % Nat.pow 2 52
  if field = 0 then ⟨fraction, -1074, false⟩
  else ⟨Nat.pow 2 52 + fraction, (field : Int) - 1075, fraction = 0 ∧ 1 < field⟩

structure Scaled where
  digits : Nat
  exponent : Int
  deriving DecidableEq, Repr

/-- What an exact tie between two neighbours on the decimal grid goes to. -/
inductive Tie where
  | toEven | up

def digitCount (n : Nat) : Nat := (Nat.toDigits 10 n).length

/-- The exponent of the first digit of the positive number `num / den`. -/
def leadingExponent (num den : Nat) : Int :=
  if den ≤ num then (digitCount (num / den) : Int) - 1
  else -(digitCount ((den + num - 1) / num - 1) : Int)

/-- A number on the grid of `10 ^ unit` between the midpoints to the neighbouring floats: the grid
point nearest to the float, if any is inside. All four quantities are in quarters of the float's
last place. -/
def nearestOnGrid (tie : Tie) (b : Binary) (unit : Int) : Option Nat :=
  let q := b.exponent - 2
  let gridScale := Nat.pow 10 unit.toNat * Nat.pow 2 (-q).toNat
  let scale := Nat.pow 2 q.toNat * Nat.pow 10 (-unit).toNat
  let value := 4 * b.mantissa * scale
  let low := (4 * b.mantissa - if b.closeBelow then 1 else 2) * scale
  let high := (4 * b.mantissa + 2) * scale
  let endsIn := b.mantissa % 2 = 0
  let inside := fun c =>
    let x := c * gridScale
    decide (0 < c ∧ (low < x ∧ x < high ∨ endsIn ∧ (x = low ∨ x = high)))
  let below := value / gridScale
  let rest := value % gridScale
  if rest = 0 ∧ inside below then some below
  else
    let preferAbove := match tie with
      | .toEven => decide (gridScale < 2 * rest ∨ (gridScale = 2 * rest ∧ below % 2 = 1))
      | .up => decide (gridScale ≤ 2 * rest)
    match inside below, inside (below + 1) with
    | true, true => some (if preferAbove then below + 1 else below)
    | true, false => some below
    | false, true => some (below + 1)
    | false, false => none

def searchGrids (tie : Tie) (b : Binary) (lead : Int) : (tries count : Nat) → Scaled
  | 0, _ => ⟨b.mantissa, 0⟩
  | tries + 1, count =>
    let unit := lead - count + 1
    match nearestOnGrid tie b unit with
    | some c => ⟨c, unit⟩
    | none => searchGrids tie b lead tries (count + 1)

def dropZeros : (tries : Nat) → Scaled → Scaled
  | 0, d => d
  | tries + 1, d =>
    if d.digits % 10 = 0 ∧ d.digits ≠ 0 then dropZeros tries ⟨d.digits / 10, d.exponent + 1⟩ else d

/-- The shortest decimal of a positive float; seventeen digits always suffice. -/
def shortest (tie : Tie) (bits : UInt64) : Scaled :=
  let b := Binary.ofBits bits
  let lead := leadingExponent (b.mantissa * Nat.pow 2 b.exponent.toNat)
    (Nat.pow 2 (-b.exponent).toNat)
  dropZeros 20 (searchGrids tie b lead 17 1)

end ToolPipeline.Decimal
