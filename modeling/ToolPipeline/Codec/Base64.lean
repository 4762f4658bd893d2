/-! Base64 with the standard alphabet. Padding is required and the bits that a text leaves over have
to be zero, so every sequence of octets has exactly one text. -/

namespace ToolPipeline.Base64

def symbolValue? (b : UInt8) : Option Nat :=
  let n := b.toNat
  if 65 ≤ n ∧ n ≤ 90 then some (n - 65)
  else if 97 ≤ n ∧ n ≤ 122 then some (n - 97 + 26)
  else if 48 ≤ n ∧ n ≤ 57 then some (n - 48 + 52)
  else if n = 43 then some 62
  else if n = 47 then some 63
  else none

def pad : UInt8 := 61

inductive Flaw where
  | symbol (octet : UInt8) (offset : Nat)
  | lastSymbol (octet : UInt8) (offset : Nat)
  | length (n : Nat)
  | padding
  deriving DecidableEq, Repr

def Flaw.message : Flaw → String
  | .symbol octet offset =>
    "Invalid symbol " ++ toString octet.toNat ++ ", offset " ++ toString offset ++ "."
  | .lastSymbol octet offset =>
    "Invalid last symbol " ++ toString octet.toNat ++ ", offset " ++ toString offset ++ "."
  | .length n => "Invalid input length: " ++ toString n
  | .padding => "Invalid padding"

/-- The values of symbols that stand before the last four. -/
def bodyValues (offset : Nat) : List UInt8 → Except Flaw (List Nat)
  | [] => .ok []
  | b :: rest =>
    match symbolValue? b with
    | none => .error (.symbol b offset)
    | some v => (bodyValues (offset + 1) rest).map (v :: ·)

def joinQuads : List Nat → List UInt8
  | a :: b :: c :: d :: rest =>
    let n := ((a * 64 + b) * 64 + c) * 64 + d
    UInt8.ofNat (n / 65536) :: UInt8.ofNat (n / 256) :: UInt8.ofNat n :: joinQuads rest
  | _ => []

/-- The values of up to four last symbols, and how many padding signs follow them. `index` symbols
of the four have been read, `pads` of them padding signs. -/
def tailValues (offset index pads : Nat) : List UInt8 → Except Flaw (List Nat × Nat)
  | [] => .ok ([], pads)
  | b :: rest =>
    if b = pad then
      if index < 2 then .error (.symbol b (offset + index))
      else tailValues offset (index + 1) (pads + 1) rest
    else if 0 < pads then .error (.symbol pad (offset + index - pads))
    else
      match symbolValue? b with
      | none => .error (.symbol b (offset + index))
      | some v => (tailValues offset (index + 1) pads rest).map fun (vs, p) => (v :: vs, p)

/-- The octets of the last symbols; the bits that are left over have to be zero. -/
def decodeTail (offset : Nat) (tail : List UInt8) : Except Flaw (List UInt8) := do
  let (values, pads) ← tailValues offset 0 0 tail
  let count := values.length
  if tail = [] then return []
  if count < 2 then throw (.length (offset + count))
  if (count + pads) % 4 ≠ 0 then throw .padding
  let n := values.foldl (fun n v => n * 64 + v) 0
  let unused := 6 * count % 8
  if n % Nat.pow 2 unused ≠ 0 then
    throw (.lastSymbol (tail.getD (count - 1) pad) (offset + count - 1))
  let whole := n / Nat.pow 2 unused
  return ([whole / 65536, whole / 256, whole].drop (4 - count)).map UInt8.ofNat

/-- A text of a length that leaves one symbol over is refused for that symbol first. -/
def strayLast? (text : List UInt8) : Option Flaw :=
  match text.getLast? with
  | some b =>
    if text.length % 4 = 1 ∧ b ≠ pad ∧ symbolValue? b = none then some (.symbol b (text.length - 1))
    else none
  | none => none

def decode (text : List UInt8) : Except Flaw (List UInt8) := do
  if let some f := strayLast? text then throw f
  let bodyLength := (text.length - 1) / 4 * 4
  let values ← bodyValues 0 (text.take bodyLength)
  let last ← decodeTail bodyLength (text.drop bodyLength)
  return joinQuads values ++ last

end ToolPipeline.Base64
