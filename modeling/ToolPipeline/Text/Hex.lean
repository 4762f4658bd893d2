/-! Hexadecimal digits, read in either case and written in lower case. -/

namespace ToolPipeline.Hex

def digit? (c : Char) : Option Nat :=
  if '0' ≤ c ∧ c ≤ '9' then some (c.toNat - '0'.toNat)
  else if 'a' ≤ c ∧ c ≤ 'f' then some (c.toNat - 'a'.toNat + 10)
  else if 'A' ≤ c ∧ c ≤ 'F' then some (c.toNat - 'A'.toNat + 10)
  else none

def digit (n : Nat) : Char := Nat.digitChar (n % 16)

def ofNat (n : Nat) : List Char := Nat.toDigits 16 n

def ofOctets (octets : List UInt8) : String :=
  String.ofList (octets.flatMap fun b => [digit (b.toNat / 16), digit b.toNat])

def octets? : List Char → Option (List UInt8)
  | [] => some []
  | high :: low :: rest => do
    let h ← digit? high
    let l ← digit? low
    let tail ← octets? rest
    return UInt8.ofNat (h * 16 + l) :: tail
  | [_] => none

end ToolPipeline.Hex
