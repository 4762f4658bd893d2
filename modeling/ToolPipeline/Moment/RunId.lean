import ToolPipeline.Text.Hex

/-! Ids that are ordered by the moment of their making: sixteen octets, of which the first six hold
the milliseconds and all others are random but for six bits that tell the format. -/

namespace ToolPipeline.Moment

def octetsOf : (count : Nat) → Nat → List UInt8
  | 0, _ => []
  | count + 1, n => octetsOf count (n / 256) ++ [UInt8.ofNat n]

/-- Random octets with the six bits of the format set. -/
def marked : List UInt8 → List UInt8
  | a :: b :: c :: rest => (0x70 + a % 0x10) :: b :: (0x80 + c % 0x40) :: rest
  | octets => octets

def runId (ms : Nat) (random : List UInt8) : String :=
  let octets := octetsOf 6 ms ++ marked random
  let part := fun start count => Hex.ofOctets ((octets.drop start).take count)
  "-".intercalate [part 0 4, part 4 2, part 6 2, part 8 2, part 10 6]

example : runId 1735689599999 [255, 255, 255, 255, 3, 4, 5, 6, 7, 8]
    = "01941f29-7bff-7fff-bfff-030405060708" := by decide +kernel

end ToolPipeline.Moment
