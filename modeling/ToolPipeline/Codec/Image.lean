/-! What the first octets of an image tell: its format and, for one of the formats, its size. -/

namespace ToolPipeline.Image

inductive Format where
  | jpeg | png | gif | webp | bmp
  deriving DecidableEq, Repr

def Format.mime : Format → String
  | .jpeg => "image/jpeg"
  | .png => "image/png"
  | .gif => "image/gif"
  | .webp => "image/webp"
  | .bmp => "image/bmp"

def pngSignature : List UInt8 := [0x89, 0x50, 0x4E, 0x47, 0x0D, 0x0A, 0x1A, 0x0A]

def format? (octets : List UInt8) : Option Format :=
  if [0xFF, 0xD8, 0xFF].isPrefixOf octets then some .jpeg
  else if pngSignature.isPrefixOf octets then some .png
  else if [0x47, 0x49, 0x46, 0x38].isPrefixOf octets then some .gif
  else if [0x52, 0x49, 0x46, 0x46].isPrefixOf octets
      ∧ [0x57, 0x45, 0x42, 0x50].isPrefixOf (octets.drop 8) then some .webp
  else if [0x42, 0x4D].isPrefixOf octets then some .bmp
  else none

def bigEndianValue (octets : List UInt8) : Nat := octets.foldl (fun n b => n * 256 + b.toNat) 0

def pngSize? (octets : List UInt8) : Option (Nat × Nat) :=
  if format? octets = some .png ∧ 24 ≤ octets.length
      ∧ (octets.drop 12).take 4 = [0x49, 0x48, 0x44, 0x52] then
    some (bigEndianValue ((octets.drop 16).take 4), bigEndianValue ((octets.drop 20).take 4))
  else none

end ToolPipeline.Image
