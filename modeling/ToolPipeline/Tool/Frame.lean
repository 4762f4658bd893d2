import ToolPipeline.Tool.Plugin
import ToolPipeline.Codec.Base64
import ToolPipeline.Codec.Sha256
import ToolPipeline.Codec.Image
import ToolPipeline.Text.Blank
import ToolPipeline.Text.Split

/-! Tools for a single image. The image is the payload's `image_data`: base64, or a data URL. Every
tool keeps the members of the payload that it does not write itself. -/

namespace ToolPipeline.FrameTools

open Json

/-- The type that a data URL declares, if any, and its data; another text is data as a whole. -/
def splitDataUrl (raw : List Char) : Option (List Char) × List Char :=
  match Text.stripHead? ['d', 'a', 't', 'a', ':'] raw with
  | none => (none, raw)
  | some rest =>
    match Text.splitAt? [';', 'b', 'a', 's', 'e', '6', '4', ','] rest with
    | some ([], data) => (none, data)
    | some (mime, data) => (some mime, data)
    | none => (none, raw)

structure DecodedImage where
  octets : List UInt8
  declared : Option String

def decodeText (raw : String) : Except ToolError DecodedImage :=
  let (mime, data) := splitDataUrl raw.toList
  match Base64.decode (octetsOfText (String.ofList (Text.trimChars data))) with
  | .error f => .error (.invalidInput ("image_data is not valid base64: " ++ f.message))
  | .ok [] => .error (.invalidInput "image_data is empty")
  | .ok octets => .ok ⟨octets, mime.map String.ofList⟩

def imageOf (payload : Payload) : Except ToolError DecodedImage :=
  match payload.get? "image_data" with
  | none => .error (.invalidInput "image_data is required")
  | some v =>
    match v.asString? with
    | none => .error (.invalidInput "image_data must be a string")
    | some raw => decodeText raw

def DecodedImage.mime (image : DecodedImage) : Value :=
  match image.declared, Image.format? image.octets with
  | some m, _ => .string m
  | none, some f => .string f.mime
  | none, none => .null

def decode (payload : Payload) : Except ToolError Object :=
  (imageOf payload).map fun image =>
    let reported := (payload.insert "byte_len" (.int image.octets.length)).insert "mime" image.mime
    match Image.pngSize? image.octets with
    | none => reported
    | some (width, height) => (reported.insert "width" (.int width)).insert "height" (.int height)

def checksum (payload : Payload) : Except ToolError Object :=
  (imageOf payload).map fun image =>
    payload.insert "sha256" (.string (Sha256.hexDigest image.octets))

def timestamp (occasion : Occasion) (payload : Payload) : Object :=
  payload.insert "processed_at" (.string occasion.stamp)

def stripImage (payload : Payload) : Object := payload.erase "image_data"

def tools : List (String × Tool) := [
  ("decode", .pure "Decode image_data and report byte_len, mime, width and height" decode),
  ("checksum", .pure "SHA-256 of the decoded image bytes" checksum),
  ("timestamp", ⟨"Stamp processed_at with the current UTC time",
    fun occasion payload => Call.ok (timestamp occasion payload)⟩),
  ("strip_image", .pure "Drop image_data to keep results small" fun p => .ok (stripImage p))]

def plugin : Plugin := .ofTools "frame" tools

end ToolPipeline.FrameTools
