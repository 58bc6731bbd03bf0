import Cattery.Run.Output
import Cattery.Text.Base64
import Cattery.Text.Blank
import Cattery.Text.Search

namespace Cattery.Image

inductive Format where
  | png
  | jpeg
deriving DecidableEq, Repr

/-- The format of base64 text. JPEG data starts with the bytes FF D8 FF, which are these four
digits; everything else counts as PNG. -/
def Format.sniff (base64 : List Char) : Format :=
  if "/9j/".toList.isPrefixOf base64 then .jpeg else .png

def Format.extension : Format → String
  | .png => "png"
  | .jpeg => "jpg"

def Format.contentType : Format → String
  | .png => "image/png"
  | .jpeg => "image/jpeg"

def fields : List String :=
  ["overlay_base64", "image_base64", "overlay_png_base64"]

def stripDataUrl (text : List Char) : List Char :=
  match "data:".toList.isPrefixOf? text with
  | none => text
  | some rest =>
    match cut? ";base64,".toList rest with
    | some (_, data) => data
    | none => text

def find? (step : DebugStep) : Option String :=
  step.parsedJson.bind fun parsed =>
    fields.findSome? fun field =>
      (parsed.text? field).bind fun text =>
        let payload := Chars.trim (stripDataUrl text.toList)
        if payload.isEmpty then none else some (String.ofList payload)

def isFiller (c : Char) : Bool :=
  c == ' ' || c == '\t' || c == '\n' || c == '\x0c' || c == '\r'

inductive Fault where
  | malformed
  | empty
deriving DecidableEq, Repr

def decode (payload : String) : Except Fault (List UInt8 × Format) :=
  let digits := payload.toList.filter fun c => !isFiller c
  match Base64.decodeChars? digits with
  | none => .error .malformed
  | some [] => .error .empty
  | some bytes => .ok (bytes, Format.sniff digits)

end Cattery.Image
