import Cattery.Cat.Slug
import Cattery.Json.Value
import Cattery.Text.Blank

namespace Cattery.Run

structure Input where
  message : String
  imageUrl : Option String
deriving DecidableEq, Repr

inductive Part where
  | text (content : String)
  | image (url : String)
deriving DecidableEq, Repr

def Input.parts (input : Input) : List Part :=
  (Text.nonBlank? input.message).toList.map .text ++
    (input.imageUrl.bind Text.nonBlank?).toList.map .image

structure Options where
  draft : Bool
  debug : Bool
  progress : Bool
deriving DecidableEq, Repr

def Part.toJson : Part → Json
  | .text content => .object [("type", .string "text"), ("text", .string content)]
  | .image url =>
    .object [("type", .string "image_url"), ("image_url", .object [("url", .string url)])]

def requestBody (model : String) (parts : List Part) (options : Options) : Json :=
  .object [
    ("model", .string model),
    ("stream", .bool false),
    ("cat_draft", .bool options.draft),
    ("debug_pipeline", .bool options.debug),
    ("progress_updates", .bool options.progress),
    ("messages", .array [
      .object [("role", .string "user"), ("content", .array (parts.map Part.toJson))]])]

end Cattery.Run
