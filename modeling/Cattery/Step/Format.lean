import Cattery.Json.Decode
import Cattery.Step.Basic

namespace Cattery.Step

def optionalMember (key : String) : Option String → List (String × Json)
  | none => []
  | some text => [(key, .string text)]

def Kind.members : Kind → List (String × Json)
  | .model modelId instructions =>
    [("model_id", .string modelId), ("instructions", .string instructions)]
  | .visionHttp path imageSource modelId instructions =>
    [("path", .string path), ("image_source", .string imageSource.name)] ++
      optionalMember "model_id" modelId ++ optionalMember "instructions" instructions
  | .imageGen imageSource modelId systemInstructions instructions =>
    [("image_source", .string imageSource.name), ("model_id", .string modelId),
      ("system_instructions", .string systemInstructions), ("instructions", .string instructions)]
  | .transform _ code => [("code", .string code)]

def toJson (step : Step) : Json :=
  .object ([("id", .string step.id), ("name", .string step.name),
    ("type", .string step.kind.tag)] ++ step.kind.members)

/-- The tags in the order in which a number may stand for them. -/
def tags : List String :=
  ["model", "vision_http", "image_gen", "transform_js", "transform_py"]

def tag? (value : Json) : Option String :=
  match value with
  | .string tag => some tag
  | .number (.int (.ofNat place) _) => tags[place]?
  | _ => none

def imageSource? (value : Json) : Option ImageSource :=
  match value with
  | .string name => ImageSource.ofName? name
  | .object [(name, .null)] => ImageSource.ofName? name
  | .object [(name, .object [])] => ImageSource.ofName? name
  | _ => none

def kindOfMembers? (tag : String) (step : Json) : Option Kind := do
  let required (key : String) : Option String := (step.get? key).bind Json.string?
  let defaulted (key : String) : Option String := Source.defaulted? Json.string? "" (step.get? key)
  let optional (key : String) : Option (Option String) :=
    Source.defaulted? (Source.nullable? Json.string?) none (step.get? key)
  let imageSource : Option ImageSource :=
    Source.defaulted? imageSource? .request (step.get? "image_source")
  match tag with
  | "model" => some (.model (← required "model_id") (← defaulted "instructions"))
  | "vision_http" =>
    some (.visionHttp (← required "path") (← imageSource) (← optional "model_id")
      (← optional "instructions"))
  | "image_gen" =>
    some (.imageGen (← imageSource) (← required "model_id") (← defaulted "system_instructions")
      (← defaulted "instructions"))
  | "transform_js" => some (.transform .js (← required "code"))
  | "transform_py" => some (.transform .py (← required "code"))
  | _ => none

def ofJson? (value : Json) : Option Step := do
  let id ← value.text? "id"
  let name ← value.text? "name"
  let tag ← (value.get? "type").bind tag?
  let kind ← kindOfMembers? tag value
  some { id, name, kind }

end Cattery.Step
