import Cattery.Json.Value
import Cattery.Step.Basic

namespace Cattery.Step

def looseText? (keys : List String) (entry : Json) : Option String :=
  keys.findSome? fun key => (entry.text? key).bind Text.nonBlank?

/-- The image source a loosely shaped entry names; anything that is not a known name is the image
of the request. The second spelling counts only where the first one is missing. -/
def looseImageSource (entry : Json) : ImageSource :=
  let named := (entry.get? "image_source").or (entry.get? "imageSource")
  match (named.bind Json.string?).map Text.trim with
  | some "previous_overlay" => .previousOverlay
  | _ => .request

def looseCode? (entry : Json) : Option String :=
  (entry.text? "code").filter fun code => !Text.isBlank code

def looseKind? (defaults : Defaults) (entry : Json) : Option Kind :=
  let modelId := looseText? ["model_id", "modelId"] entry
  let instructions := entry.text? "instructions"
  match (looseText? ["type"] entry).getD "model" with
  | "model" =>
    let modelId := modelId.getD (Text.trim defaults.modelId)
    if modelId.isEmpty then none else some (.model modelId (instructions.getD ""))
  | "vision_http" =>
    (looseText? ["path"] entry).map fun path =>
      .visionHttp path (looseImageSource entry) modelId
        (instructions.filter fun text => !Text.isBlank text)
  | "image_gen" =>
    let system := (entry.text? "system_instructions").or (entry.text? "systemInstructions")
    some (.imageGen (looseImageSource entry) (modelId.getD (Text.trim defaults.imageModelId))
      (system.getD "") (instructions.getD ""))
  | "transform_js" => (looseCode? entry).map (.transform .js)
  | "transform_py" => (looseCode? entry).map (.transform .py)
  | _ => none

def ofLoose? (defaults : Defaults) (newId : String) (entry : Json) : Option Step :=
  match entry with
  | .object _ =>
    (looseKind? defaults entry).map fun kind =>
      { id := (looseText? ["id"] entry).getD newId
        name := (looseText? ["name"] entry).getD standardName
        kind }
  | _ => none

/-- The steps among some loosely shaped entries. An entry without an id gets the new id of its
place. -/
def normalize (defaults : Defaults) (newId : Nat → String) (entries : List Json) : List Step :=
  entries.zipIdx.filterMap fun (entry, place) => ofLoose? defaults (newId place) entry

end Cattery.Step
