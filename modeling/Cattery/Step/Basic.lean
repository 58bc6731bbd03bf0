import Cattery.Text.Blank

namespace Cattery

inductive ImageSource where
  | request
  | previousOverlay
deriving DecidableEq, Repr

def ImageSource.name : ImageSource → String
  | .request => "original"
  | .previousOverlay => "previous_overlay"

def ImageSource.ofName? (name : String) : Option ImageSource :=
  if name = "original" then some .request
  else if name = "previous_overlay" then some .previousOverlay
  else none

inductive Language where
  | js
  | py
deriving DecidableEq, Repr

def Language.name : Language → String
  | .js => "js"
  | .py => "py"

inductive Step.Kind where
  | model (modelId instructions : String)
  | visionHttp (path : String) (imageSource : ImageSource) (modelId instructions : Option String)
  | imageGen (imageSource : ImageSource) (modelId systemInstructions instructions : String)
  /-- A function `transform(input, ctx)`. -/
  | transform (language : Language) (code : String)
deriving DecidableEq, Repr

structure Step where
  id : String
  name : String
  kind : Step.Kind
deriving DecidableEq, Repr

namespace Step

def Kind.tag : Kind → String
  | .model .. => "model"
  | .visionHttp .. => "vision_http"
  | .imageGen .. => "image_gen"
  | .transform .js _ => "transform_js"
  | .transform .py _ => "transform_py"

/-- The model a step names, if it is not blank. A transformation names none. -/
def modelId? (step : Step) : Option String :=
  match step.kind with
  | .model modelId _ => Text.nonBlank? modelId
  | .imageGen _ modelId _ _ => Text.nonBlank? modelId
  | .visionHttp _ _ modelId _ => modelId.bind Text.nonBlank?
  | .transform .. => none

structure Defaults where
  modelId : String
  imageModelId : String
deriving DecidableEq, Repr

def Defaults.standard : Defaults :=
  { modelId := "gemini-3-flash", imageModelId := "gemini-2.5-flash-image" }

def standardName : String :=
  "Kitten"

def standard (defaults : Defaults) (newId : Nat → String) : List Step :=
  [{ id := newId 0, name := standardName, kind := .model defaults.modelId "" }]

end Step

end Cattery
