import Cattery.Document.Codec
import Cattery.Step.Basic

namespace Cattery

namespace Step

def Kind.fixedRoute : Kind → String
  | .visionHttp .. => "vision-http"
  | .transform .js _ => "transform-js"
  | .transform .py _ => "transform-py"
  | .model .. => ""
  | .imageGen .. => ""

def route (step : Step) : String :=
  Text.lowercase (step.modelId?.getD step.kind.fixedRoute)

def textLine (text : String) : List String :=
  (Text.nonBlank? text).toList

def Kind.lines : Kind → List String
  | .model _ instructions => textLine instructions
  | .visionHttp path imageSource _ instructions =>
    ["VISION_PATH: " ++ Text.trim path, "IMAGE_SOURCE: " ++ imageSource.name] ++
      textLine (instructions.getD "")
  | .imageGen imageSource _ systemInstructions instructions =>
    ["IMAGE_SOURCE: " ++ imageSource.name] ++
      (textLine systemInstructions).map ("SYSTEM_INSTRUCTIONS: " ++ ·) ++ textLine instructions
  | .transform language code =>
    ["TRANSFORM_LANGUAGE: " ++ language.name,
      "```" ++ language.name ++ "\n" ++ Text.trim code ++ "\n```"]

def passThroughLine : String :=
  "OUTPUT: Produce only what the next kitten needs as its input. Do not address the user."

def finalLine : String :=
  "FINAL_STEP: This is the last kitten. Your output is the answer returned to the user."

def body (step : Step) (isLast : Bool) : String :=
  "\n".intercalate (["KITTEN_NAME: " ++ Text.trim step.name] ++ step.kind.lines ++
    [if isLast then finalLine else passThroughLine])

end Step

namespace Document

def globalDirective (name description : String) : String :=
  "\n".intercalate (
    ["You are running the cat \"" ++ (Text.nonBlank? name).getD "Untitled cat" ++ "\"."] ++
    (if Text.isBlank description then [] else [description]) ++
    ["Kittens run in the order listed. Each kitten receives the previous kitten's output as its " ++
      "input.",
    "Only the final kitten's output is shown to the user; intermediate outputs are internal."])

def directivesFrom (index : Nat) : List Step → List Directive
  | [] => []
  | step :: rest =>
    ⟨UInt32.ofNat index, step.route, step.body rest.isEmpty⟩ :: directivesFrom (index + 1) rest

def ofSteps (name description : String) (steps : List Step) : Document :=
  { globalText := globalDirective name description, steps := directivesFrom 1 steps }

end Document

structure Compiled where
  modelIds : List String
  instructions : String
deriving DecidableEq, Repr

def compile (name description : String) (steps : List Step) : Compiled :=
  { modelIds := steps.filterMap Step.modelId?
    instructions := (Document.ofSteps name description steps).encode }

end Cattery
