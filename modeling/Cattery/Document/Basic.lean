import Cattery.Text.Blank
import Cattery.Text.Lowercase
import Cattery.Json.Decode

namespace Cattery

structure Directive where
  /-- The position of the step, counted from one. Positions may repeat or be missing. -/
  index : UInt32
  modelId : String
  instructions : String
deriving DecidableEq, Repr

structure Document where
  globalText : String
  steps : List Directive
deriving DecidableEq, Repr

namespace Directive

/-- A directive that can be written: trimmed, with its model in lower case. There is none when the
index is zero or one of the texts is blank. -/
def sanitized? (directive : Directive) : Option Directive :=
  let modelId := Text.lowercase (Text.trim directive.modelId)
  let instructions := Text.trim directive.instructions
  if directive.index == 0 || modelId.isEmpty || instructions.isEmpty then none
  else some { directive with modelId, instructions }

def sort (directives : List Directive) : List Directive :=
  directives.mergeSort fun a b => a.index ≤ b.index

def sanitize (directives : List Directive) : List Directive :=
  sort (directives.filterMap sanitized?)

def toJson (directive : Directive) : Json :=
  .object [("index", .ofUInt32 directive.index), ("modelId", .string directive.modelId),
    ("instructions", .string directive.instructions)]

def ofJson? (value : Json) : Option Directive := do
  match ← Source.record? [["index"], ["modelId"], ["instructions"]] value with
  | [index, modelId, instructions] =>
    some {
      index := ← Source.required? Source.uint32? index
      modelId := ← Source.required? Source.text? modelId
      instructions := ← Source.required? Source.text? instructions }
  | _ => none

end Directive

namespace Document

def plain (globalText : String) : Document :=
  { globalText, steps := [] }

def toJson (document : Document) : Json :=
  .object [("global", .string document.globalText),
    ("steps", .array (document.steps.map Directive.toJson))]

def ofJson? (value : Json) : Option Document := do
  match ← Source.record? [["global"], ["steps"]] value with
  | [globalText, steps] =>
    some {
      globalText := ← Source.defaulted? Source.text? "" globalText
      steps := ← Source.defaulted? (Source.list? Directive.ofJson?) [] steps }
  | _ => none

end Document

end Cattery
