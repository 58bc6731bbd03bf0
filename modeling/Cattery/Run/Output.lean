import Cattery.Json.Decode
import Cattery.Json.Printer

namespace Cattery

structure DebugStep where
  index : UInt32
  clientModel : String
  providerModel : String
  durationMs : UInt64
  outputText : String
  parsedJson : Option Json
deriving DecidableEq, Repr

namespace DebugStep

def toJson (step : DebugStep) : Json :=
  .object [("index", .ofUInt32 step.index), ("client_model", .string step.clientModel),
    ("provider_model", .string step.providerModel), ("duration_ms", .ofUInt64 step.durationMs),
    ("output_text", .string step.outputText), ("parsed_json", step.parsedJson.getD .null)]

def ofJson? (value : Json) : Option DebugStep := do
  match ← Source.record? [["index"], ["client_model"], ["provider_model"], ["duration_ms"],
      ["output_text"], ["parsed_json"]] value with
  | [index, clientModel, providerModel, durationMs, outputText, parsedJson] =>
    some {
      index := ← Source.defaulted? Source.uint32? 0 index
      clientModel := ← Source.defaulted? Source.text? "" clientModel
      providerModel := ← Source.defaulted? Source.text? "" providerModel
      durationMs := ← Source.defaulted? Source.uint64? 0 durationMs
      outputText := ← Source.defaulted? Source.text? "" outputText
      parsedJson := ← Source.defaulted? (Source.nullable? some) none parsedJson }
  | _ => none

end DebugStep

namespace Run

structure Output where
  text : String
  debugSteps : Option (List DebugStep)
deriving DecidableEq, Repr

/-- The content of the first choice of a completion. The choices are an array, or an object whose
keys are places. -/
def content? (completion : Json) : Option Json := do
  let choices ← completion.get? "choices"
  let choice ← (choices.item? 0).or (choices.get? "0")
  let message ← choice.get? "message"
  message.get? "content"

def records? (completion : Json) : Option (List Json) := do
  let debug ← completion.get? "debug"
  let steps ← debug.get? "pipeline_steps"
  steps.array?

/-- The output in a completion. Content that is no text is shown as compact JSON text, and records
that cannot be read are left out. -/
def Output.ofCompletion (completion : Json) : Output :=
  { text :=
      match content? completion with
      | none => ""
      | some .null => ""
      | some (.string text) => text
      | some value => value.compact
    debugSteps := (records? completion).map fun steps => steps.filterMap DebugStep.ofJson? }

end Run

end Cattery
