import Cattery.Decimal.Numeral
import Cattery.Json.Meaning
import Cattery.Json.Printer
import Cattery.Text.Blank

namespace Cattery

structure Progress where
  step : UInt32
  totalSteps : UInt32
  stepName : String
  message : String
deriving DecidableEq, Repr

def Progress.toJson (update : Progress) : Json :=
  .object [("step", .ofUInt32 update.step), ("totalSteps", .ofUInt32 update.totalSteps),
    ("stepName", .string update.stepName), ("message", .string update.message)]

inductive Event where
  | progress (update : Progress)
  | complete (payload : Json)
  | failure (message : String)
deriving DecidableEq, Repr

namespace Event

def saturated (n : Nat) : UInt32 :=
  if n < UInt32.size then UInt32.ofNat n else UInt32.ofNat (UInt32.size - 1)

/-- A count: a number, or a text that spells one, without its fraction; zero for numbers below
zero and everything else. -/
def count : Option Json → UInt32
  | some (.number (.int value _)) => saturated value.toNat
  | some (.number (.double value)) =>
    if value.negative then 0 else saturated value.truncated
  | some (.string text) => saturated ((wholePart? (Chars.trim text.toList)).getD 0)
  | _ => 0

def label : Option Json → String
  | none => ""
  | some .null => ""
  | some (.string text) => text
  | some value => value.compact

def standardFailure : String :=
  "pipeline failed"

/-- The event that a JSON object stands for. A completion needs a payload other than null. -/
def ofJson? (value : Json) : Option Event :=
  match value.text? "type" with
  | some "progress" =>
    some (.progress {
      step := count (value.get? "step")
      totalSteps := count (value.get? "totalSteps")
      stepName := label (value.get? "stepName")
      message := label (value.get? "message") })
  | some "complete" =>
    match value.get? "data" with
    | none => none
    | some .null => none
    | some payload => some (.complete payload)
  | some "error" =>
    -- a message counts whatever it is, also when it is no text
    let named := (value.get? "message").or (value.get? "error")
    some (.failure (((named.bind Json.string?).bind Text.nonBlank?).getD standardFailure))
  | _ => none

def ofLine? (line : String) : Option Event :=
  match "data:".toList.isPrefixOf? (Chars.trim line.toList) with
  | none => none
  | some payload => (Json.parseChars? (Chars.trim payload)).bind ofJson?

end Event

end Cattery
