import Cattery.Json.Decode
import Cattery.Json.Printer
import Cattery.Text.Blank

namespace Cattery.Vision

inductive EntryKind where
  | segmentation
  | postprocess
deriving DecidableEq, Repr

def EntryKind.tag : EntryKind → String
  | .segmentation => "vision_sam3"
  | .postprocess => "vision_postprocess"

def EntryKind.ofTag? (tag : String) : Option EntryKind :=
  if tag = "vision_sam3" then some .segmentation
  else if tag = "vision_postprocess" then some .postprocess
  else none

structure Target where
  name : String
  prompts : List String
deriving DecidableEq, Repr

structure Config where
  enabled : Bool
  includeRaw : Bool
  targets : List Target
  blocksJson : String
deriving DecidableEq, Repr

def Target.sanitized? (target : Target) : Option Target :=
  let prompts := target.prompts.filterMap Text.nonBlank?
  match Text.nonBlank? target.name with
  | some name => if prompts.isEmpty then none else some { name, prompts }
  | none => none

def Target.toJson (target : Target) : Json :=
  .object [("name", .string target.name), ("prompts", .array (target.prompts.map .string))]

def Target.ofJson? (value : Json) : Option Target := do
  match ← Source.record? [["name"], ["prompts"]] value with
  | [name, prompts] =>
    some {
      name := ← Source.required? Source.text? name
      prompts := ← Source.required? (Source.list? Source.text?) prompts }
  | _ => none

def Config.toJson (config : Config) : Json :=
  .object [("enabled", .bool config.enabled), ("includeRaw", .bool config.includeRaw),
    ("targets", .array (config.targets.map Target.toJson)),
    ("blocksJson", .string config.blocksJson)]

def Config.ofJson? (value : Json) : Option Config := do
  match ← Source.record? [["enabled"], ["includeRaw"], ["targets"], ["blocksJson"]] value with
  | [enabled, includeRaw, targets, blocksJson] =>
    some {
      enabled := ← Source.required? Source.bool? enabled
      includeRaw := ← Source.defaulted? Source.bool? false includeRaw
      targets := ← Source.defaulted? (Source.list? Target.ofJson?) [] targets
      blocksJson := ← Source.defaulted? Source.text? "" blocksJson }
  | _ => none

def Target.ofStored? (value : Json) : Option Target := do
  let name ← value.text? "name"
  let prompts ← (value.get? "prompts").bind Json.array?
  Target.sanitized? { name, prompts := prompts.filterMap Json.string? }

structure Share where
  includeRaw : Bool
  targets : List Target
  blocks : List Json
deriving Repr

def listMember (key : String) (value : Json) : List Json :=
  ((value.get? key).bind Json.array?).getD []

def Share.ofEntry (entry : Json) : Share :=
  let config := (entry.get? "config").getD .null
  match (entry.text? "type").bind EntryKind.ofTag? with
  | some .segmentation =>
    { includeRaw := ((config.get? "include_raw").bind Json.bool?).getD false
      targets := (listMember "targets" config).filterMap Target.ofStored?
      blocks := [] }
  | some .postprocess =>
    { includeRaw := false
      targets := []
      blocks := (listMember "blocks" config).filter fun block => block.object?.isSome }
  | none => { includeRaw := false, targets := [], blocks := [] }

def Config.ofEntries (entries : List Json) : Config :=
  let shares := entries.map Share.ofEntry
  let targets := shares.flatMap Share.targets
  { enabled := !targets.isEmpty
    includeRaw := shares.any Share.includeRaw
    targets
    blocksJson := (Json.array (shares.flatMap Share.blocks)).indented }

def Config.ofStored (stored : Json) : Config :=
  let value :=
    match stored with
    | .string text => (Json.parse? text).getD .null
    | value => value
  Config.ofEntries (listMember "steps" value)

inductive Refusal where
  | noTargets
  | blocksNotJson
  | blocksNotArray
  /-- The place of the block is counted from one. -/
  | blockNotObject (place : Nat)
  | tooManyBlocks (count : Nat)
deriving DecidableEq, Repr

def maxTargets : Nat :=
  25

def maxBlocks : Nat :=
  25

def Refusal.message : Refusal → String
  | .noTargets => "add at least one target with a name and one or more prompts"
  | .blocksNotJson => "post-processing blocks are not valid JSON"
  | .blocksNotArray => "post-processing blocks must be a JSON array"
  | .blockNotObject place =>
    "post-processing block #" ++ toString place ++ " must be a JSON object"
  | .tooManyBlocks count =>
    "too many post-processing blocks: " ++ toString count ++ " (max " ++ toString maxBlocks ++ ")"

def readBlocks (text : String) : Except Refusal (List Json) :=
  if Text.isBlank text then .ok []
  else
    match Json.parse? (Text.trim text) with
    | none => .error .blocksNotJson
    | some (.array items) =>
      if maxBlocks < items.length then .error (.tooManyBlocks items.length)
      else
        match items.findIdx? fun item => item.object?.isNone with
        | some place => .error (.blockNotObject (place + 1))
        | none => .ok items
    | some _ => .error .blocksNotArray

def entry (kind : EntryKind) (config : Json) : Json :=
  .object [("config", config), ("type", .string kind.tag)]

def Config.build (config : Config) : Except Refusal (Option Json) :=
  if !config.enabled then .ok none
  else
    let targets := config.targets.filterMap Target.sanitized?
    if targets.isEmpty then .error .noTargets
    else
      (readBlocks config.blocksJson).map fun blocks =>
        some (.object [("steps", .array [
          entry .segmentation (.object [("include_raw", .bool config.includeRaw),
            ("targets", .array ((targets.take maxTargets).map Target.toJson))]),
          entry .postprocess (.object [("blocks", .array blocks)])])])

end Cattery.Vision
