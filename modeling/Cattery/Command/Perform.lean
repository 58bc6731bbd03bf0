import Cattery.Asset.Save
import Cattery.Cat.Basic
import Cattery.Command.Basic
import Cattery.Document.Codec
import Cattery.Document.Compile
import Cattery.Run.Execute
import Cattery.Step.Normalize
import Cattery.Text.Uuid

namespace Cattery.Command

abbrev Attempt (α : Type) : Type 1 :=
  ExceptT Failure Program α

def always {α : Type} (program : Program α) : Attempt α :=
  ExceptT.lift program

def settled {α ε : Type} (toFailure : ε → Failure) : Except ε α → Attempt α
  | .ok result => return result
  | .error fault => throw (toFailure fault)

def print (line : String) : Attempt Unit :=
  always (Program.perform (.print line))

def report (line : String) : Attempt Unit :=
  always (Program.perform (.report line))

def printJson (value : Json) : Attempt Unit :=
  print value.indented

def readText (path : String) : Attempt String := do
  match ← always (Program.readText path) with
  | some text => return text
  | none => throw (.unreadable path)

def readJson (path : String) : Attempt Json := do
  match Json.parse? (← readText path) with
  | some value => return value
  | none => throw (.notJson path)

def loadSettings (named : Option String) : Attempt Settings := do
  if let some path := named then
    let presence ← always (Program.perform (.inspect path))
    if presence != .present then throw (.settingsMissing path)
  settled .settings (← always (Settings.load named))

def credential (var : String) : Program (Except Credential.Missing Credential) := do
  return Credential.require var (← Program.perform (.getVariable var))

def looseSteps? (value : Json) : Option (List Json) :=
  value.array?.or ((value.get? "steps").bind Json.array?)

def newId : Program String := do
  return Uuid.text (Uuid.ofRandom (← Program.perform .freshNumber))

def makeSteps (defaults : Step.Defaults) (entries : List Json) : Program (List Step) := do
  let ids ← Program.collect (fun _ => newId) entries
  match Step.normalize defaults (fun place => ids.getD place "") entries with
  | [] =>
    let id ← newId
    return Step.standard defaults fun _ => id
  | steps => return steps

def compiledJson (slug : String) (compiled : Compiled) (steps : List Step) : Json :=
  .object [
    ("slug", .string slug),
    ("model", .string (Slug.modelName slug)),
    ("modelIds", .array (compiled.modelIds.map .string)),
    ("instructions", .string compiled.instructions),
    ("steps", .array (steps.map Step.toJson))]

def compileRecipe (settings : Settings) (recipe : Recipe) : Attempt Unit := do
  let value ← readJson recipe.steps
  match looseSteps? value with
  | none => throw .notSteps
  | some entries =>
    let steps ← always (makeSteps settings.defaults entries)
    let cat : Cat :=
      { name := recipe.name, description := recipe.description, slug := recipe.slug, steps }
    let slug ← settled .slug cat.resolvedSlug
    printJson (compiledJson slug (Cattery.compile cat.name cat.description cat.steps) cat.steps)

def decodeFile (file : String) : Attempt Unit := do
  printJson (Document.decode (← readText file)).toJson

def encodeFile (file : String) : Attempt Unit := do
  match Document.ofJson? (← readJson file) with
  | some document => print document.encode
  | none => throw (.notDocument file)

def showVisionFile (file : String) : Attempt Unit := do
  printJson (Vision.Config.ofStored (← readJson file)).toJson

def storeVisionFile (file : String) : Attempt Unit := do
  match Vision.Config.ofJson? (← readJson file) with
  | none => throw (.vision file .shape)
  | some config =>
    let stored ← settled (fun refusal => .vision file (.refused refusal)) config.build
    printJson (stored.getD .null)

def progressLine (update : Progress) : String :=
  "[" ++ toString update.step.toNat ++ "/" ++ toString update.totalSteps.toNat ++ "] " ++
    update.stepName ++ ": " ++ update.message

def stepLine (step : DebugStep) : String :=
  "step " ++ toString step.index.toNat ++ " " ++ step.clientModel ++ " -> " ++
    step.providerModel ++ " (" ++ toString step.durationMs.toNat ++ " ms)"

def statusLine? (index : UInt32) : Asset.Status → Option String
  | .saved asset => some ("step " ++ toString index.toNat ++ ": saved " ++ asset.url)
  | .failed message => some ("step " ++ toString index.toNat ++ ": failed: " ++ message)
  | .saving => none
  | .idle => none

def summaryLine (summary : Asset.Summary) : String :=
  "assets: " ++ toString summary.saved ++ " saved, " ++ toString summary.failed ++ " failed, " ++
    toString summary.skipped ++ " without images"

def saveAssets (storage : Storage) (slug : String) (steps : List DebugStep) : Attempt Unit := do
  let home ← always (Program.perform .homeDirectory)
  let key ← always (credential storage.apiKeyEnv)
  let store ← settled .store (Asset.storeOf storage home key)
  let (board, summary) ←
    always (Asset.save (Asset.Persister.ofStorage storage) store (Text.trim slug) steps)
  always (Program.forEach (fun line => Program.perform (.report line))
    (steps.filterMap fun step => statusLine? step.index (board.status step.index)))
  report (summaryLine summary)

def runOrder (settings : Settings) (order : Order) : Attempt Unit := do
  let token ← settled .credential (← always (credential settings.endpoint.accessTokenEnv))
  let ran ← always
    (Run.execute settings.endpoint token order.slug order.input order.options)
  always (Program.forEach (fun update => Program.perform (.report (progressLine update)))
    ran.progress)
  let output ← settled .run ran.outcome
  print output.text
  let steps := output.debugSteps.getD []
  if order.debug then
    always (Program.forEach (fun step => Program.perform (.report (stepLine step))) steps)
  if order.saveAssets then
    saveAssets settings.storage order.slug steps

/-- Does what a command asks for. Settings are loaded before anything else, and only where they are
needed. -/
def perform (named : Option String) : Command → Attempt Unit
  | .compile recipe => do compileRecipe (← loadSettings named) recipe
  | .decode file => decodeFile file
  | .encode file => encodeFile file
  | .showVision file => showVisionFile file
  | .storeVision file => storeVisionFile file
  | .run order => do runOrder (← loadSettings named) order

def performReported (named : Option String) (command : Command) : Program Bool := do
  match ← (command.perform named).run with
  | .ok () => return true
  | .error failure =>
    Program.forEach (fun line => Program.perform (.report line)) failure.report
    return false

end Cattery.Command
