import Cattery.Command.Basic
import Cattery.Text.Search

namespace Cattery.Command

inductive OptionKind where
  | switch
  | text
  | path
  | version
  | help
deriving DecidableEq, Repr

def OptionKind.takesValue : OptionKind → Bool
  | .text => true
  | .path => true
  | .switch => false
  | .version => false
  | .help => false

structure Flag where
  long : String
  short : Option Char
  kind : OptionKind
deriving DecidableEq, Repr

inductive Level where
  | top
  | compile
  | decode
  | encode
  | structured
  | structuredParse
  | structuredBuild
  | run
deriving DecidableEq, Repr

namespace Level

def commands : Level → List (String × Level)
  | .top => [("compile", .compile), ("decode", .decode), ("encode", .encode),
      ("structured", .structured), ("run", .run)]
  | .structured => [("parse", .structuredParse), ("build", .structuredBuild)]
  | _ => []

def helpWord : String :=
  "help"

def isTopic (level : Level) : List String → Bool
  | [] => true
  | word :: rest =>
    match level.commands.lookup word with
    | some below => isTopic below rest
    | none => word == helpWord && !level.commands.isEmpty && rest.isEmpty

def files : Level → Nat
  | .decode => 1
  | .encode => 1
  | .structuredParse => 1
  | .structuredBuild => 1
  | _ => 0

def everywhere : List Flag :=
  [⟨"verbose", some 'v', .switch⟩, ⟨"config", some 'c', .path⟩, ⟨"help", some 'h', .help⟩]

def own : Level → List Flag
  | .top => [⟨"version", some 'V', .version⟩]
  | .compile => [⟨"steps", none, .path⟩, ⟨"name", none, .text⟩, ⟨"description", none, .text⟩,
      ⟨"slug", none, .text⟩]
  | .run => [⟨"slug", none, .text⟩, ⟨"message", some 'm', .text⟩, ⟨"image-url", none, .text⟩,
      ⟨"progress", none, .switch⟩, ⟨"debug", none, .switch⟩, ⟨"draft", none, .switch⟩,
      ⟨"save-assets", none, .switch⟩]
  | _ => []

def flags (level : Level) : List Flag :=
  level.own ++ everywhere

end Level

inductive Stop where
  | version
  | help
  | misuse
deriving DecidableEq, Repr

structure Reading where
  level : Level
  /-- The options that were given, each with its level, name and value, the last one first. The
  value of a switch is empty. -/
  given : List (Level × String × String)
  files : List String
  pending : Option Flag
  filesOnly : Bool
deriving DecidableEq, Repr

namespace Reading

def start : Reading :=
  { level := .top, given := [], files := [], pending := none, filesOnly := false }

/-- Reads an option with its value. No option is given twice at a level. -/
def give (reading : Reading) (flag : Flag) (value : String) : Except Stop Reading :=
  let again := reading.given.any fun (level, name, _) =>
    level == reading.level && name == flag.long
  let entry := (reading.level, flag.long, value)
  match flag.kind with
  | .version => .error .version
  | .help => .error .help
  | .path =>
    if again || value.isEmpty then .error .misuse
    else .ok { reading with given := entry :: reading.given }
  | _ => if again then .error .misuse else .ok { reading with given := entry :: reading.given }

def readLong (reading : Reading) (name : String) (value : Option String) : Except Stop Reading :=
  match reading.level.flags.find? fun flag => flag.long == name with
  | none => .error .misuse
  | some flag =>
    match flag.kind.takesValue, value with
    | true, some value => reading.give flag value
    | true, none => .ok { reading with pending := some flag }
    | false, some _ => .error .misuse
    | false, none => reading.give flag ""

def readShort (reading : Reading) : List Char → Except Stop Reading
  | [] => .ok reading
  | name :: rest =>
    match reading.level.flags.find? fun flag => flag.short == some name with
    | none => .error .misuse
    | some flag =>
      if flag.kind.takesValue then
        match rest with
        | [] => .ok { reading with pending := some flag }
        | '=' :: value => reading.give flag (String.ofList value)
        | value => reading.give flag (String.ofList value)
      else
        match reading.give flag "" with
        | .error stop => .error stop
        | .ok reading => readShort reading rest

def readFile (reading : Reading) (file : String) : Except Stop Reading :=
  if file.isEmpty || reading.level.files ≤ reading.files.length then .error .misuse
  else .ok { reading with files := reading.files ++ [file] }

/-- Reads the value of an option. A word that looks like an option is none. -/
def readValue (reading : Reading) (flag : Flag) (word : String) : Except Stop Reading :=
  match word.toList with
  | '-' :: _ :: _ => .error .misuse
  | _ => { reading with pending := none }.give flag word

def readPlain (reading : Reading) (word : String) : Except Stop Reading :=
  match word.toList with
  | ['-', '-'] => .ok { reading with filesOnly := true }
  | '-' :: '-' :: rest =>
    match cut? ['='] rest with
    | some (name, value) => reading.readLong (String.ofList name) (some (String.ofList value))
    | none => reading.readLong (String.ofList rest) none
  | '-' :: name :: rest => reading.readShort (name :: rest)
  | _ =>
    match reading.level.commands.lookup word with
    | some level => .ok { reading with level }
    | none => reading.readFile word

def readWord (reading : Reading) (word : String) : Except Stop Reading :=
  if reading.filesOnly then reading.readFile word
  else
    match reading.pending with
    | some flag => reading.readValue flag word
    | none => reading.readPlain word

def asksForHelp (reading : Reading) (word : String) : Bool :=
  word == Level.helpWord && !reading.filesOnly && reading.pending.isNone &&
    !reading.level.commands.isEmpty

def readWords (reading : Reading) : List String → Except Stop Reading
  | [] => .ok reading
  | word :: rest =>
    if reading.asksForHelp word then
      .error (if reading.level.isTopic rest then .help else .misuse)
    else
      match reading.readWord word with
      | .error stop => .error stop
      | .ok reading => readWords reading rest

/-- The value of an option; of several levels, the last one counts. -/
def value? (reading : Reading) (name : String) : Option String :=
  (reading.given.find? fun (_, given, _) => given == name).map fun (_, _, value) => value

def has (reading : Reading) (name : String) : Bool :=
  (reading.value? name).isSome

def order? (reading : Reading) : Option Order := do
  some {
    slug := ← reading.value? "slug"
    input := {
      message := (reading.value? "message").getD ""
      imageUrl := reading.value? "image-url" }
    progress := reading.has "progress"
    debug := reading.has "debug"
    draft := reading.has "draft"
    saveAssets := reading.has "save-assets" }

def recipe? (reading : Reading) : Option Recipe := do
  some {
    steps := ← reading.value? "steps"
    name := ← reading.value? "name"
    description := (reading.value? "description").getD ""
    slug := reading.value? "slug" }

def command? (reading : Reading) : Option Command :=
  if reading.pending.isSome then none
  else
    match reading.level with
    | .top => none
    | .structured => none
    | .compile => reading.recipe?.map .compile
    | .run => reading.order?.map .run
    | .decode => reading.files.head?.map .decode
    | .encode => reading.files.head?.map .encode
    | .structuredParse => reading.files.head?.map .showVision
    | .structuredBuild => reading.files.head?.map .storeVision

end Reading

structure Invocation where
  settingsFile : Option String
  command : Command
deriving DecidableEq, Repr

def Invocation.ofWords (words : List String) : Except Stop Invocation :=
  match Reading.start.readWords words with
  | .error stop => .error stop
  | .ok reading =>
    match reading.command? with
    | some command => .ok { settingsFile := reading.value? "config", command }
    | none => .error .misuse

end Cattery.Command
