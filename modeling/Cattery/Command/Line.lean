import Cattery.Command.Perform
import Cattery.Command.Usage

namespace Cattery.Command

inductive Exit where
  | done
  | failed
  | misused
deriving DecidableEq, Repr

def Exit.code : Exit → UInt8
  | .done => 0
  | .failed => 1
  | .misused => 2

def versionLine : String :=
  "catflow 0.1.0"

def usageLines : List String :=
  ["Usage: catflow [-v] [-c FILE] COMMAND",
    "",
    "Commands:",
    "  compile --steps FILE --name TEXT [--description TEXT] [--slug TEXT]",
    "  decode FILE",
    "  encode FILE",
    "  structured parse FILE",
    "  structured build FILE",
    "  run --slug TEXT [-m TEXT] [--image-url TEXT] [--progress] [--debug] [--draft]",
    "      [--save-assets]"]

def runLine (words : List String) : Program Exit := do
  match Invocation.ofWords words with
  | .error .version =>
    Program.perform (.print versionLine)
    return .done
  | .error .help =>
    Program.forEach (fun line => Program.perform (.print line)) usageLines
    return .done
  | .error .misuse =>
    Program.forEach (fun line => Program.perform (.report line)) usageLines
    return .misused
  | .ok invocation =>
    if ← invocation.command.performReported invocation.settingsFile then return .done
    else return .failed

end Cattery.Command
