import Cattery.Settings.Config
import Cattery.Text.Blank
import Cattery.World.Program

namespace Cattery.Settings

def fileVariable : String :=
  "CATFLOW_CONFIG"

def homeFile (home : String) : String :=
  Path.join (Path.join home ".catflow") "config.json"

inductive Fault where
  | unreadable (path : String)
  | malformed (path : String)
deriving DecidableEq, Repr

def Fault.message : Fault → String
  | .unreadable path => "invalid config: failed to read " ++ path
  | .malformed path => "invalid config: failed to parse " ++ path

/-- The file the settings are in. Whether a named file is there is not looked at. -/
def discover (named home : Option String) : Program (Option String) :=
  match named with
  | some path => return some path
  | none => do
    let given ← Program.perform (.getVariable fileVariable)
    match given.filter fun path => !Text.isBlank path with
    | some path => return some path
    | none =>
      match home with
      | none => return none
      | some home =>
        let path := homeFile home
        match ← Program.perform (.inspect path) with
        | .present => return some path
        | _ => return none

def load (named : Option String) : Program (Except Fault Settings) := do
  let home ← Program.perform .homeDirectory
  match ← discover named home with
  | none => return .ok Settings.standard
  | some path =>
    match ← Program.readText path with
    | none => return .error (.unreadable path)
    | some text =>
      match Settings.parse? text with
      | none => return .error (.malformed path)
      | some settings => return .ok settings

end Cattery.Settings
