import Cattery.Asset.Failure
import Cattery.Cat.Slug
import Cattery.Run.Basic
import Cattery.Settings.Discovery
import Cattery.Vision.Config

namespace Cattery

structure Recipe where
  steps : String
  name : String
  description : String
  slug : Option String
deriving DecidableEq, Repr

structure Order where
  slug : String
  input : Run.Input
  progress : Bool
  debug : Bool
  draft : Bool
  saveAssets : Bool
deriving DecidableEq, Repr

def Order.options (order : Order) : Run.Options :=
  { draft := order.draft
    debug := order.debug || order.saveAssets
    progress := order.progress }

inductive Command where
  | compile (recipe : Recipe)
  | decode (file : String)
  | encode (file : String)
  | showVision (file : String)
  | storeVision (file : String)
  | run (order : Order)
deriving DecidableEq, Repr

namespace Command

inductive VisionFault where
  | shape
  | refused (refusal : Vision.Refusal)
deriving DecidableEq, Repr

inductive Failure where
  | unreadable (path : String)
  | notJson (path : String)
  | notSteps
  | notDocument (path : String)
  | vision (path : String) (fault : VisionFault)
  | slug (refusal : Slug.Refusal)
  | settingsMissing (path : String)
  | settings (fault : Settings.Fault)
  | credential (missing : Credential.Missing)
  | run (failure : Run.Failure)
  | store (failure : Asset.Failure)
deriving DecidableEq, Repr

def VisionFault.message : VisionFault → String
  | .shape => "expected \x7benabled, includeRaw, targets, blocksJson\x7d"
  | .refused refusal => refusal.message

def Failure.message : Failure → String
  | .unreadable path => "failed to read " ++ path
  | .notJson path => path ++ " is not valid JSON"
  | .notSteps => "expected a JSON array of steps"
  | .notDocument path => path ++ " is not an instruction document"
  | .vision path _ => "rejected " ++ path
  | .slug refusal => refusal.message
  | .settingsMissing path => "config file not found: " ++ path
  | .settings _ => "failed to load config"
  | .credential missing => missing.message
  | .run failure => failure.message
  | .store _ => "failed to open asset store"

def Failure.cause? : Failure → Option String
  | .vision _ fault => some fault.message
  | .settings fault => some fault.message
  | .store failure => some failure.message
  | _ => none

def Failure.report (failure : Failure) : List String :=
  ("Error: " ++ failure.message) ::
    match failure.cause? with
    | some cause => ["", "Caused by:", "    " ++ cause]
    | none => []

end Command

end Cattery
