import Cattery.Run.Basic
import Cattery.World.Program

namespace Cattery.Run

structure Report where
  outcome : Except Failure Output
  progress : List Progress

def execute (endpoint : Endpoint) (token : Credential) (slug : String) (input : Input)
    (options : Options) : Program Report :=
  match prepare endpoint token slug input options with
  | .error failure => return ⟨.error failure, []⟩
  | .ok draft => do
    match ← Program.exchange draft with
    | none => return ⟨.error .transport, []⟩
    | some reply =>
      let (outcome, progress) := conclude options reply
      return ⟨outcome, progress⟩

end Cattery.Run
