import Cattery.Asset.Store
import Cattery.Text.Uuid

namespace Cattery.Asset

def Job.driveFrom (persister : Persister) (store : Store) :
    Nat → Board → Job → Program (Board × Job)
  | 0, board, job => return job.settle persister board
  | fuel + 1, board, job => do
    let (board, job) := job.settle persister board
    match job.call? persister with
    | none => return (board, job)
    | some call =>
      let answer ← store.answer call
      driveFrom persister store fuel board (job.receive answer)

def Job.callsLeft (job : Job) : Nat :=
  2 * job.remaining.length + 2

def Job.drive (persister : Persister) (store : Store) (board : Board) (job : Job) :
    Program (Board × Job) :=
  driveFrom persister store job.callsLeft board job

def save (persister : Persister) (store : Store) (slug : String) (steps : List DebugStep) :
    Program (Board × Summary) := do
  let token : RunToken := ⟨Uuid.ofRandom (← Program.perform .freshNumber)⟩
  let (board, job) ← (Job.start token slug steps).drive persister store (Board.start token)
  return (board, job.summary)

end Cattery.Asset
