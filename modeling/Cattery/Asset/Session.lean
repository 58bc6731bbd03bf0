import Cattery.Asset.Job

namespace Cattery.Asset

structure Session where
  board : Board
  jobs : List Job
deriving DecidableEq, Repr

inductive Move where
  | begin (token : RunToken)
  | cancel
  | start (token : RunToken) (slug : String) (steps : List DebugStep)
  | step (place : Nat)
  | receive (place : Nat) (answer : Answer)
deriving DecidableEq, Repr

namespace Session

def empty : Session :=
  ⟨Board.empty, []⟩

def move (persister : Persister) (session : Session) : Move → Session
  | .begin token => { session with board := Board.start token }
  | .cancel => { session with board := Board.empty }
  | .start token slug steps => { session with jobs := session.jobs ++ [Job.start token slug steps] }
  | .step place =>
    match session.jobs[place]? with
    | none => session
    | some job =>
      let (board, job) := job.step persister session.board
      ⟨board, session.jobs.set place job⟩
  | .receive place answer =>
    match session.jobs[place]? with
    | none => session
    | some job => { session with jobs := session.jobs.set place (job.receive answer) }

def moves (persister : Persister) (session : Session) (all : List Move) : Session :=
  all.foldl (move persister) session

def settle (persister : Persister) (session : Session) (place : Nat) : Session :=
  match session.jobs[place]? with
  | none => session
  | some job =>
    let (board, job) := Job.settle persister session.board job
    ⟨board, session.jobs.set place job⟩

def call? (persister : Persister) (session : Session) (place : Nat) : Option Call :=
  session.jobs[place]?.bind (Job.call? persister)

end Session

end Cattery.Asset
