import Cattery.Asset.Board
import Cattery.Asset.Failure

/-! A job takes the step records of a run one at a time and in order. An image is marked as being
saved, decoded, uploaded, given a URL, and marked as saved or failed. Between any two of these
anything else may happen, so a job is a machine that does one of them at a time; while it waits for
the store, `call?` is what it asked for. -/

namespace Cattery.Asset

structure Persister where
  userId : String
  signedUrlTtlSecs : UInt64
deriving DecidableEq, Repr

def Persister.withUserId (persister : Persister) (userId : String) : Persister :=
  { persister with userId := (Text.nonBlank? userId).getD persister.userId }

def objectPath (userId slug : String) (token : RunToken) (index : UInt32) (extension : String) :
    String :=
  userId ++ "/" ++ (Text.nonBlank? slug).getD "cat" ++ "/" ++ token.text ++ "/step-" ++
    toString index.toNat ++ "." ++ extension

structure Summary where
  saved : Nat
  failed : Nat
  skipped : Nat
  /-- Whether the run was superseded before it was finished. -/
  cancelled : Bool
deriving DecidableEq, Repr

inductive Call where
  | upload (path : String) (content : List UInt8) (contentType : String)
  | sign (path : String) (ttlSecs : UInt64)
deriving DecidableEq, Repr

def Call.path : Call → String
  | .upload path _ _ => path
  | .sign path _ => path

inductive Answer where
  | stored
  | signed (url : String)
  | failed (failure : Failure)
deriving DecidableEq, Repr

inductive Phase where
  | scanning
  | decoding (index : UInt32) (payload : String)
  | uploading (index : UInt32) (path : String) (content : List UInt8) (contentType : String)
  | signing (index : UInt32) (path : String)
  | publishing (index : UInt32) (asset : SavedAsset)
  | rejecting (index : UInt32) (message : String)
  | finished
deriving DecidableEq, Repr

structure Job where
  token : RunToken
  slug : String
  remaining : List DebugStep
  phase : Phase
  summary : Summary
deriving DecidableEq, Repr

namespace Job

def start (token : RunToken) (slug : String) (steps : List DebugStep) : Job :=
  { token, slug, remaining := steps, phase := .scanning, summary := ⟨0, 0, 0, false⟩ }

def abandon (job : Job) : Job :=
  { job with phase := .finished, summary := { job.summary with cancelled := true } }

def call? (persister : Persister) (job : Job) : Option Call :=
  match job.phase with
  | .uploading _ path content contentType => some (.upload path content contentType)
  | .signing _ path => some (.sign path persister.signedUrlTtlSecs)
  | _ => none

def canStep (job : Job) : Bool :=
  match job.phase with
  | .uploading .. => false
  | .signing .. => false
  | .finished => false
  | _ => true

/-- The board and the job after the next thing the job does by itself. The image of a record that
cannot be marked is not touched. -/
def step (persister : Persister) (board : Board) (job : Job) : Board × Job :=
  match job.phase with
  | .scanning =>
    match job.remaining with
    | [] => (board, { job with phase := .finished })
    | record :: rest =>
      match Image.find? record with
      | none =>
        (board, { job with
          remaining := rest, summary := { job.summary with skipped := job.summary.skipped + 1 } })
      | some payload =>
        match board.commit job.token (.saving record.index) with
        | (board, true) =>
          (board, { job with remaining := rest, phase := .decoding record.index payload })
        | (board, false) => (board, job.abandon)
  | .decoding index payload =>
    match Image.decode payload with
    | .error fault =>
      (board, { job with phase := .rejecting index (Failure.decode fault).message })
    | .ok (content, format) =>
      let path := objectPath persister.userId job.slug job.token index format.extension
      (board, { job with phase := .uploading index path content format.contentType })
  | .publishing index asset =>
    -- counted whether it is shown or not: the store has the image by now
    let counted := { job with summary := { job.summary with saved := job.summary.saved + 1 } }
    match board.commit job.token (.saved index asset) with
    | (board, true) => (board, { counted with phase := .scanning })
    | (board, false) => (board, counted.abandon)
  | .rejecting index message =>
    let counted := { job with summary := { job.summary with failed := job.summary.failed + 1 } }
    match board.commit job.token (.failed index message) with
    | (board, true) => (board, { counted with phase := .scanning })
    | (board, false) => (board, counted.abandon)
  | .uploading .. => (board, job)
  | .signing .. => (board, job)
  | .finished => (board, job)

/-- The job after an answer to what it waits for. An answer to something else changes nothing. -/
def receive (job : Job) (answer : Answer) : Job :=
  match job.phase, answer with
  | .uploading index path _ _, .stored => { job with phase := .signing index path }
  | .uploading index _ _ _, .failed failure =>
    { job with phase := .rejecting index failure.message }
  | .signing index path, .signed url => { job with phase := .publishing index ⟨url, path⟩ }
  | .signing index _, .failed failure => { job with phase := .rejecting index failure.message }
  | _, _ => job

def stepsLeft (job : Job) : Nat :=
  -- every record is marked, decoded and marked again
  3 * job.remaining.length + 3

def settleFrom (persister : Persister) : Nat → Board → Job → Board × Job
  | 0, board, job => (board, job)
  | fuel + 1, board, job =>
    if job.canStep then
      let (board, job) := job.step persister board
      settleFrom persister fuel board job
    else (board, job)

def settle (persister : Persister) (board : Board) (job : Job) : Board × Job :=
  settleFrom persister job.stepsLeft board job

end Job

end Cattery.Asset
