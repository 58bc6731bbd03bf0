import Cattery.Assoc
import Cattery.Text.Hex

/-! The board shows how far the images of one run have come. Every write carries the token of its run,
and a write whose run is not the current one is dropped; so a run that was superseded can go on
without ever being seen. -/

namespace Cattery.Asset

structure RunToken where
  bits : BitVec 128
deriving DecidableEq, Repr

def RunToken.text (token : RunToken) : String :=
  String.ofList (Hex.digits 32 token.bits.toNat)

structure SavedAsset where
  url : String
  path : String
deriving DecidableEq, Repr

inductive Status where
  | idle
  | saving
  | saved (asset : SavedAsset)
  | failed (message : String)
deriving DecidableEq, Repr

structure Board where
  run : Option RunToken
  saving : List (UInt32 × Unit)
  saved : List (UInt32 × SavedAsset)
  errors : List (UInt32 × String)
deriving DecidableEq, Repr

inductive Write where
  | saving (index : UInt32)
  | saved (index : UInt32) (asset : SavedAsset)
  | failed (index : UInt32) (message : String)
deriving DecidableEq, Repr

namespace Board

def empty : Board :=
  ⟨none, [], [], []⟩

def start (token : RunToken) : Board :=
  { empty with run := some token }

def isEmpty (board : Board) : Bool :=
  board.saving.isEmpty && board.saved.isEmpty && board.errors.isEmpty

/-- What is shown for an index: being saved comes before saved, and saved before failed. -/
def status (board : Board) (index : UInt32) : Status :=
  if (Assoc.find? index board.saving).isSome then .saving
  else
    match Assoc.find? index board.saved, Assoc.find? index board.errors with
    | some asset, _ => .saved asset
    | none, some message => .failed message
    | none, none => .idle

/-- The board with a write applied. Being saved again clears an earlier error but not an asset that
was saved earlier, and an error does not clear it either. -/
def apply (board : Board) : Write → Board
  | .saving index =>
    { board with
      errors := Assoc.erase index board.errors
      saving := Assoc.insert index () board.saving }
  | .saved index asset =>
    { board with
      saving := Assoc.erase index board.saving
      errors := Assoc.erase index board.errors
      saved := Assoc.insert index asset board.saved }
  | .failed index message =>
    { board with
      saving := Assoc.erase index board.saving
      errors := Assoc.insert index message board.errors }

def isCurrent (board : Board) (token : RunToken) : Bool :=
  board.run == some token

def commit (board : Board) (token : RunToken) (write : Write) : Board × Bool :=
  if board.isCurrent token then (board.apply write, true) else (board, false)

def savingIndices (board : Board) : List UInt32 :=
  board.saving.map Prod.fst

end Board

end Cattery.Asset
