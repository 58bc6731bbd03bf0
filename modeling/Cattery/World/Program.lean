import Cattery.Http.Message
import Cattery.World.Disk

/-! A program is a tree: either its result, or one action on the world and, for every answer the world
may give, the program that follows. The world is met only where a program is interpreted. -/

namespace Cattery

/-- The actions on the world, each with the type of its answer. -/
inductive Action : Type → Type where
  | getVariable (name : String) : Action (Option String)
  | homeDirectory : Action (Option String)
  | currentDirectory : Action String
  | readFile (path : String) : Action (Option (List UInt8))
  | inspect (path : String) : Action Presence
  | makeDirectories (path : String) : Action Bool
  | writeFile (path : String) (content : List UInt8) : Action Bool
  /-- Sends a request. A client may follow redirects by itself: then the reply is the one after the
  last of them, and the requests that the redirects led to are part of this action. There is no reply
  when none came. -/
  | send (request : Http.Request) : Action (Option Http.Reply)
  /-- A number of 128 bits that was not given out before. -/
  | freshNumber : Action (BitVec 128)
  | print (line : String) : Action Unit
  | report (line : String) : Action Unit

inductive Program (α : Type) : Type 1 where
  | done (result : α)
  | act {β : Type} (action : Action β) (next : β → Program α)

namespace Program

variable {α β : Type}

def andThen (program : Program α) (next : α → Program β) : Program β :=
  match program with
  | .done result => next result
  | .act action rest => .act action fun answer => (rest answer).andThen next

instance : Monad Program where
  pure := .done
  bind := andThen

def perform (action : Action α) : Program α :=
  .act action .done

def interpret {m : Type → Type} [Monad m] (carryOut : {γ : Type} → Action γ → m γ) :
    Program α → m α
  | .done result => pure result
  | .act action next => do
    let answer ← carryOut action
    interpret carryOut (next answer)

def collect (step : α → Program β) : List α → Program (List β)
  | [] => .done []
  | item :: rest => do
    let result ← step item
    let results ← collect step rest
    return result :: results

def forEach (step : α → Program Unit) : List α → Program Unit
  | [] => .done ()
  | item :: rest => do
    step item
    forEach step rest

def readText (path : String) : Program (Option String) := do
  let content ← perform (.readFile path)
  return content.bind Utf8.decode?

def exchange (draft : Http.Draft) : Program (Option Http.Reply) :=
  match draft.request? with
  | none => return none
  | some request => perform (.send request)

end Program

end Cattery
