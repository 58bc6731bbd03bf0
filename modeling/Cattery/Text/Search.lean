namespace Cattery

def cut? {α : Type} [BEq α] (mark : List α) : List α → Option (List α × List α)
  | [] => if mark.isEmpty then some ([], []) else none
  | a :: rest =>
    match mark.isPrefixOf? (a :: rest) with
    | some after => some ([], after)
    | none => (cut? mark rest).map fun (before, after) => (a :: before, after)

def occurs {α : Type} [BEq α] (mark list : List α) : Bool :=
  (cut? mark list).isSome

def splitOn {α : Type} [BEq α] (separator : α) : List α → List (List α)
  | [] => [[]]
  | a :: rest =>
    if a == separator then [] :: splitOn separator rest
    else
      match splitOn separator rest with
      | [] => [[a]]
      | piece :: pieces => (a :: piece) :: pieces

end Cattery
