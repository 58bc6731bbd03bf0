namespace Cattery.Assoc

variable {κ α : Type}

def insert [LT κ] [DecidableLT κ] [DecidableEq κ] (key : κ) (value : α) :
    List (κ × α) → List (κ × α)
  | [] => [(key, value)]
  | (k, v) :: rest =>
    if key < k then (key, value) :: (k, v) :: rest
    else if key = k then (key, value) :: rest
    else (k, v) :: insert key value rest

def erase [DecidableEq κ] (key : κ) (map : List (κ × α)) : List (κ × α) :=
  map.filter fun (k, _) => k ≠ key

def find? [DecidableEq κ] (key : κ) : List (κ × α) → Option α
  | [] => none
  | (k, v) :: rest => if k = key then some v else find? key rest

/-- The map with some entries, where the last entry of a key counts. -/
def ofEntries [LT κ] [DecidableLT κ] [DecidableEq κ] (entries : List (κ × α)) : List (κ × α) :=
  entries.foldl (fun map (k, v) => insert k v map) []

end Cattery.Assoc
