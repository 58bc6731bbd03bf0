import Cattery.World.Path
import Cattery.Assoc

namespace Cattery

inductive Node where
  | file (content : List UInt8)
  | directory
deriving DecidableEq, Repr

structure Disk where
  /-- Every file and directory but the root. -/
  entries : List (List String × Node)
  current : List String
deriving DecidableEq, Repr

inductive Presence where
  | present
  | missing
  | unreachable
deriving DecidableEq, Repr

namespace Disk

def node? (disk : Disk) (place : List String) : Option Node :=
  if place.isEmpty then some .directory else Assoc.find? place disk.entries

def put (disk : Disk) (place : List String) (node : Node) : Disk :=
  { disk with entries := (place, node) :: Assoc.erase place disk.entries }

def nameFits (name : String) : Bool :=
  name.utf8ByteSize ≤ 255

inductive Fault where
  | missing
  | unreachable
deriving DecidableEq, Repr

def follow (disk : Disk) (place : List String) : List String → Except Fault (List String)
  | [] => .ok place
  | name :: rest =>
    match disk.node? place with
    | some .directory =>
      if name.isEmpty || name == "." then follow disk place rest
      else if name == ".." then follow disk place.dropLast rest
      else if !nameFits name then .error .unreachable
      else
        let next := place ++ [name]
        if (disk.node? next).isNone then .error .missing else follow disk next rest
    | some (.file _) => .error .unreachable
    | none => .error .missing

def isUsable (path : String) : Bool :=
  !path.toList.any (· == '\x00') && path.utf8ByteSize < 4096

def resolveNames (disk : Disk) (absolute : Bool) (names : List String) :
    Except Fault (List String) :=
  follow disk (if absolute then [] else disk.current) names

def resolve (disk : Disk) (path : String) : Except Fault (List String) :=
  if path.isEmpty then .error .missing
  else if !isUsable path then .error .unreachable
  else resolveNames disk (Path.isAbsolute path) (Path.pieces path)

def inspect (disk : Disk) (path : String) : Presence :=
  match disk.resolve path with
  | .error .missing => .missing
  | .error .unreachable => .unreachable
  | .ok place => if (disk.node? place).isSome then .present else .missing

def read? (disk : Disk) (path : String) : Option (List UInt8) :=
  match disk.resolve path with
  | .error _ => none
  | .ok place =>
    match disk.node? place with
    | some (.file content) => some content
    | _ => none

def makeDirectory (disk : Disk) (absolute : Bool) (names : List String) : Disk × Bool :=
  match resolveNames disk absolute names with
  | .ok place => (disk, disk.node? place == some .directory)
  | .error .unreachable => (disk, false)
  | .error .missing =>
    match resolveNames disk absolute names.dropLast, names.getLast? with
    | .ok above, some name =>
      if nameFits name then (disk.put (above ++ [name]) .directory, true) else (disk, false)
    | _, _ => (disk, false)

def makeDirectoriesFrom (disk : Disk) (absolute : Bool) (above : List String) :
    List String → Disk × Bool
  | [] => (disk, true)
  | name :: rest =>
    let names := above ++ [name]
    match disk.makeDirectory absolute names with
    | (disk, true) => makeDirectoriesFrom disk absolute names rest
    | (disk, false) => (disk, false)

/-- The disk with a directory made at a path, and all directories above it. Those that were made
before one could not be made stay. -/
def makeDirectories (disk : Disk) (path : String) : Disk × Bool :=
  if !isUsable path then (disk, false)
  else disk.makeDirectoriesFrom (Path.isAbsolute path) [] (Path.components path)

/-- The disk with a file written at a path, and whether it was. The directory has to be there, and
the path may not name a directory. -/
def write (disk : Disk) (path : String) (content : List UInt8) : Disk × Bool :=
  let names := Path.pieces path
  match names.getLast? with
  | none => (disk, false)
  | some name =>
    if !isUsable path || name.isEmpty || name == "." || name == ".." || !nameFits name then
      (disk, false)
    else
      match resolveNames disk (Path.isAbsolute path) names.dropLast with
      | .error _ => (disk, false)
      | .ok above =>
        let place := above ++ [name]
        if disk.node? above != some .directory || disk.node? place == some .directory then
          (disk, false)
        else (disk.put place (.file content), true)

def below (disk : Disk) (place : List String) : List (String × Node) :=
  (disk.entries.filterMap fun (path, node) =>
    match place.isPrefixOf? path with
    | some (name :: rest) => some ("/".intercalate (name :: rest), node)
    | _ => none).mergeSort fun a b => a.1 ≤ b.1

end Disk

end Cattery
