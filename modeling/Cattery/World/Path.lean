import Cattery.Text.Search

/-! Paths are texts; slashes part their components. Empty components and `.` mean nothing, except that
a path that begins with a slash is absolute and one that ends with a slash names a directory. -/

namespace Cattery.Path

def isAbsolute (path : String) : Bool :=
  path.toList.head? == some '/'

def endsWithSlash (path : String) : Bool :=
  path.toList.getLast? == some '/'

def join (base rest : String) : String :=
  if isAbsolute rest then rest
  else if base.isEmpty || endsWithSlash base then base ++ rest
  else base ++ "/" ++ rest

def pieces (path : String) : List String :=
  (splitOn '/' path.toList).map String.ofList

def components (path : String) : List String :=
  (pieces path).filter fun piece => !(piece.isEmpty || piece == ".")

def ofComponents (absolute : Bool) (names : List String) : String :=
  (if absolute then "/" else "") ++ "/".intercalate names

def parent (path : String) : String :=
  ofComponents (isAbsolute path) (components path).dropLast

/-- The absolute form of a path, seen from a directory: without components that mean nothing.
Exactly two slashes at the start stay. -/
def absolute (current path : String) : String :=
  let names := components path
  let body :=
    if isAbsolute path then
      let start :=
        match path.toList with
        | '/' :: '/' :: '/' :: _ => "/"
        | '/' :: '/' :: _ => "//"
        | _ => "/"
      start ++ "/".intercalate names
    else if names.isEmpty then current
    else join current ("/".intercalate names)
  if endsWithSlash path && !endsWithSlash body then body ++ "/" else body

/-- Whether a path stays below every directory it is joined to: relative, no `.` at its start, and
no `..` anywhere. -/
def staysBelow (path : String) : Bool :=
  !isAbsolute path && (pieces path).head? != some "." && !(pieces path).contains ".."

end Cattery.Path
