import Cattery.Text.Blank
import Cattery.Text.Search
import Cattery.Text.Utf8

namespace Cattery

structure LineBuffer where
  pending : List UInt8
deriving DecidableEq, Repr

namespace LineBuffer

def newline : UInt8 :=
  10

def empty : LineBuffer :=
  ⟨[]⟩

def push (buffer : LineBuffer) (bytes : List UInt8) : LineBuffer × List String :=
  let pieces := splitOn newline (buffer.pending ++ bytes)
  (⟨pieces.getLastD []⟩, pieces.dropLast.map Utf8.decodeLossy)

def tail? (buffer : LineBuffer) : Option String :=
  let text := Utf8.decodeLossy buffer.pending
  if Text.isBlank text then none else some text

end LineBuffer

end Cattery
