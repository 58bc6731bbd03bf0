import Cattery.Text.Blank
import Cattery.Text.Search

/-! Tagged text is cut into the blocks of its steps and what stands between them, from left to right
and without going back. The opening tag of a block is `[step` with a `]` or white space after it;
it ends at the next `]`, and the body ends at the next `[/step]`. A block without an end is not a
block, and the rest of the text is left as it is. -/

namespace Cattery

namespace Tag

def routerOpen : List Char := "[router]".toList

def routerClose : List Char := "[/router]".toList

def stepOpen : List Char := "[step".toList

def stepClose : List Char := "[/step]".toList

end Tag

structure Block where
  attributes : List Char
  body : List Char
deriving DecidableEq, Repr

inductive Segment where
  | text (chars : List Char)
  | block (block : Block)
deriving DecidableEq, Repr

namespace Segment

def endsName : List Char → Bool
  | [] => false
  | c :: _ => c == ']' || isBlank c

def openTag? : List Char → Option (List Char × List Char)
  | [] => none
  | c :: rest =>
    match Tag.stepOpen.isPrefixOf? (c :: rest) with
    | some after =>
      if endsName after then some ([], after)
      else (openTag? rest).map fun (before, after) => (c :: before, after)
    | none => (openTag? rest).map fun (before, after) => (c :: before, after)

def firstBlock? (chars : List Char) : Option (List Char × Block × List Char) := do
  let (before, rest) ← openTag? chars
  let (attributes, rest) ← cut? [']'] rest
  let (body, after) ← cut? Tag.stepClose rest
  some (before, ⟨attributes, body⟩, after)

def scanFrom : Nat → List Char → List Segment
  | 0, rest => [.text rest]
  | fuel + 1, rest =>
    match firstBlock? rest with
    | none => [.text rest]
    | some (before, found, after) => .text before :: .block found :: scanFrom fuel after

/-- The segments of a text. There are fewer blocks than characters. -/
def scan (chars : List Char) : List Segment :=
  scanFrom chars.length chars

def block? : Segment → Option Block
  | .text _ => none
  | .block found => some found

def outside : Segment → List Char
  | .text chars => chars
  | .block _ => []

def source : Segment → List Char
  | .text chars => chars
  | .block found => Tag.stepOpen ++ found.attributes ++ ']' :: found.body ++ Tag.stepClose

end Segment

end Cattery
