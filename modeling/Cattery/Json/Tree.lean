import Cattery.Decimal.Numeral
import Cattery.Text.Hex

/-! A `Tree` is JSON text as it is written: numbers by their digits, strings with their escapes by
number, members in order and as often as they stand there. Any text that follows the grammar has a
tree; whether it has a value is another question. -/

namespace Cattery

inductive Mark where
  | char (c : Char)
  | unit (n : Nat)
deriving DecidableEq, Repr

inductive Tree where
  | null
  | bool (value : Bool)
  | numeral (value : Numeral)
  | string (marks : List Mark)
  | array (items : List Tree)
  | object (members : List (List Mark × Tree))
deriving Repr, Inhabited

namespace Tree

def isSpace (c : Char) : Bool :=
  c == ' ' || c == '\n' || c == '\r' || c == '\t'

def skipSpace (text : List Char) : List Char :=
  text.dropWhile isSpace

def escape? (c : Char) : Option Char :=
  match c with
  | '"' => some '"'
  | '\\' => some '\\'
  | '/' => some '/'
  | 'b' => some '\x08'
  | 'f' => some '\x0c'
  | 'n' => some '\n'
  | 'r' => some '\r'
  | 't' => some '\t'
  | _ => none

def readMarks : List Char → Option (List Mark × List Char)
  | [] => none
  | '"' :: after => some ([], after)
  | '\\' :: 'u' :: a :: b :: c :: d :: rest =>
    match Hex.wordValue? a b c d, readMarks rest with
    | some n, some (marks, after) => some (.unit n :: marks, after)
    | _, _ => none
  | '\\' :: c :: rest =>
    match escape? c, readMarks rest with
    | some c, some (marks, after) => some (.char c :: marks, after)
    | _, _ => none
  | c :: rest =>
    if c.toNat < 0x20 then none
    else (readMarks rest).map fun (marks, after) => (.char c :: marks, after)

mutual

/-- The tree at the start of a text, and what follows it. Two steps of fuel for every character
are enough. -/
def readValue : Nat → List Char → Option (Tree × List Char)
  | 0, _ => none
  | fuel + 1, text =>
    match skipSpace text with
    | '"' :: rest => (readMarks rest).map fun (marks, after) => (.string marks, after)
    | '[' :: rest =>
      match skipSpace rest with
      | ']' :: after => some (.array [], after)
      | _ => (readItems fuel rest).map fun (items, after) => (.array items, after)
    | '\x7b' :: rest =>
      match skipSpace rest with
      | '\x7d' :: after => some (.object [], after)
      | _ => (readMembers fuel rest).map fun (members, after) => (.object members, after)
    | 'n' :: 'u' :: 'l' :: 'l' :: after => some (.null, after)
    | 't' :: 'r' :: 'u' :: 'e' :: after => some (.bool true, after)
    | 'f' :: 'a' :: 'l' :: 's' :: 'e' :: after => some (.bool false, after)
    | rest => (readNumeral? rest).map fun (value, after) => (.numeral value, after)

def readItems : Nat → List Char → Option (List Tree × List Char)
  | 0, _ => none
  | fuel + 1, text =>
    match readValue fuel text with
    | none => none
    | some (item, rest) =>
      match skipSpace rest with
      | ']' :: after => some ([item], after)
      | ',' :: rest => (readItems fuel rest).map fun (items, after) => (item :: items, after)
      | _ => none

def readMembers : Nat → List Char → Option (List (List Mark × Tree) × List Char)
  | 0, _ => none
  | fuel + 1, text =>
    match skipSpace text with
    | '"' :: rest =>
      match readMarks rest with
      | none => none
      | some (key, rest) =>
        match skipSpace rest with
        | ':' :: rest =>
          match readValue fuel rest with
          | none => none
          | some (value, rest) =>
            match skipSpace rest with
            | '\x7d' :: after => some ([(key, value)], after)
            | ',' :: rest =>
              (readMembers fuel rest).map fun (members, after) => ((key, value) :: members, after)
            | _ => none
        | _ => none
    | _ => none

end

def ofChars? (text : List Char) : Option Tree :=
  match readValue (2 * text.length + 2) text with
  | some (tree, after) => if (skipSpace after).isEmpty then some tree else none
  | none => none

end Tree

end Cattery
