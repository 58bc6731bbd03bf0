import Cattery.Text.Blank
import Cattery.Text.Search
import Cattery.Decimal.Numeral

namespace Cattery.Attributes

def startsKey (c : Char) : Bool :=
  ('a' ≤ c && c ≤ 'z') || ('A' ≤ c && c ≤ 'Z') || c == '_'

def continuesKey (c : Char) : Bool :=
  startsKey c || ('0' ≤ c && c ≤ '9') || c == '-'

def pairAt? (text : List Char) : Option ((List Char × List Char) × List Char) :=
  match text with
  | [] => none
  | c :: rest =>
    if startsKey c then
      match Chars.trimStart (rest.dropWhile continuesKey) with
      | '=' :: afterEquals =>
        match Chars.trimStart afterEquals with
        | '"' :: quoted =>
          (cut? ['"'] quoted).map fun (value, after) =>
            ((c :: rest.takeWhile continuesKey, value), after)
        | _ => none
      | _ => none
    else none

def pairsFrom : Nat → List Char → List (List Char × List Char)
  | 0, _ => []
  | fuel + 1, text =>
    match pairAt? text with
    | some (pair, after) => pair :: pairsFrom fuel after
    | none =>
      match text with
      | [] => []
      -- what belongs to no pair is passed over
      | _ :: rest => pairsFrom fuel rest

def pairs (text : List Char) : List (List Char × List Char) :=
  pairsFrom text.length text

def value? (key : String) (text : List Char) : Option (List Char) :=
  (pairs text).lookup key.toList

def withoutPlus : List Char → List Char
  | '+' :: rest => rest
  | text => text

def index? (text : List Char) : Option UInt32 :=
  match takeDigits (withoutPlus (Chars.trim text)) with
  | (found, []) =>
    let n := natOfDigits found
    if found.isEmpty || n == 0 || UInt32.size ≤ n then none else some (UInt32.ofNat n)
  | _ => none

end Cattery.Attributes
