import Cattery.Assoc
import Cattery.Json.Tree
import Cattery.Json.Value

namespace Cattery

def Mark.spell? : List Mark → Option (List Char)
  | [] => some []
  | .char c :: rest => (spell? rest).map (c :: ·)
  | .unit n :: rest =>
    if n < 0xD800 || 0xE000 ≤ n then (spell? rest).map (Char.ofNat n :: ·)
    else
      match rest with
      | .unit m :: rest =>
        if n < 0xDC00 && 0xDC00 ≤ m && m < 0xE000 then
          (spell? rest).map (Char.ofNat (0x10000 + (n - 0xD800) * 0x400 + (m - 0xDC00)) :: ·)
        else none
      | _ => none

def Mark.text? (marks : List Mark) : Option String :=
  (spell? marks).map String.ofList

/-- The number a numeral stands for: an integer when it is written as one that fits 64 bits,
otherwise a double; `none` when it is too large for a double. -/
def Numeral.number? (x : Numeral) : Option Number :=
  match x.int? with
  | some n => if h : FitsWord n then some (.int n h) else none
  | none => x.double?.map .double

namespace Tree

def deepest : Nat :=
  127

mutual

def value? (depth : Nat) : Tree → Option Json
  | .null => some .null
  | .bool value => some (.bool value)
  | .numeral value => value.number?.map .number
  | .string marks => (Mark.text? marks).map .string
  | .array items => if depth = 0 then none else (itemValues? (depth - 1) items).map .array
  | .object members =>
    if depth = 0 then none
    else (memberValues? (depth - 1) members).map fun members => .object (Assoc.ofEntries members)

def itemValues? (depth : Nat) : List Tree → Option (List Json)
  | [] => some []
  | item :: rest =>
    match value? depth item, itemValues? depth rest with
    | some value, some values => some (value :: values)
    | _, _ => none

def memberValues? (depth : Nat) : List (List Mark × Tree) → Option (List (String × Json))
  | [] => some []
  | (key, item) :: rest =>
    match Mark.text? key, value? depth item, memberValues? depth rest with
    | some key, some value, some values => some ((key, value) :: values)
    | _, _, _ => none

end

end Tree

def Json.parseChars? (text : List Char) : Option Json :=
  (Tree.ofChars? text).bind (Tree.value? Tree.deepest)

def Json.parse? (text : String) : Option Json :=
  Json.parseChars? text.toList

end Cattery
