import Cattery.Json.Value
import Cattery.Decimal.Shortest
import Cattery.Text.Hex

namespace Cattery.Json

def escapedChar (c : Char) : List Char :=
  match c with
  | '"' => ['\\', '"']
  | '\\' => ['\\', '\\']
  | '\x08' => ['\\', 'b']
  | '\x0c' => ['\\', 'f']
  | '\n' => ['\\', 'n']
  | '\r' => ['\\', 'r']
  | '\t' => ['\\', 't']
  | _ => if c.toNat < 0x20 then '\\' :: 'u' :: Hex.digits 4 c.toNat else [c]

def quotedChars (text : String) : List Char :=
  '"' :: text.toList.flatMap escapedChar ++ ['"']

def numberChars : Number → List Char
  | .int value _ => (toString value).toList
  | .double value => value.text

mutual

def compactChars : Json → List Char
  | .null => ['n', 'u', 'l', 'l']
  | .bool true => ['t', 'r', 'u', 'e']
  | .bool false => ['f', 'a', 'l', 's', 'e']
  | .number value => numberChars value
  | .string text => quotedChars text
  | .array items => '[' :: compactItems items ++ [']']
  | .object members => '\x7b' :: compactMembers members ++ ['\x7d']

def compactItems : List Json → List Char
  | [] => []
  | [item] => compactChars item
  | item :: rest => compactChars item ++ ',' :: compactItems rest

def compactMembers : List (String × Json) → List Char
  | [] => []
  | [(key, value)] => quotedChars key ++ ':' :: compactChars value
  | (key, value) :: rest =>
    quotedChars key ++ ':' :: compactChars value ++ ',' :: compactMembers rest

end

def newline (level : Nat) : List Char :=
  '\n' :: List.replicate (2 * level) ' '

mutual

def indentedChars (level : Nat) : Json → List Char
  | .null => ['n', 'u', 'l', 'l']
  | .bool true => ['t', 'r', 'u', 'e']
  | .bool false => ['f', 'a', 'l', 's', 'e']
  | .number value => numberChars value
  | .string text => quotedChars text
  | .array [] => ['[', ']']
  | .array items =>
    '[' :: newline (level + 1) ++ indentedItems (level + 1) items ++ newline level ++ [']']
  | .object [] => ['\x7b', '\x7d']
  | .object members =>
    '\x7b' :: newline (level + 1) ++ indentedMembers (level + 1) members ++ newline level ++
      ['\x7d']

def indentedItems (level : Nat) : List Json → List Char
  | [] => []
  | [item] => indentedChars level item
  | item :: rest => indentedChars level item ++ ',' :: newline level ++ indentedItems level rest

def indentedMembers (level : Nat) : List (String × Json) → List Char
  | [] => []
  | [(key, value)] => quotedChars key ++ ':' :: ' ' :: indentedChars level value
  | (key, value) :: rest =>
    quotedChars key ++ ':' :: ' ' :: indentedChars level value ++
      ',' :: newline level ++ indentedMembers level rest

end

def compact (value : Json) : String :=
  String.ofList value.compactChars

def indented (value : Json) : String :=
  String.ofList (value.indentedChars 0)

end Cattery.Json
