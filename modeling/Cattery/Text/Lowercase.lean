import Cattery.Text.CaseTable

namespace Cattery

def asciiLower (c : Char) : Char :=
  if 'A' ≤ c && c ≤ 'Z' then Char.ofNat (c.toNat + 32) else c

namespace Chars

def simpleLower (c : Char) : Char :=
  let n := c.toNat
  if n < 128 then asciiLower c
  else
    match CaseTable.lowerRuns.find? (CaseTable.inRun n) with
    | some run => Char.ofNat (CaseTable.shift n run)
    | none => c

def startsCased (text : List Char) : Bool :=
  match text.dropWhile fun c => CaseTable.within CaseTable.ignorable c.toNat with
  | [] => false
  | c :: _ => CaseTable.within CaseTable.cased c.toNat

def lowerImage (before : List Char) (c : Char) (rest : List Char) : List Char :=
  -- a capital sigma has a form of its own at the end of a word
  if c.toNat == 0x3A3 then
    [if startsCased before && !startsCased rest then Char.ofNat 0x3C2 else Char.ofNat 0x3C3]
  else if c.toNat == 0x130 then ['i', Char.ofNat 0x307]
  else [simpleLower c]

/-- The lower case of the second list, where the first one stands before it, last character
first. -/
def lowerFrom (before : List Char) : List Char → List Char
  | [] => []
  | c :: rest => lowerImage before c rest ++ lowerFrom (c :: before) rest

def lowercase (text : List Char) : List Char :=
  lowerFrom [] text

end Chars

def Text.lowercase (text : String) : String :=
  String.ofList (Chars.lowercase text.toList)

end Cattery
