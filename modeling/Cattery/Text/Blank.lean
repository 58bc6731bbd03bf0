/-! `isBlank` is the Unicode property White_Space. The zero width space, the byte order mark and the
separators U+001C to U+001F do not have it. -/

namespace Cattery

def isBlank (c : Char) : Bool :=
  let n := c.toNat
  (9 ≤ n && n ≤ 13) || n == 0x20 || n == 0x85 || n == 0xA0 || n == 0x1680 ||
    (0x2000 ≤ n && n ≤ 0x200A) || n == 0x2028 || n == 0x2029 || n == 0x202F || n == 0x205F ||
    n == 0x3000

namespace Chars

def trimStart (text : List Char) : List Char :=
  text.dropWhile isBlank

def trimEnd (text : List Char) : List Char :=
  (text.reverse.dropWhile isBlank).reverse

def trim (text : List Char) : List Char :=
  trimEnd (trimStart text)

end Chars

namespace Text

def trim (text : String) : String :=
  String.ofList (Chars.trim text.toList)

def isBlank (text : String) : Bool :=
  text.toList.all Cattery.isBlank

def nonBlank? (text : String) : Option String :=
  if isBlank text then none else some (trim text)

end Text

end Cattery
