import Cattery.Text.Hex
import Cattery.Text.Lowercase
import Cattery.Text.Search
import Cattery.Text.Utf8
import Cattery.Decimal.Numeral

/-! A text is read as an absolute `http` or `https` URL by the rules that web browsers share. White
space around it is dropped, backslashes are slashes, the dot segments of the path are resolved, also
where their dots are written in hexadecimal, and characters that a path or query may not hold are
written in hexadecimal. What follows a number sign is not sent and not kept. -/

namespace Cattery

structure Url where
  secure : Bool
  login : Option (String × String)
  host : String
  portNumber : Option Nat
  /-- The segments of the path; there is a slash before each. -/
  path : List String
  query : Option String
deriving DecidableEq, Repr

namespace Url

def isPadding (c : Char) : Bool :=
  c.toNat ≤ 0x20

def tidy (text : List Char) : List Char :=
  let inner := ((text.dropWhile isPadding).reverse.dropWhile isPadding).reverse
  inner.filter fun c => !(c == '\t' || c == '\n' || c == '\r')

def isSlash (c : Char) : Bool :=
  c == '/' || c == '\\'

def percentEncoded (c : Char) : List Char :=
  (String.utf8EncodeChar c).flatMap fun b => '%' :: (Hex.byteDigits b).map Char.toUpper

def isPathSpecial (c : Char) : Bool :=
  c.toNat ≤ 0x20 || 0x7F ≤ c.toNat || c == '"' || c == '#' || c == '<' || c == '>' || c == '?' ||
    c == '\x60' || c == '\x7b' || c == '\x7d'

def isQuerySpecial (c : Char) : Bool :=
  c.toNat ≤ 0x20 || 0x7F ≤ c.toNat || c == '"' || c == '#' || c == '<' || c == '>' ||
    c.toNat == 39

def escape (isSpecial : Char → Bool) (text : List Char) : List Char :=
  text.flatMap fun c => if isSpecial c then percentEncoded c else [c]

def plainDots : List Char → List Char
  | [] => []
  | '%' :: '2' :: 'e' :: rest => '.' :: plainDots rest
  | '%' :: '2' :: 'E' :: rest => '.' :: plainDots rest
  | c :: rest => c :: plainDots rest

def isSingleDot (segment : List Char) : Bool :=
  plainDots segment == ['.']

def isDoubleDot (segment : List Char) : Bool :=
  plainDots segment == ['.', '.']

/-- The segments of a path after some others, the last of which comes first. A dot segment at the
end leaves an empty one. -/
def resolve (above : List (List Char)) : List (List Char) → List (List Char)
  | [] => above.reverse
  | segment :: rest =>
    let above :=
      if isDoubleDot segment then
        if rest.isEmpty then [] :: above.drop 1 else above.drop 1
      else if isSingleDot segment then
        if rest.isEmpty then [] :: above else above
      else escape isPathSpecial segment :: above
    resolve above rest

def pieces (text : List Char) : List (List Char) :=
  splitOn '/' (text.map fun c => if isSlash c then '/' else c)

def scheme? (text : List Char) : Option (List Char × List Char) :=
  match cut? [':'] text with
  | none => none
  | some (name, rest) =>
    let name := name.map asciiLower
    let isLetter (c : Char) : Bool := 'a' ≤ c && c ≤ 'z'
    let follows (c : Char) : Bool :=
      isLetter c || ('0' ≤ c && c ≤ '9') || c == '+' || c == '-' || c == '.'
    match name with
    | [] => none
    | c :: others => if isLetter c && others.all follows then some (name, rest) else none

def bytes : List Char → List UInt8
  | '%' :: a :: b :: rest =>
    match Hex.digitValue? a, Hex.digitValue? b with
    | some high, some low => UInt8.ofNat (16 * high + low) :: bytes rest
    | _, _ => String.utf8EncodeChar '%' ++ bytes (a :: b :: rest)
  | c :: rest => String.utf8EncodeChar c ++ bytes rest
  | [] => []

/-- The user that an authority names before its last at sign. A name that is no text names nobody,
and a password that is no text counts as an empty one. -/
def login? (authority : List Char) : Option (String × String) := do
  let user := ['@'].intercalate (splitOn '@' authority).dropLast
  let name ← Utf8.decode? (bytes (user.takeWhile (· != ':')))
  let password := (Utf8.decode? (bytes ((user.dropWhile (· != ':')).drop 1))).getD ""
  if name.isEmpty && password.isEmpty then none else some (name, password)

/-- The host of an authority and the number after it. The colons of a host in brackets are its
own, and nothing but a colon may follow the closing one. -/
def hostAndNumber? (authority : List Char) : Option (String × Option Nat) :=
  let place := (splitOn '@' authority).getLastD []
  let bracketed := if place.head? == some '[' then place.takeWhile (· != ']') else []
  let rest := place.drop bracketed.length
  let host := bracketed ++ rest.takeWhile (· != ':')
  if host.isEmpty || (!bracketed.isEmpty && host.getLast? != some ']') then none
  else
    let host := String.ofList (host.map asciiLower)
    match (rest.dropWhile (· != ':')).drop 1 with
    | [] => some (host, none)
    | digits =>
      match takeDigits digits with
      | (digits, []) =>
        let n := natOfDigits digits
        if n < 65536 then some (host, some n) else none
      | _ => none

def parse? (text : String) : Option Url := do
  let (scheme, rest) ← scheme? (tidy text.toList)
  let secure ←
    if scheme == "http".toList then some false
    else if scheme == "https".toList then some true
    else none
  let rest := (rest.takeWhile (· != '#')).dropWhile isSlash
  let authority := rest.takeWhile fun c => !(isSlash c || c == '?')
  let (host, portNumber) ← hostAndNumber? authority
  let rest := rest.drop authority.length
  let path := rest.takeWhile (· != '?')
  let query := (rest.dropWhile (· != '?')).tail?
  some {
    secure, login := login? authority, host, portNumber
    path := (resolve [] (pieces (path.drop 1))).map String.ofList
    query := query.map fun query => String.ofList (escape isQuerySpecial query) }

def connectionPort (url : Url) : Nat :=
  url.portNumber.getD (if url.secure then 443 else 80)

def pathText (url : Url) : String :=
  "/" ++ "/".intercalate url.path

def target (url : Url) : String :=
  url.pathText ++
    match url.query with
    | some query => "?" ++ query
    | none => ""

end Url

end Cattery
