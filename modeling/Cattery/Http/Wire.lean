import Cattery.Decimal.Numeral
import Cattery.Http.Message
import Cattery.Text.Blank

/-! There is one request for every connection, and the receiver closes it after the reply. A body has
the length its headers tell, or comes in chunks, or ends where the connection does. -/

namespace Cattery.Http

def lineEnd : List UInt8 :=
  [13, 10]

def hostText (url : Url) : String :=
  url.host ++
    match url.portNumber with
    | some number => ":" ++ toString number
    | none => ""

def Request.wire (request : Request) : List UInt8 :=
  let headers := [("host", hostText request.url), ("connection", "close"),
    ("content-length", toString request.body.length)] ++ request.headers
  let lines := headers.map fun (name, value) => name ++ ": " ++ value ++ "\r\n"
  Utf8.encode ("POST " ++ request.url.target ++ " HTTP/1.1\r\n" ++ String.join lines ++ "\r\n") ++
    request.body

def plainText (bytes : List UInt8) : List Char :=
  bytes.map fun b => Char.ofNat b.toNat

def readStatus? (line : List UInt8) : Option Nat :=
  (cut? [' '] (plainText line)).bind fun (_, rest) =>
    match takeDigits rest with
    | ([], _) => none
    | (digits, _) => some (natOfDigits digits)

def readHeader? (line : List UInt8) : Option (String × String) :=
  (cut? [':'] (plainText line)).map fun (name, value) =>
    (String.ofList name, String.ofList (Chars.trim value))

def lines (bytes : List UInt8) : List (List UInt8) :=
  (splitOn 10 bytes).map fun line => if line.getLast? == some 13 then line.dropLast else line

def chunkSize? (line : List UInt8) : Option Nat :=
  let digits := (plainText line).takeWhile fun c => (Hex.digitValue? c).isSome
  if digits.isEmpty then none
  else some (digits.foldl (fun n c => 16 * n + (Hex.digitValue? c).getD 0) 0)

def joinChunks : Nat → List UInt8 → List UInt8 × Bool
  | 0, _ => ([], false)
  | fuel + 1, bytes =>
    match cut? lineEnd bytes with
    | none => ([], false)
    | some (line, rest) =>
      match chunkSize? line with
      | none => ([], false)
      | some 0 => ([], true)
      | some size =>
        let (more, complete) := joinChunks fuel (rest.drop (size + 2))
        (rest.take size ++ more, size ≤ rest.length && complete)

def headerValue? (headers : List (String × String)) (name : String) : Option String :=
  (headers.find? fun (n, _) => headerName? n == some name).map Prod.snd

def readBody (headers : List (String × String)) (bytes : List UInt8) : List UInt8 × Bool :=
  if headerValue? headers "transfer-encoding" == some "chunked" then
    joinChunks bytes.length bytes
  else
    match (headerValue? headers "content-length").map fun value => takeDigits value.toList with
    | some (digits, []) =>
      let size := natOfDigits digits
      (bytes.take size, size ≤ bytes.length)
    | _ => (bytes, true)

def Reply.ofWire? (bytes : List UInt8) : Option Reply := do
  let (head, rest) ← cut? (lineEnd ++ lineEnd) bytes
  match lines head with
  | [] => none
  | first :: others =>
    let status ← readStatus? first
    let headers := others.filterMap readHeader?
    let (body, complete) :=
      if status == 204 || status == 304 then ([], true) else readBody headers rest
    some { status, headers, body, complete }

end Cattery.Http
