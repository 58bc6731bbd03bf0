import Cattery.Http.Url
import Cattery.Json.Printer
import Cattery.Json.Meaning
import Cattery.Text.Base64
import Cattery.Text.Lowercase

namespace Cattery.Http

def isNameChar (c : Char) : Bool :=
  ('a' ≤ c && c ≤ 'z') || ('A' ≤ c && c ≤ 'Z') || ('0' ≤ c && c ≤ '9') ||
    "!#$%&'*+-.^_|~".toList.contains c || c == '\x60'

def headerName? (text : String) : Option String :=
  if !text.isEmpty && text.toList.all isNameChar then
    some (String.ofList (text.toList.map asciiLower))
  else none

def isValueChar (c : Char) : Bool :=
  c == '\t' || (0x20 ≤ c.toNat && c.toNat != 0x7F)

def header? (name value : String) : Option (String × String) :=
  if value.toList.all isValueChar then (headerName? name).map fun name => (name, value) else none

structure Draft where
  url : String
  /-- The headers in the order they are added. Headers of one name stand side by side. -/
  headers : List (String × String)
  body : List UInt8
deriving DecidableEq, Repr

structure Request where
  url : Url
  headers : List (String × String)
  body : List UInt8
deriving DecidableEq, Repr

def acceptHeader : String :=
  "accept"

def contentTypeHeader : String :=
  "content-type"

def jsonType : String :=
  "application/json"

def addMissing (name value : String) (headers : List (String × String)) :
    List (String × String) :=
  if headers.any fun (n, _) => n == name then headers else headers ++ [(name, value)]

/-- The header that the client makes of the user in a URL, which no request names otherwise. -/
def basic? (url : Url) : Option (String × String) :=
  url.login.map fun (name, password) =>
    ("authorization", "Basic " ++ Base64.encode (Utf8.encode (name ++ ":" ++ password)))

/-- The headers of a request to a URL. The one of its user stands before those that are added, also
where these hold another of that name. Any reply is accepted unless they say otherwise. -/
def completed (url : Url) (headers : List (String × String)) : List (String × String) :=
  addMissing acceptHeader "*/*" ((basic? url).toList ++ headers)

def Draft.request? (draft : Draft) : Option Request := do
  let headers ← draft.headers.mapM fun (name, value) => header? name value
  let url ← Url.parse? draft.url
  some { url, headers := completed url headers, body := draft.body }

def Draft.withJson (draft : Draft) (value : Json) : Draft :=
  let named := draft.headers.any fun (name, _) => headerName? name == some contentTypeHeader
  { draft with
    headers := if named then draft.headers else draft.headers ++ [(contentTypeHeader, jsonType)]
    body := Utf8.encode value.compact }

def bearer (secret : String) : String × String :=
  ("authorization", "Bearer " ++ secret)

def unpadded (value : String) : String :=
  let isPad (c : Char) : Bool := c == ' ' || c == '\t'
  String.ofList (((value.toList.dropWhile isPad).reverse.dropWhile isPad).reverse)

def Request.received (request : Request) : List (String × String) :=
  request.headers.map fun (name, value) => (name, unpadded value)

structure Reply where
  status : Nat
  headers : List (String × String)
  body : List UInt8
  complete : Bool
deriving DecidableEq, Repr

namespace Reply

def isSuccess (reply : Reply) : Bool :=
  200 ≤ reply.status && reply.status < 300

def text? (reply : Reply) : Option String :=
  if reply.complete then some (Utf8.decodeLossy reply.body) else none

def textOrEmpty (reply : Reply) : String :=
  reply.text?.getD ""

/-- The value of the first header of a name, where it is visible ASCII text. -/
def header? (reply : Reply) (name : String) : Option String :=
  match reply.headers.find? fun (n, _) => headerName? n == some name with
  | some (_, value) =>
    if value.toList.all fun c => c == '\t' || (0x20 ≤ c.toNat && c.toNat < 0x7F) then some value
    else none
  | none => none

end Reply

end Cattery.Http
