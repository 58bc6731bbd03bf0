import Cattery.Event.Stream
import Cattery.Http.Message
import Cattery.Run.Input
import Cattery.Run.Output
import Cattery.Settings.Config
import Cattery.Settings.Credential

namespace Cattery.Run

inductive Failure where
  | invalidInput (reason : String)
  | http (status : Nat) (message : String)
  | pipeline (message : String)
  | streamIncomplete
  | invalidResponse
  | transport
deriving DecidableEq, Repr

def Failure.message : Failure → String
  | .invalidInput reason => "invalid input: " ++ reason
  | .http _ text => text
  | .pipeline text => "pipeline failed: " ++ text
  | .streamIncomplete => "stream ended without a complete event"
  | .invalidResponse => "invalid response: failed to parse completion body"
  | .transport => "transport error"

def eventStream : String :=
  "text/event-stream"

/-- The URL that runs cats: below the base URL, whose slashes at the end do not count. -/
def completionsUrl (endpoint : Endpoint) : String :=
  String.ofList (endpoint.baseUrl.toList.reverse.dropWhile (· == '/')).reverse ++
    "/chat/completions"

def reservedHeaders : List String :=
  ["authorization", "content-type", "accept"]

def isReserved (name : String) : Bool :=
  reservedHeaders.contains (String.ofList ((Chars.trim name.toList).map asciiLower))

def headers (endpoint : Endpoint) (token : Credential) (options : Options) :
    List (String × String) :=
  [Http.bearer token.value, ("Content-Type", Http.jsonType)] ++
    (if options.progress then [("Accept", eventStream ++ ", " ++ Http.jsonType)] else []) ++
    endpoint.headers.filter fun (name, _) => !isReserved name

/-- The request that runs a cat. There has to be something to send, a slug to send it to, and a
token. -/
def prepare (endpoint : Endpoint) (token : Credential) (slug : String) (input : Input)
    (options : Options) : Except Failure Http.Draft :=
  let parts := input.parts
  let slug := Text.trim slug
  if parts.isEmpty then .error (.invalidInput "enter a message or attach an image")
  else
    match Slug.check slug with
    | .error refusal => .error (.invalidInput refusal.message)
    | .ok slug =>
      if token.isEmpty then .error (.invalidInput "missing access token")
      else
        let draft : Http.Draft :=
          { url := completionsUrl endpoint, headers := headers endpoint token options, body := [] }
        .ok (draft.withJson (requestBody (Slug.modelName slug) parts options))

/-- The text of the first candidate that is a text, if that is not blank. The error may be an
object with a message, or a text. -/
def reportedError? (body : Json) : Option String :=
  let named :=
    ((body.get? "error").bind fun error => (error.text? "message").or error.string?).or
      (body.text? "message")
  named.bind Text.nonBlank?

def refusalMessage (status : Nat) (body : String) : String :=
  let reported := (Json.parse? body).bind reportedError?
  (reported.or (Text.nonBlank? body)).getD
    ("Request failed with status " ++ toString status)

def isEventStream (reply : Http.Reply) : Bool :=
  match reply.header? Http.contentTypeHeader with
  | some value => occurs eventStream.toList (value.toList.map asciiLower)
  | none => false

def Failure.ofStream : Stream.Fault → Failure
  | .pipeline message => .pipeline message
  | .incomplete => .streamIncomplete

/-- What a stream that arrives in pieces comes to, and the progress it reports. A stream that
breaks off has reported the progress of its whole lines. -/
def readStream (pieces : List (List UInt8)) (complete : Bool) :
    Except Failure Json × List Progress :=
  let (reader, updates) := Stream.Reader.start.pushAll pieces
  if complete then
    let (outcome, last) := reader.finish
    (outcome.mapError Failure.ofStream, updates ++ last)
  else (.error .transport, updates)

def conclude (options : Options) (reply : Http.Reply) : Except Failure Output × List Progress :=
  if !reply.isSuccess then
    (.error (.http reply.status (refusalMessage reply.status reply.textOrEmpty)), [])
  else if isEventStream reply && options.progress then
    let (outcome, updates) := readStream [reply.body] reply.complete
    (outcome.map Output.ofCompletion, updates)
  else
    match reply.text? with
    | none => (.error .transport, [])
    | some text =>
      match Json.parse? text with
      | none => (.error .invalidResponse, [])
      | some completion => (.ok (Output.ofCompletion completion), [])

def shownRunner (endpoint : Endpoint) : String :=
  "CatRunner \x7b base_url: " ++ Text.quoted endpoint.baseUrl ++ ", timeout_secs: " ++
    (match endpoint.timeoutSecs with
      | some secs => "Some(" ++ toString secs.toNat ++ ")"
      | none => "None") ++ " \x7d"

end Cattery.Run
