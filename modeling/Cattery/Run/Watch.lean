import Cattery.Event.Channel
import Cattery.Run.Execute

namespace Cattery.Run

def consume (channel : Option Channel) (pieces : List (List UInt8)) (complete : Bool) :
    Except Failure Json × Option Channel :=
  let (reader, channel) := Stream.Reader.start.forwardAll channel pieces
  if complete then
    let (outcome, channel) := reader.close channel
    (outcome.mapError Failure.ofStream, channel)
  else (.error .transport, channel)

def resolve (options : Options) (channel : Option Channel) (reply : Http.Reply) :
    Except Failure Output × Option Channel :=
  if reply.isSuccess && (isEventStream reply && options.progress) then
    let (outcome, channel) := consume channel [reply.body] reply.complete
    (outcome.map Output.ofCompletion, channel)
  else
    let (outcome, updates) := conclude options reply
    (outcome, Channel.post channel updates)

def switches (draft debug : Bool) (channel : Option Channel) : Options :=
  { draft, debug, progress := channel.isSome }

def watch (endpoint : Endpoint) (token : Credential) (slug : String) (input : Input)
    (draft debug : Bool) (channel : Option Channel) :
    Program (Except Failure Output × Option Channel) :=
  let options := switches draft debug channel
  match prepare endpoint token slug input options with
  | .error failure => return (.error failure, channel)
  | .ok request => do
    match ← Program.exchange request with
    | none => return (.error .transport, channel)
    | some reply => return resolve options channel reply

end Cattery.Run
