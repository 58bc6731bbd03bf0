import Cattery.Event.Basic
import Cattery.Event.LineBuffer

namespace Cattery

structure Stream where
  completion : Option Json
  failure : Option String
deriving DecidableEq, Repr

namespace Stream

def start : Stream :=
  ⟨none, none⟩

inductive Fault where
  | pipeline (message : String)
  | incomplete
deriving DecidableEq, Repr

def observe (stream : Stream) (line : String) : Stream × Option Progress :=
  match Event.ofLine? line with
  | none => (stream, none)
  | some (.progress update) => (stream, some update)
  | some (.complete payload) => ({ stream with completion := some payload }, none)
  | some (.failure message) => ({ stream with failure := some message }, none)

def observeAll (stream : Stream) : List String → Stream × List Progress
  | [] => (stream, [])
  | line :: rest =>
    let (stream, update) := stream.observe line
    let (stream, updates) := stream.observeAll rest
    (stream, update.toList ++ updates)

def finish (stream : Stream) : Except Fault Json :=
  match stream.failure with
  | some message => .error (.pipeline message)
  | none =>
    match stream.completion with
    | some payload => .ok payload
    | none => .error .incomplete

structure Reader where
  buffer : LineBuffer
  stream : Stream
deriving DecidableEq, Repr

namespace Reader

def start : Reader :=
  ⟨LineBuffer.empty, Stream.start⟩

def push (reader : Reader) (bytes : List UInt8) : Reader × List Progress :=
  let (buffer, lines) := reader.buffer.push bytes
  let (stream, updates) := reader.stream.observeAll lines
  (⟨buffer, stream⟩, updates)

def pushAll (reader : Reader) : List (List UInt8) → Reader × List Progress
  | [] => (reader, [])
  | bytes :: rest =>
    let (reader, updates) := reader.push bytes
    let (reader, more) := reader.pushAll rest
    (reader, updates ++ more)

def finish (reader : Reader) : Except Fault Json × List Progress :=
  let (stream, updates) := reader.stream.observeAll reader.buffer.tail?.toList
  (stream.finish, updates)

end Reader

end Stream

end Cattery
