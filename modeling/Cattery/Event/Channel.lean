import Cattery.Event.Stream

namespace Cattery

structure Channel where
  received : List Progress
  /-- How many more updates the receiver waits for before it goes; without a number it stays. -/
  patience : Option Nat
deriving DecidableEq, Repr

namespace Channel

def live : Channel :=
  ⟨[], none⟩

def dropped : Channel :=
  ⟨[], some 0⟩

def send (channel : Channel) (update : Progress) : Channel × Bool :=
  match channel.patience with
  | none => ({ channel with received := channel.received ++ [update] }, true)
  | some 0 => (channel, false)
  | some (left + 1) => (⟨channel.received ++ [update], some left⟩, true)

def sendAll (channel : Channel) (updates : List Progress) : Channel :=
  updates.foldl (fun channel update => (channel.send update).1) channel

def post (channel : Option Channel) (updates : List Progress) : Option Channel :=
  channel.map fun channel => channel.sendAll updates

@[simp] theorem sendAll_nil (channel : Channel) : channel.sendAll [] = channel := rfl

theorem sendAll_append (channel : Channel) (first second : List Progress) :
    channel.sendAll (first ++ second) = (channel.sendAll first).sendAll second :=
  List.foldl_append

@[simp] theorem post_nil (channel : Option Channel) : post channel [] = channel := by
  cases channel <;> rfl

theorem post_append (channel : Option Channel) (first second : List Progress) :
    post channel (first ++ second) = post (post channel first) second := by
  cases channel with
  | none => rfl
  | some channel => exact congrArg some (sendAll_append channel first second)

end Channel

namespace Stream

def forward (stream : Stream) (channel : Option Channel) (line : String) :
    Stream × Option Channel :=
  match Event.ofLine? line with
  | none => (stream, channel)
  | some (.progress update) => (stream, Channel.post channel [update])
  | some (.complete payload) => ({ stream with completion := some payload }, channel)
  | some (.failure message) => ({ stream with failure := some message }, channel)

def forwardAll (stream : Stream) (channel : Option Channel) :
    List String → Stream × Option Channel
  | [] => (stream, channel)
  | line :: rest =>
    let (stream, channel) := stream.forward channel line
    stream.forwardAll channel rest

namespace Reader

def forward (reader : Reader) (channel : Option Channel) (bytes : List UInt8) :
    Reader × Option Channel :=
  let (buffer, lines) := reader.buffer.push bytes
  let (stream, channel) := reader.stream.forwardAll channel lines
  (⟨buffer, stream⟩, channel)

def forwardAll (reader : Reader) (channel : Option Channel) :
    List (List UInt8) → Reader × Option Channel
  | [] => (reader, channel)
  | bytes :: rest =>
    let (reader, channel) := reader.forward channel bytes
    reader.forwardAll channel rest

def close (reader : Reader) (channel : Option Channel) : Except Fault Json × Option Channel :=
  let (stream, channel) := reader.stream.forwardAll channel reader.buffer.tail?.toList
  (stream.finish, channel)

end Reader

end Stream

end Cattery
