import Cattery.Command.Line
import Cattery.Http.Wire
import Std.Async.DNS
import Std.Async.TCP

namespace Cattery.Machine

open Std.Async Std.Net

partial def receiveAll (socket : TCP.Socket.Client) (arrived : ByteArray) : Async ByteArray := do
  match ← socket.recv? 65536 with
  | none => return arrived
  | some bytes => receiveAll socket (arrived ++ bytes)

def converse (address : SocketAddress) (bytes : List UInt8) : Async ByteArray := do
  let socket ← TCP.Socket.Client.mk
  socket.connect address
  socket.send ⟨bytes.toArray⟩
  receiveAll socket ByteArray.empty

def socketAddress (host : IPAddr) (service : UInt16) : SocketAddress :=
  match host with
  | .v4 address => .v4 ⟨address, service⟩
  | .v6 address => .v6 ⟨address, service⟩

def firstReply (request : Http.Request) : List IPAddr → IO (Option Http.Reply)
  | [] => return none
  | host :: rest => do
    try
      let address := socketAddress host (UInt16.ofNat request.url.connectionPort)
      let bytes ← (converse address request.wire).block
      return Http.Reply.ofWire? bytes.toList
    catch _ => firstReply request rest

def send (request : Http.Request) : IO (Option Http.Reply) := do
  if request.url.secure then return none
  try
    let hosts ← (DNS.getAddrInfo request.url.host "").block
    firstReply request hosts.toList
  catch _ => return none

def succeeds (action : IO Unit) : IO Bool := do
  try
    action
    return true
  catch _ => return false

def inspect (path : String) : IO Presence := do
  try
    discard (IO.FS.realPath path)
    return .present
  catch
    | .noFileOrDirectory .. => return .missing
    | _ => return .unreachable

def readFile (path : String) : IO (Option (List UInt8)) := do
  try
    return some (← IO.FS.readBinFile path).toList
  catch _ => return none

def randomNumber : IO (BitVec 128) := do
  let bytes ← IO.getRandomBytes 16
  return BitVec.ofNat 128 (bytes.toList.foldl (fun n b => 256 * n + b.toNat) 0)

def carryOut {α : Type} (action : Action α) : IO α :=
  match action with
  | .getVariable name => IO.getEnv name
  | .homeDirectory => return (← IO.getEnv "HOME").filter fun home => !home.isEmpty
  | .currentDirectory => return (← IO.currentDir).toString
  | .readFile path => readFile path
  | .inspect path => inspect path
  | .makeDirectories path => succeeds (IO.FS.createDirAll path)
  | .writeFile path content => succeeds (IO.FS.writeBinFile path ⟨content.toArray⟩)
  | .send request => send request
  | .freshNumber => randomNumber
  | .print line => IO.println line
  | .report line => IO.eprintln line

end Cattery.Machine

def main (words : List String) : IO UInt32 := do
  let exit ← (Cattery.Command.runLine words).interpret Cattery.Machine.carryOut
  return exit.code.toUInt32
