import Cattery.World.Program

namespace Cattery

structure Server where
  host : String
  portNumber : Nat
  /-- The replies that are left. -/
  replies : List Http.Reply
  /-- The requests it got, the last one first. -/
  requests : List Http.Request
deriving DecidableEq, Repr

def Server.lastReply : Http.Reply :=
  { status := 599, headers := [], body := [], complete := true }

def Server.take (server : Server) (request : Http.Request) : Option Http.Reply × Server :=
  let url := request.url
  if !url.secure && url.host == server.host && url.connectionPort == server.portNumber then
    (some (server.replies.headD lastReply),
      { server with replies := server.replies.drop 1, requests := request :: server.requests })
  else (none, server)

structure World where
  disk : Disk
  environment : List (String × String)
  home : Option String
  server : Server
  given : Nat
  printed : List String
  reported : List String
deriving Repr

namespace World

def carryOut {α : Type} (action : Action α) : StateM World α :=
  match action with
  | .getVariable name => fun world => (world.environment.lookup name, world)
  | .homeDirectory => fun world => (world.home, world)
  | .currentDirectory => fun world => (Path.ofComponents true world.disk.current, world)
  | .readFile path => fun world => (world.disk.read? path, world)
  | .inspect path => fun world => (world.disk.inspect path, world)
  | .makeDirectories path => fun world =>
    let (disk, made) := world.disk.makeDirectories path
    (made, { world with disk })
  | .writeFile path content => fun world =>
    let (disk, written) := world.disk.write path content
    (written, { world with disk })
  | .send request => fun world =>
    let (reply, server) := world.server.take request
    (reply, { world with server })
  | .freshNumber => fun world =>
    (BitVec.ofNat 128 (world.given + 1), { world with given := world.given + 1 })
  | .print line => fun world => ((), { world with printed := line :: world.printed })
  | .report line => fun world => ((), { world with reported := line :: world.reported })

def run {α : Type} (program : Program α) (world : World) : α × World :=
  program.interpret (m := StateM World) carryOut world

end World

end Cattery
