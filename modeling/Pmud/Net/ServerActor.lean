import Pmud.Common.GlobalTypeId

/-! # `ServerActor`

The handlers of `pnet/server_actor.h`.
-/

namespace Pmud.Net

/-- A descriptor that `accept` hands out. Descriptor 0 is the standard input. -/
abbrev Descriptor := { descriptor : Int // 0 < descriptor }

/-- The system calls of the server with their results. -/
inductive ServerCall
  | socket (result : Int)
  | bind (descriptor result : Int)
  | listen (descriptor result : Int)
  | accept (descriptor : Int) (result : Option Descriptor)
  | close (descriptor : Int)
  deriving DecidableEq

/-- What the operating system answers to the calls of one handler; `none` stands
for an `accept` that returns -1. -/
structure ServerAnswers where
  socket : Int
  bind : Int
  listen : Int
  errno : Int
  accept : Option Descriptor

structure ServerActor where
  sockfd : Int
  deriving DecidableEq, Repr

structure ServerReaction where
  actor : ServerActor
  /-- Sends to `.connection` go to the connection actor that is spawned. -/
  sends : Sends
  calls : List ServerCall
  /-- The descriptor that a connection actor is spawned for. -/
  accepted : Option Descriptor := none

namespace ServerActor

def create : ServerActor where
  sockfd := 0

/-- `[this](StartServer) -> int` -/
def startServer (answers : ServerAnswers) : ServerReaction :=
  let actor := { sockfd := answers.socket }
  let opened := [.socket answers.socket]
  if answers.socket = -1 then
    { actor := actor, sends := [(.main, .serverStarted answers.errno)], calls := opened }
  else
    let bound := opened ++ [.bind answers.socket answers.bind]
    if answers.bind < 0 then
      { actor := actor, sends := [(.main, .serverStarted answers.errno)], calls := bound }
    else
      let listening := bound ++ [.listen answers.socket answers.listen]
      if answers.listen < 0 then
        { actor := actor, sends := [(.main, .serverStarted answers.errno)], calls := listening }
      else
        { actor := actor
          sends := [(.server, .acceptConnection), (.main, .serverStarted 0)]
          calls := listening }

/-- `[this](AcceptConnection)` -/
def acceptConnection (actor : ServerActor) (answers : ServerAnswers) : ServerReaction :=
  if actor.sockfd ≤ 0 then
    { actor := actor, sends := [], calls := [] }
  else
    let calls := [.accept actor.sockfd answers.accept]
    match answers.accept with
    | none => { actor := actor, sends := [(.server, .acceptConnection)], calls := calls }
    | some descriptor =>
        { actor := actor
          sends := [(.connection, .performWelcome), (.server, .acceptConnection)]
          calls := calls
          accepted := some descriptor }

/-- `[this](GoodbyeServer) -> bool` -/
def goodbyeServer (actor : ServerActor) : ServerReaction where
  actor := { sockfd := 0 }
  sends := [(.server, .exit), (.main, .serverStopped true)]
  calls := [.close actor.sockfd]

/-- `make_behavior`. A message without a handler is dropped. -/
def receive (actor : ServerActor) (answers : ServerAnswers) : Message → ServerReaction
  | .startServer => startServer answers
  | .acceptConnection => actor.acceptConnection answers
  | .goodbyeServer => actor.goodbyeServer
  | _ => { actor := actor, sends := [], calls := [] }

end ServerActor

end Pmud.Net
