import Pmud.Common.GlobalTypeId
import Pmud.Net.CommStatic

/-! # `ConnectionActor`

The handlers of `pnet/connection_actor.h`, as functions from the actor, a
message and the operating system's answers to the next actor, the messages sent
and the system calls made.
-/

namespace Pmud.Net

/-- `m_command` is left out: it is the session's command actor until the exit
functor resets it. The constructor greets through `CommStatic`, so an actor
with a descriptor that is not positive never comes to life. -/
structure ConnectionActor where
  breakCount : Nat
  connection : Int
  currentInput : ByteString
  registeryId : String
  valid : 0 < connection
  deriving DecidableEq

/-- What one handler run does. -/
structure Reaction where
  actor : ConnectionActor
  sends : Sends
  socket : Socket
  /-- `system().registry().erase(m_registery_id)` was called. -/
  erased : Bool := false

namespace ConnectionActor

/-- The name an actor with this system-wide id is registered under. -/
def registeryName (id : Nat) : String := "Connection(" ++ toString id ++ ")"

/-- The members as the constructor leaves them. -/
def create (id : Nat) (comm : CommStatic) : ConnectionActor where
  breakCount := 0
  connection := comm.connection
  currentInput := []
  registeryId := registeryName id
  valid := comm.valid

def comm (actor : ConnectionActor) : CommStatic where
  connection := actor.connection
  valid := actor.valid

/-- The constructor's greeting. Its failure is logged and nothing else. -/
def greet (actor : ConnectionActor) (welcome : ByteString) : Emission :=
  (((actor.comm.emitBanner.andThen actor.comm.emitLine).andThen
    (actor.comm.emitLine welcome)).andThen actor.comm.emitLine).andThen actor.comm.emitLine

def quitsOn (line : ByteString) : Bool :=
  line = text "quit" || line = text "exit"

/-- `[this](FromUserGetInput)` -/
def fromUserGetInput (actor : ConnectionActor) (socket : Socket) : Reaction :=
  let (ready, peeked) := actor.comm.hasData socket
  if ready then
    let ((bytesRead, userRead), after) := actor.comm.readFromUser peeked
    if bytesRead = 0 then
      if actor.breakCount = 0 then
        { actor := { actor with breakCount := actor.breakCount + 1 }
          sends := [(.connection, .fromUserGetInput)]
          socket := after }
      else
        { actor := actor, sends := [(.connection, .goodbyeConnection)], socket := after }
    else if CommStatic.newline ∉ userRead then
      { actor := { actor with breakCount := 0, currentInput := actor.currentInput ++ userRead }
        sends := [(.connection, .fromUserGetInput)]
        socket := after }
    else
      let finalUserRead := CommStatic.sanitize (actor.currentInput ++ userRead)
      let cleared := { actor with breakCount := 0, currentInput := [] }
      if quitsOn finalUserRead then
        { actor := cleared, sends := [(.connection, .goodbyeConnection)], socket := after }
      else
        { actor := cleared
          sends := [(.command, .onUserInput finalUserRead), (.connection, .fromUserGetInput)]
          socket := after }
  else
    { actor := actor, sends := [(.connection, .fromUserGetInput)], socket := peeked }

/-- `[this](GoodbyeConnection)`. The descriptor member keeps its value. -/
def goodbyeConnection (actor : ConnectionActor) (socket : Socket) : Reaction :=
  let after :=
    if actor.connection ≠ -1 then
      let emitted := (actor.comm.emitLine [] socket).2
      let farewell := (actor.comm.emitLine (text "Goodbye!") emitted).2
      farewell.call (.close actor.connection)
    else
      socket
  { actor := actor, sends := [(.connection, .exit)], socket := after, erased := true }

/-- `make_behavior`. A message without a handler is dropped. -/
def receive (actor : ConnectionActor) (socket : Socket) : Message → Reaction
  | .performWelcome =>
      { actor := actor, sends := [(.command, .performWelcome)], socket := socket }
  | .toUserEmit emission =>
      { actor := actor, sends := [], socket := (actor.comm.emitLine emission socket).2 }
  | .toUserPrompt prompt =>
      { actor := actor
        sends := [(.connection, .fromUserGetInput)]
        socket := (actor.comm.emitPrompt prompt socket).2 }
  | .fromUserGetInput => actor.fromUserGetInput socket
  | .goodbyeConnection => actor.goodbyeConnection socket
  | _ => { actor := actor, sends := [], socket := socket }

/-- The functor attached in the constructor, run on exit. -/
def onExit : Sends := [(.command, .exit)]

end ConnectionActor

end Pmud.Net
