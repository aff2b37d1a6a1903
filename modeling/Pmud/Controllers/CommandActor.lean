import Pmud.Controllers.LoginController

/-! # `CommandActor` and `DefaultController`

The handlers of `controllers/command_actor.h` and
`controllers/default_controller.h`.
-/

namespace Pmud.Controllers

open UserClient

namespace DefaultController

def emitHelp : Sends :=
  funkyBanner .command ++ emitUser .command (text "Primordia MUD Help\n") ++
    emitUser .command (text "exit or quit             quits the MUD") ++
    emitUser .command (text "help                     this message") ++
    funkyBanner .command ++ emitUser .command (text "\n")

/-- `make_behavior`; the controller has no members of its own. -/
def receive : Message → Sends
  | .onUserInput input =>
      if input = text "help" then
        emitHelp ++ promptUser .command
      else if input ≠ [] then
        emitUser .command (text "Unknown command: " ++ input) ++ promptUser .command
      else
        promptUser .command
  | _ => []

end DefaultController

/-- `m_default_controller` is spawned by the constructor and refers to
`.defaultController` until the exit functor resets it. -/
structure CommandActor where
  activeController : Option ActorId
  /-- How many login controllers this actor has spawned. -/
  spawned : Nat
  deriving DecidableEq, Repr

namespace CommandActor

def create : CommandActor where
  activeController := none
  spawned := 0

/-- `send_exit` to the active controller; without one the handle is null and
nothing is sent. -/
def exitActive (actor : CommandActor) : Sends :=
  (actor.activeController.map fun controller => (controller, Message.exit)).toList

def receive (actor : CommandActor) : Message → CommandActor × Sends
  | .performWelcome =>
      let loginController := .loginController actor.spawned
      ({ activeController := some loginController, spawned := actor.spawned + 1 },
        [(loginController, .loginControllerStart)])
  | .onUserInput input =>
      match actor.activeController with
      | none => (actor, promptUser .connection)
      | some controller => (actor, [(controller, .onUserInput input)])
  | .toUserPrompt prompt => (actor, promptUser .connection prompt)
  | .toUserEmit emission => (actor, emitUser .connection emission)
  | .loginControllerEnd =>
      ({ actor with activeController := some .defaultController },
        actor.exitActive ++ promptUser .connection)
  | _ => (actor, [])

/-- The functor attached in the constructor, run on exit. -/
def onExit (actor : CommandActor) : Sends :=
  actor.exitActive ++ [(.defaultController, .exit)]

end CommandActor

end Pmud.Controllers
