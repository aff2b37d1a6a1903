import Pmud.Controllers.CommandActor
import Pmud.Foundation.ActorSystem
import Pmud.Net.ConnectionActor

/-! # One user's session

The connection actor, its command actor, the login controllers and the default
controller that the command actor spawns, exchanging messages. The server has
sent its `PerformWelcome`; main may say goodbye at any time.
-/

namespace Pmud.System

open Pmud.Foundation Pmud.Net Pmud.Controllers

structure SessionState where
  connection : ConnectionActor
  command : CommandActor
  logins : Nat → LoginController
  exited : ActorId → Bool

/-- What the operating system and the random device answer during one turn. -/
structure Answers where
  sends : List (Option Nat)
  peeked : Int
  reading : Option ReadBytes
  draws : Security.Draws

def Answers.socket (answers : Answers) : Socket where
  sends := answers.sends
  peeked := answers.peeked
  reading := answers.reading

namespace SessionState

/-- The actors as their constructors leave them. A login controller that is not
spawned yet has nothing to handle. -/
def create (id : Nat) (comm : CommStatic) : SessionState where
  connection := .create id comm
  command := .create
  logins := fun _ => .create
  exited := fun _ => false

/-- The functor that an actor runs when it ends. -/
def onExit (state : SessionState) : ActorId → Sends
  | .connection => ConnectionActor.onExit
  | .command => state.command.onExit
  | _ => []

def stop (state : SessionState) (actor : ActorId) : SessionState :=
  { state with exited := fun name => name = actor || state.exited name }

/-- The handler of an actor of the session. -/
def receive (sha256 : ByteString → ByteString) (state : SessionState) (receiver : ActorId)
    (answers : Answers) (message : Message) : SessionState × Sends :=
  match receiver with
  | .connection =>
      let reaction := state.connection.receive answers.socket message
      ({ state with connection := reaction.actor }, reaction.sends)
  | .command =>
      let (command, sends) := state.command.receive message
      ({ state with command := command }, sends)
  | .loginController serial =>
      let (login, sends) := (state.logins serial).receive sha256 answers.draws message
      ({ state with logins := fun other => if other = serial then login else state.logins other },
        sends)
  | .defaultController => (state, DefaultController.receive message)
  | _ => (state, [])

/-- Handling the exit message ends the actor; any other message is for its
handlers. -/
def react (sha256 : ByteString → ByteString) (state : SessionState) (receiver : ActorId)
    (answers : Answers) (message : Message) : SessionState × Sends :=
  if message = .exit then (state.stop receiver, state.onExit receiver)
  else state.receive sha256 receiver answers message

end SessionState

/-- The session as a system of actors. The only move made without a message is
main's goodbye. -/
def session (sha256 : ByteString → ByteString) :
    ActorSystem ActorId Message SessionState Answers Unit where
  running state actor := !state.exited actor
  react := SessionState.react sha256
  move state _ := some (state, .main, [(.connection, .goodbyeConnection)])

abbrev SessionConfiguration := ActorSystem.Configuration ActorId Message SessionState

abbrev SessionEvent := ActorSystem.Event ActorId Answers Unit

/-- The server has spawned the connection actor and told it to welcome. -/
def openSession (id : Nat) (comm : CommStatic) : SessionConfiguration where
  state := .create id comm
  mail := ActorSystem.post (fun _ => .empty) .server [(.connection, .performWelcome)]

/-! ## Who says what to whom -/

/-- The messages one actor of a session may send another. -/
def speaks : ActorId → ActorId → Message → Bool
  | .server, .connection, .performWelcome => true
  | .main, .connection, .goodbyeConnection => true
  | .connection, .connection, .fromUserGetInput => true
  | .connection, .connection, .goodbyeConnection => true
  | .connection, .connection, .exit => true
  | .connection, .command, .performWelcome => true
  | .connection, .command, .onUserInput _ => true
  | .connection, .command, .exit => true
  | .command, .connection, .toUserEmit _ => true
  | .command, .connection, .toUserPrompt _ => true
  | .command, .loginController _, .loginControllerStart => true
  | .command, .loginController _, .onUserInput _ => true
  | .command, .loginController _, .exit => true
  | .command, .defaultController, .onUserInput _ => true
  | .command, .defaultController, .exit => true
  | .loginController _, .command, .toUserEmit _ => true
  | .loginController _, .command, .toUserPrompt _ => true
  | .loginController _, .command, .loginControllerEnd => true
  | .loginController _, .eventRecorder, .eventUserCreate _ _ => true
  | .defaultController, .command, .toUserEmit _ => true
  | .defaultController, .command, .toUserPrompt _ => true
  | _, _, _ => false

def isController : ActorId → Bool
  | .loginController _ => true
  | .defaultController => true
  | _ => false

theorem connection_speaks (connection : ConnectionActor) (socket : Socket) (message : Message) :
    ∀ sent ∈ (connection.receive socket message).sends, speaks .connection sent.1 sent.2 := by
  cases message with
  | fromUserGetInput =>
      simp only [ConnectionActor.receive, ConnectionActor.fromUserGetInput]
      split
      · split
        · split
          · simp [speaks]
          · simp [speaks]
        · split
          · simp [speaks]
          · split
            · simp [speaks]
            · simp [speaks]
      · simp [speaks]
  | performWelcome => exact List.forall_mem_singleton.mpr rfl
  | toUserPrompt prompt => exact List.forall_mem_singleton.mpr rfl
  | goodbyeConnection => simp [ConnectionActor.receive, ConnectionActor.goodbyeConnection, speaks]
  | _ => exact fun sent member => absurd member List.not_mem_nil

theorem login_speaks (sha256 : ByteString → ByteString) (login : LoginController)
    (draws : Security.Draws) (message : Message) (serial : Nat) :
    ∀ sent ∈ (login.receive sha256 draws message).2,
      speaks (.loginController serial) sent.1 sent.2 := by
  cases message with
  | onUserInput input =>
      simp only [LoginController.receive, LoginController.onUserInput]
      split
      · simp [UserClient.emitUser, UserClient.promptUser, speaks]
      · split
        · simp [UserClient.emitUser, UserClient.promptUser, speaks]
        · split
          · simp [UserClient.emitUser, LoginController.recordEventUserCreate,
              UserClient.endController, speaks]
          · simp [UserClient.emitUser, UserClient.promptUser, speaks]
  | loginControllerStart => exact List.forall_mem_singleton.mpr rfl
  | _ => exact fun sent member => absurd member List.not_mem_nil

theorem default_speaks (message : Message) :
    ∀ sent ∈ DefaultController.receive message, speaks .defaultController sent.1 sent.2 := by
  cases message with
  | onUserInput input =>
      simp only [DefaultController.receive]
      split
      · simp [DefaultController.emitHelp, UserClient.funkyBanner, UserClient.emitUser,
          UserClient.promptUser, speaks]
      · split
        · simp [UserClient.emitUser, UserClient.promptUser, speaks]
        · simp [UserClient.promptUser, speaks]
  | _ => exact fun sent member => absurd member List.not_mem_nil

theorem speaks_exit {controller : ActorId} (valid : isController controller = true) :
    speaks .command controller .exit = true := by
  cases controller with
  | loginController serial => rfl
  | defaultController => rfl
  | _ => cases valid

theorem speaks_input {controller : ActorId} (valid : isController controller = true)
    (input : ByteString) : speaks .command controller (.onUserInput input) = true := by
  cases controller with
  | loginController serial => rfl
  | defaultController => rfl
  | _ => cases valid

section

variable (command : CommandActor)
  (valid : ∀ controller ∈ command.activeController, isController controller = true)
include valid

theorem exitActive_speaks : ∀ sent ∈ command.exitActive, speaks .command sent.1 sent.2 := by
  intro sent member
  unfold CommandActor.exitActive at member
  cases active : command.activeController with
  | none => simp [active] at member
  | some controller =>
      obtain rfl : sent = (controller, .exit) := by simpa [active] using member
      exact speaks_exit (valid controller active)

theorem command_speaks (message : Message) :
    ∀ sent ∈ (command.receive message).2, speaks .command sent.1 sent.2 := by
  cases message with
  | onUserInput input =>
      cases active : command.activeController with
      | none => simp [CommandActor.receive, active, UserClient.promptUser, speaks]
      | some controller =>
          simpa [CommandActor.receive, active] using speaks_input (valid controller active) input
  | loginControllerEnd =>
      intro sent member
      rcases List.mem_append.mp member with ending | prompting
      · exact exitActive_speaks command valid sent ending
      · obtain rfl := List.mem_singleton.mp prompting
        rfl
  | performWelcome => exact List.forall_mem_singleton.mpr rfl
  | toUserPrompt prompt => exact List.forall_mem_singleton.mpr rfl
  | toUserEmit emission => exact List.forall_mem_singleton.mpr rfl
  | _ => exact fun sent member => absurd member List.not_mem_nil

theorem command_onExit_speaks :
    ∀ sent ∈ command.onExit, speaks .command sent.1 sent.2 := by
  intro sent member
  rcases List.mem_append.mp member with ending | last
  · exact exitActive_speaks command valid sent ending
  · obtain rfl := List.mem_singleton.mp last
    rfl

end

/-- Every turn of a session keeps to the table. -/
theorem react_speaks (sha256 : ByteString → ByteString) (state : SessionState)
    (valid : ∀ controller ∈ state.command.activeController, isController controller = true)
    (receiver : ActorId) (answers : Answers) (message : Message) :
    ∀ sent ∈ (state.react sha256 receiver answers message).2, speaks receiver sent.1 sent.2 := by
  unfold SessionState.react
  split
  · cases receiver with
    | connection => simp [SessionState.onExit, ConnectionActor.onExit, speaks]
    | command => exact command_onExit_speaks state.command valid
    | _ => simp [SessionState.onExit]
  · cases receiver with
    | connection => exact connection_speaks state.connection answers.socket message
    | command => exact command_speaks state.command valid message
    | loginController serial =>
        exact login_speaks sha256 (state.logins serial) answers.draws message serial
    | defaultController => exact default_speaks message
    | _ => simp [SessionState.receive]

end Pmud.System
