import Pmud.Common.ByteString

/-! # Messages

The atoms of `common/global_type_id.h` that travel between main, the server and
the actors of a session, with the payloads they are sent with, and the roles
that send them.
-/

namespace Pmud

/-- The actors around one connection. A command actor can spawn several login
controllers, so these carry the serial number of their spawn. -/
inductive ActorId
  | main
  | server
  | connection
  | command
  | loginController (serial : Nat)
  | defaultController
  | eventRecorder
  deriving DecidableEq, Repr

inductive Message
  | performWelcome
  | toUserEmit (emission : ByteString)
  | toUserPrompt (prompt : ByteString)
  | fromUserGetInput
  | goodbyeConnection
  | onUserInput (input : ByteString)
  | loginControllerStart
  | loginControllerEnd
  | eventUserCreate (username passphrase : ByteString)
  | startServer
  | acceptConnection
  | goodbyeServer
  /-- The responses to `StartServer` and `GoodbyeServer`. -/
  | serverStarted (status : Int)
  | serverStopped (status : Bool)
  /-- The exit message of `send_exit` with `exit_reason::user_shutdown`. -/
  | exit
  deriving DecidableEq, Repr

/-- What a handler hands to the runtime: receiver and message, in send order. -/
abbrev Sends := List (ActorId × Message)

instance : LawfulBEq (ActorId × Message) := inferInstance

end Pmud
