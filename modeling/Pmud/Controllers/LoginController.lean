import Pmud.Common.PmudSecurity
import Pmud.Controllers.UserClient

/-! # `LoginController`

The handlers of `controllers/login_controller.h`, with the event recorder
client they use.
-/

namespace Pmud.Controllers

open UserClient Security

def suppressEchoSequence : ByteString := [0xFF, 0xFB, 0x01]

def enableEchoSequence : ByteString := [0xFF, 0xFC, 0x01]

structure LoginController where
  username : ByteString
  password : ByteString
  deriving DecidableEq, Repr

namespace LoginController

def create : LoginController where
  username := []
  password := []

/-- `EventRecorderClient::record_event_user_create` -/
def recordEventUserCreate (username passphrase : ByteString) : Sends :=
  [(.eventRecorder, .eventUserCreate username passphrase)]

/-- Overwrites the password with as many blanks. -/
def scrubPassword (password : ByteString) : ByteString :=
  List.replicate password.length 32

def hashAndScrubPassword (sha256 : ByteString → ByteString) (controller : LoginController)
    (draws : Draws) : CredentialHash × LoginController :=
  (hashCredentials sha256 controller.password (generateRandomSalt draws),
    { controller with password := scrubPassword controller.password })

/-- `[this](OnUserInput, string input)` -/
def onUserInput (sha256 : ByteString → ByteString) (controller : LoginController)
    (draws : Draws) (input : ByteString) : LoginController × Sends :=
  if controller.username = [] then
    ({ controller with username := input },
      emitUser .command suppressEchoSequence ++ promptUser .command (text "enter password"))
  else if controller.password = [] then
    ({ controller with password := input },
      emitUser .command ++ promptUser .command (text "confirm password"))
  else if controller.password = input then
    let (hash, scrubbed) := hashAndScrubPassword sha256 controller draws
    (scrubbed,
      emitUser .command enableEchoSequence ++ emitUser .command ++
        emitUser .command (text "Welcome to Primordia " ++ controller.username ++ text "!") ++
        emitUser .command ++ recordEventUserCreate controller.username hash.toBytes ++
        endController .command)
  else
    (controller,
      emitUser .command ++
        emitUser .command (text "Passwords don't match, please try again.") ++
        emitUser .command suppressEchoSequence ++ promptUser .command (text "enter password"))

def loginControllerStart : Sends := promptUser .command (text "enter username")

/-- `make_behavior`. A message without a handler is dropped. -/
def receive (sha256 : ByteString → ByteString) (controller : LoginController)
    (draws : Draws) : Message → LoginController × Sends
  | .loginControllerStart => (controller, loginControllerStart)
  | .onUserInput input => controller.onUserInput sha256 draws input
  | _ => (controller, [])

end LoginController

end Pmud.Controllers
