import Pmud.Common.GlobalTypeId

/-! # `UserClient`

The helpers of `controllers/user_client.h`. A user client talks to one actor,
its `m_connection_actor`: the connection for the command actor, the command
actor for the controllers.
-/

namespace Pmud.Controllers.UserClient

def defaultPrompt : ByteString := text "pmud"

def promptUser (connectionActor : ActorId) (prompt : ByteString := defaultPrompt) : Sends :=
  [(connectionActor, .toUserPrompt prompt)]

def emitUser (connectionActor : ActorId) (emission : ByteString := []) : Sends :=
  [(connectionActor, .toUserEmit emission)]

def endController (connectionActor : ActorId) : Sends :=
  [(connectionActor, .loginControllerEnd)]

def funkyBanner (connectionActor : ActorId) : Sends :=
  emitUser connectionActor (text "-=-=-=-=-=-=--=--==-==-=---=--=-==-==-=-=-=-===--=")

end Pmud.Controllers.UserClient
