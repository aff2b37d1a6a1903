import Pmud.Common.ByteString

/-! # Credentials

`common/pmud_security.h`. The SHA-256 of the vendored hash library is a
parameter; the random device is the list of draws it makes.
-/

namespace Pmud.Security

/-- The eight draws of `uniform_int_distribution<uint16_t>(0, 15)` behind one salt. -/
abbrev Draws := Fin 8 → Fin 16

structure CredentialHash where
  iterations : Nat
  salt : ByteString
  hash : ByteString
  deriving DecidableEq

def CredentialHash.toBytes (credential : CredentialHash) : ByteString :=
  text (toString credential.iterations) ++ text ":" ++ credential.salt ++ text ":" ++
    credential.hash

def hexDigit (value : Fin 16) : UInt8 :=
  (text "0123456789ABCDEF").getD value.val 0

def generateRandomSalt (draws : Draws) : ByteString :=
  List.ofFn fun index => hexDigit (draws index)

def hashCredentials (sha256 : ByteString → ByteString) (passphrase salt : ByteString) :
    CredentialHash where
  iterations := 0
  salt := salt
  hash := sha256 (passphrase ++ text ":" ++ salt)

/-- SHA-256 as the library prints it, on some messages salted by `zeroDraws`. -/
def sampleSha256 (message : ByteString) : ByteString :=
  if message = text "p:00000000" then
    text "2130565df96de7db848d8c46ca49715518c8c559c9028f9edcf827e98fca22d0"
  else if message = text " :00000000" then
    text "1f2430c5f21cb031680c580927133281db0a49e63ca785333d8a26dc6f063677"
  else if message = text "a:00000000" then
    text "e11f5ce323d4ba65b6c7f9f2b6d44b27861ea40d930414a5f79778ebe8955009"
  else if message = text "b:00000000" then
    text "2c4090cbb444943a42c2773f3320e60168e283c82693961210759855c566df6b"
  else
    []

def zeroDraws : Draws := fun _ => 0

example : generateRandomSalt zeroDraws = text "00000000" := by decide

end Pmud.Security
