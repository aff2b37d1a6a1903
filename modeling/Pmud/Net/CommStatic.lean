import Pmud.Common.ByteString

/-! # `CommStatic`

The socket helper of `pnet/comm_static.h`. Every function records the system
calls it makes and reads the operating system's answers from a `Socket`.
-/

namespace Pmud.Net

/-- A system call on a descriptor. A `send` carries its answer: the number of
bytes accepted, or `none` for -1. -/
inductive SystemCall
  | send (descriptor : Int) (bytes : ByteString) (accepted : Option Nat)
  | recvPeek (descriptor : Int)
  | read (descriptor : Int)
  | close (descriptor : Int)
  deriving DecidableEq, Repr

def SystemCall.descriptor : SystemCall → Int
  | .send descriptor _ _ => descriptor
  | .recvPeek descriptor => descriptor
  | .read descriptor => descriptor
  | .close descriptor => descriptor

def bufferMaxRead : Nat := 512

def bufferPadding : Nat := 128

def bufferSize : Nat := bufferMaxRead + bufferPadding

/-- The bytes a successful `read` stores: it is asked for `bufferMaxRead`. -/
structure ReadBytes where
  bytes : ByteString
  bounded : bytes.length ≤ bufferMaxRead
  deriving DecidableEq

/-- What a `read` stores of the bytes that are pending. -/
def ReadBytes.of (pending : ByteString) : ReadBytes where
  bytes := pending.take bufferMaxRead
  bounded := List.length_take_le bufferMaxRead pending

/-- The operating system's answers to the calls of one handler, and the calls
made so far. A `send` beyond the listed answers fails. -/
structure Socket where
  sends : List (Option Nat)
  peeked : Int
  reading : Option ReadBytes
  calls : List SystemCall := []

def Socket.send (socket : Socket) (descriptor : Int) (bytes : ByteString) :
    Option Nat × Socket :=
  let accepted := socket.sends.head?.join
  (accepted, { socket with
    sends := socket.sends.tail
    calls := socket.calls ++ [.send descriptor bytes accepted] })

def Socket.call (socket : Socket) (systemCall : SystemCall) : Socket :=
  { socket with calls := socket.calls ++ [systemCall] }

/-- The constructor throws unless the descriptor is positive. -/
structure CommStatic where
  connection : Int
  valid : 0 < connection

/-- A piece of output: it reports success and short-circuits under `&&`. -/
abbrev Emission := Socket → Bool × Socket

/-- C++ `&&` on two emissions. -/
def Emission.andThen (first second : Emission) : Emission := fun socket =>
  match first socket with
  | (true, after) => second after
  | (false, after) => (false, after)

namespace CommStatic

def newline : UInt8 := 10

def newlineString : ByteString := [newline]

def cr : ByteString := [13]

def banner : List ByteString := [
  text "                           _ ",
  text "                          | |",
  text " _ __  _ __ ___  _   _  __| |",
  text "| '_ \\| '_ ` _ \\| | | |/ _` |",
  text "| |_) | | | | | | |_| | (_| |",
  text "| .__/|_| |_| |_|\\__,_|\\__,_|",
  text "| |",
  text "|_|"]

def emit (comm : CommStatic) (emission : ByteString) : Emission := fun socket =>
  if emission.length > 0 then
    let (bytesSent, after) := socket.send comm.connection emission
    (bytesSent.isSome, after)
  else
    (true, socket)

def emitPrompt (comm : CommStatic) (prompt : ByteString) : Emission :=
  comm.emit (prompt ++ text "> ")

def emitLine (comm : CommStatic) (emission : ByteString := []) : Emission :=
  ((comm.emit emission).andThen (comm.emit cr)).andThen (comm.emit newlineString)

/-- `emit(const vector<string>&)` -/
def emitLines (comm : CommStatic) : List ByteString → Emission
  | [], socket => (true, socket)
  | line :: rest, socket => (comm.emitLine line).andThen (comm.emitLines rest) socket

def emitBanner (comm : CommStatic) : Emission := comm.emitLines banner

def hasData (comm : CommStatic) (socket : Socket) : Bool × Socket :=
  (decide (socket.peeked > 0), socket.call (.recvPeek comm.connection))

/-- The scan of `lite_sanitize`: it stops at a NUL and after `remaining` bytes. -/
def liteSanitizeFrom : (remaining : Nat) → ByteString → ByteString
  | 0, _ => []
  | _, [] => []
  | remaining + 1, c :: rest =>
      if c = 0 then
        []
      else if 10 ≤ c ∧ c ≤ 127 then
        c :: liteSanitizeFrom remaining rest
      else
        liteSanitizeFrom remaining rest

/-- Preserves newline. -/
def liteSanitize (buffer : ByteString) : ByteString :=
  liteSanitizeFrom bufferMaxRead buffer

def sanitize (input : ByteString) : ByteString :=
  input.filter fun c => 32 ≤ c ∧ c ≤ 127

/-- The zeroed buffer after the read stored its bytes. -/
def filledBuffer (received : ByteString) : ByteString :=
  received ++ List.replicate (bufferSize - received.length) 0

/-- The byte count as the caller sees it, and the text that was read. -/
def readFromUser (comm : CommStatic) (socket : Socket) : (Int × ByteString) × Socket :=
  let received := (socket.reading.map ReadBytes.bytes).getD []
  let numRead : Int := (socket.reading.map fun read => (read.bytes.length : Int)).getD (-1)
  let buffer := filledBuffer received
  let after := socket.call (.read comm.connection)
  if buffer.headD 0 = 0xff ∨ (numRead = 1 ∧ buffer.headD 0 = 4) then
    ((0, []), after)
  else
    ((numRead, liteSanitize buffer), after)

end CommStatic

end Pmud.Net
