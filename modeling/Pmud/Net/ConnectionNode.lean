import Pmud.Foundation.Channel
import Pmud.Foundation.Transition
import Pmud.Net.ConnectionActor

/-! # A connection actor and its mailbox

The actor under every interleaving of the messages its peers may send it and
every answer of the operating system. Messages of one sender, exit messages
included, are handled in the order they were sent.
-/

namespace Pmud.Net

open Pmud.Foundation

structure ConnectionNode where
  actor : ConnectionActor
  mailbox : Mailbox ActorId Message
  /-- Every system call made so far, oldest first. -/
  calls : List SystemCall
  /-- Every message handled so far, oldest first. -/
  handled : List Message
  /-- The actor has erased its registry entry. -/
  erased : Bool
  terminated : Bool

inductive ConnectionEvent
  | arrive (sender : ActorId) (message : Message)
  | handle (sender : ActorId) (sends : List (Option Nat)) (peeked : Int)
      (reading : Option ReadBytes)

/-- What the other actors send to a connection actor. -/
def Admissible : ActorId → Message → Bool
  | .server, .performWelcome => true
  | .main, .goodbyeConnection => true
  | .command, .toUserEmit _ => true
  | .command, .toUserPrompt _ => true
  | _, _ => false

namespace ConnectionNode

/-- The node after the constructor: registered, greeted, nothing queued. -/
def spawn (id : Nat) (comm : CommStatic) (welcome : ByteString)
    (answers : List (Option Nat)) : ConnectionNode where
  actor := .create id comm
  mailbox := .empty
  calls := ((ConnectionActor.create id comm).greet welcome
    { sends := answers, peeked := -1, reading := none }).2.calls
  handled := []
  erased := false
  terminated := false

def deliver (node : ConnectionNode) (sender : ActorId) (message : Message) :
    ConnectionNode :=
  if node.terminated then node
  else { node with mailbox := node.mailbox.deliver sender [message] }

/-- Run the handler of a message; what the actor sends itself is queued behind
what it sent itself before. -/
def react (node : ConnectionNode) (mailbox : Mailbox ActorId Message) (socket : Socket)
    (message : Message) : ConnectionNode :=
  let reaction := node.actor.receive socket message
  { actor := reaction.actor
    mailbox := mailbox.deliver .connection (addressedTo reaction.sends .connection)
    calls := node.calls ++ reaction.socket.calls
    handled := node.handled ++ [message]
    erased := node.erased || reaction.erased
    terminated := false }

/-- Handling the exit message ends the actor. -/
def exit (node : ConnectionNode) (mailbox : Mailbox ActorId Message) : ConnectionNode :=
  { node with
    mailbox := mailbox
    handled := node.handled ++ [.exit]
    terminated := true }

def step : StepFunction ConnectionNode ConnectionEvent
  | node, .arrive sender message =>
      if Admissible sender message then some (node.deliver sender message) else none
  | node, .handle sender sends peeked reading =>
      if node.terminated then none
      else
        match node.mailbox.take? sender with
        | none => none
        | some (.exit, mailbox) => some (node.exit mailbox)
        | some (message, mailbox) =>
            some (node.react mailbox { sends := sends, peeked := peeked, reading := reading }
              message)

/-- Everything a step can do. -/
theorem step_cases {node next : ConnectionNode} {event : ConnectionEvent}
    (taken : step node event = some next) :
    (∃ sender message, event = .arrive sender message ∧ Admissible sender message = true ∧
      next = node.deliver sender message) ∨
    (∃ sender sends peeked reading mailbox, event = .handle sender sends peeked reading ∧
      node.terminated = false ∧ node.mailbox.take? sender = some (.exit, mailbox) ∧
      next = node.exit mailbox) ∨
    (∃ sender sends peeked reading message mailbox,
      event = .handle sender sends peeked reading ∧ message ≠ .exit ∧
      node.terminated = false ∧ node.mailbox.take? sender = some (message, mailbox) ∧
      next = node.react mailbox { sends := sends, peeked := peeked, reading := reading }
        message) := by
  cases event with
  | arrive sender message =>
      simp only [step, Option.ite_none_right_eq_some, Option.some.injEq] at taken
      exact .inl ⟨sender, message, rfl, taken.1, taken.2.symm⟩
  | handle sender sends peeked reading =>
      simp only [step] at taken
      split at taken
      · cases taken
      · rename_i alive
        have running : node.terminated = false := by simpa using alive
        split at taken
        · cases taken
        · rename_i mailbox took
          exact .inr (.inl ⟨sender, sends, peeked, reading, mailbox, rfl, running, took,
            (Option.some.inj taken).symm⟩)
        · rename_i message mailbox ordinary took
          exact .inr (.inr ⟨sender, sends, peeked, reading, message, mailbox, rfl,
            ordinary, running, took,
            (Option.some.inj taken).symm⟩)

end ConnectionNode

/-! ## What the handlers do to the descriptor -/

/-- The messages whose handlers use the descriptor. -/
def touchesDescriptor : Message → Bool
  | .toUserEmit _ => true
  | .toUserPrompt _ => true
  | .fromUserGetInput => true
  | .goodbyeConnection => true
  | _ => false

/-- The calls an emission appends, all of them sends on the descriptor. -/
def SendsOnly (descriptor : Int) (emission : Emission) : Prop :=
  ∀ socket, ∃ appended, (emission socket).2.calls = socket.calls ++ appended ∧
    ∀ call ∈ appended, ∃ bytes accepted, call = .send descriptor bytes accepted

namespace SendsOnly

variable {descriptor : Int} {first second : Emission}

theorem andThen (left : SendsOnly descriptor first) (right : SendsOnly descriptor second) :
    SendsOnly descriptor (first.andThen second) := by
  intro socket
  rcases left socket with ⟨firstCalls, firstEqual, firstSends⟩
  simp only [Emission.andThen]
  split
  · rename_i after continues
    rcases right after with ⟨secondCalls, secondEqual, secondSends⟩
    rw [continues] at firstEqual
    refine ⟨firstCalls ++ secondCalls, by rw [secondEqual, firstEqual, List.append_assoc], ?_⟩
    intro call member
    rcases List.mem_append.mp member with inFirst | inSecond
    · exact firstSends call inFirst
    · exact secondSends call inSecond
  · rename_i after stops
    rw [stops] at firstEqual
    exact ⟨firstCalls, firstEqual, firstSends⟩

theorem emit (comm : CommStatic) (emission : ByteString) :
    SendsOnly comm.connection (comm.emit emission) := by
  intro socket
  unfold CommStatic.emit
  split
  · exact ⟨[.send comm.connection emission socket.sends.head?.join], rfl,
      fun call member => ⟨_, _, List.mem_singleton.mp member⟩⟩
  · exact ⟨[], by simp, by simp⟩

theorem emitLine (comm : CommStatic) (emission : ByteString) :
    SendsOnly comm.connection (comm.emitLine emission) :=
  ((emit comm emission).andThen (emit comm _)).andThen (emit comm _)

theorem emitLines (comm : CommStatic) (lines : List ByteString) :
    SendsOnly comm.connection (comm.emitLines lines) := by
  induction lines with
  | nil => exact fun socket => ⟨[], by simp [CommStatic.emitLines], by simp⟩
  | cons line rest induction => exact (emitLine comm line).andThen induction

theorem greet (actor : ConnectionActor) (welcome : ByteString) :
    SendsOnly actor.connection (actor.greet welcome) :=
  ((((emitLines actor.comm _).andThen (emitLine actor.comm _)).andThen
    (emitLine actor.comm _)).andThen (emitLine actor.comm _)).andThen (emitLine actor.comm _)

end SendsOnly

end Pmud.Net
