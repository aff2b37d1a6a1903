import Pmud.Net.Polls

/-! # A client that hangs up

At the end of the stream `recv` and `read` both return 0. `has_data` takes this
for a connection with nothing pending.
-/

namespace Pmud.Net

open CommStatic

/-- What every poll finds once the client has closed its side. -/
def endOfStream : Arrival := some (.of [])

/-- The lines that the reads of a chain complete, and what is pending after
them. A break changes neither, and the second of two in a row is the end. -/
def heard : (breaks : Nat) → (carry : ByteString) → List Arrival → List ByteString × ByteString
  | _, carry, [] => ([], carry)
  | breaks, carry, none :: rest => heard breaks carry rest
  | breaks, carry, some read :: rest =>
      if isBreak read.bytes then
        if breaks = 0 then heard 1 carry rest else ([], carry)
      else if newline ∉ scanned read.bytes then heard 0 (carry ++ scanned read.bytes) rest
      else
        let later := heard 0 [] rest
        (sanitize (carry ++ scanned read.bytes) :: later.1, later.2)

/-- What is still to arrive behind the second of two breaks in a row. -/
def brokenOff : (breaks : Nat) → List Arrival → Option (List Arrival)
  | _, [] => none
  | breaks, none :: rest => brokenOff breaks rest
  | breaks, some read :: rest =>
      if isBreak read.bytes then
        if breaks = 0 then brokenOff 1 rest else some rest
      else brokenOff 0 rest

def Readable (arrivals : List Arrival) : Prop :=
  ∀ arrival ∈ arrivals, ∀ read ∈ arrival, read.bytes ≠ []

instance (arrivals : List Arrival) : Decidable (Readable arrivals) :=
  inferInstanceAs (Decidable (∀ arrival ∈ arrivals, ∀ read ∈ arrival, read.bytes ≠ []))

theorem Readable.head {read : ReadBytes} {rest : List Arrival}
    (readable : Readable (some read :: rest)) : read.bytes ≠ [] :=
  readable (some read) List.mem_cons_self read rfl

theorem Readable.rest {arrival : Arrival} {rest : List Arrival}
    (readable : Readable (arrival :: rest)) : Readable rest :=
  fun item member => readable item (List.mem_cons_of_mem arrival member)

/-- The handler run that does not poll again. -/
def lastPoll : ConnectionActor → List Arrival → Option Reaction
  | _, [] => none
  | actor, arrival :: rest =>
      let reaction := actor.receive arrival.socket .fromUserGetInput
      if (.connection, .fromUserGetInput) ∈ reaction.sends then lastPoll reaction.actor rest
      else some reaction

/-- The chain of polls ends, with a goodbye, when the client hangs up after
these arrivals. -/
def EndsOnHangUp (actor : ConnectionActor) (arrivals : List Arrival) : Prop :=
  ∃ polls reaction,
    lastPoll actor (arrivals ++ List.replicate polls endOfStream) = some reaction ∧
      (.connection, .goodbyeConnection) ∈ reaction.sends

/-- The client has left before: a line that quits, or two breaks in a row. -/
def Leaves (breaks : Nat) (carry : ByteString) (arrivals : List Arrival) : Prop :=
  (∃ line ∈ (heard breaks carry arrivals).1, ConnectionActor.quitsOn line = true) ∨
    (brokenOff breaks arrivals).isSome

namespace ConnectionActor

theorem receive_endOfStream (actor : ConnectionActor) :
    (actor.receive endOfStream.socket .fromUserGetInput).actor = actor ∧
      (actor.receive endOfStream.socket .fromUserGetInput).sends =
        [(.connection, .fromUserGetInput)] := by
  simp [receive, fromUserGetInput, hasData, Arrival.socket, endOfStream, ReadBytes.of]

end ConnectionActor

theorem lastPoll_polls_again {actor : ConnectionActor} {arrival : Arrival} {rest : List Arrival}
    (again : (.connection, .fromUserGetInput) ∈
      (actor.receive arrival.socket .fromUserGetInput).sends) :
    lastPoll actor (arrival :: rest) =
      lastPoll (actor.receive arrival.socket .fromUserGetInput).actor rest :=
  if_pos again

theorem endsOnHangUp_polls_again {actor : ConnectionActor} {arrival : Arrival}
    {rest : List Arrival}
    (again : (.connection, .fromUserGetInput) ∈
      (actor.receive arrival.socket .fromUserGetInput).sends) :
    EndsOnHangUp actor (arrival :: rest) ↔
      EndsOnHangUp (actor.receive arrival.socket .fromUserGetInput).actor rest := by
  simp only [EndsOnHangUp, List.cons_append, lastPoll_polls_again again]

theorem endsOnHangUp_goodbye {actor : ConnectionActor} {arrival : Arrival} {rest : List Arrival}
    (goodbye : (actor.receive arrival.socket .fromUserGetInput).sends =
      [(.connection, .goodbyeConnection)]) : EndsOnHangUp actor (arrival :: rest) := by
  refine ⟨0, actor.receive arrival.socket .fromUserGetInput, ?_, by simp [goodbye]⟩
  rw [List.cons_append, lastPoll, if_neg (by simp [goodbye])]

/-- From the end of the stream on every poll leads to the next. -/
theorem lastPoll_endOfStream (actor : ConnectionActor) (polls : Nat) :
    lastPoll actor (List.replicate polls endOfStream) = none := by
  induction polls with
  | zero => rfl
  | succ polls induction =>
      have handled := actor.receive_endOfStream
      rw [List.replicate_succ, lastPoll_polls_again (by simp [handled.2]), handled.1]
      exact induction

theorem not_endsOnHangUp_nil (actor : ConnectionActor) : ¬ EndsOnHangUp actor [] := by
  intro ends
  rcases ends with ⟨polls, reaction, last, -⟩
  rw [List.nil_append, lastPoll_endOfStream] at last
  cases last

theorem endsOnHangUp_iff_leaves (actor : ConnectionActor) {arrivals : List Arrival}
    (readable : Readable arrivals) :
    EndsOnHangUp actor arrivals ↔ Leaves actor.breakCount actor.currentInput arrivals := by
  induction arrivals generalizing actor with
  | nil => simpa [Leaves, heard, brokenOff] using not_endsOnHangUp_nil actor
  | cons arrival rest induction =>
      cases arrival with
      | none =>
          have idle := actor.receive_idle
          rw [endsOnHangUp_polls_again (by simp [idle.2]), idle.1]
          exact induction actor readable.rest
      | some read =>
          have later := induction
            (actor.receive (Arrival.socket (some read)) .fromUserGetInput).actor readable.rest
          cases actor.receive_read read readable.head with
          | firstBreak broken first count pending sends =>
              rw [endsOnHangUp_polls_again (by simp [sends]), later, count, pending]
              simp [Leaves, heard, brokenOff, broken, first]
          | secondBreak broken second pending sends =>
              simp [endsOnHangUp_goodbye sends, Leaves, brokenOff, broken, second]
          | part text unterminated count pending sends =>
              rw [endsOnHangUp_polls_again (by simp [sends]), later, count, pending]
              simp [Leaves, heard, brokenOff, text, unterminated]
          | line text terminated stays count pending sends =>
              rw [endsOnHangUp_polls_again (by simp [sends]), later, count, pending]
              simp [Leaves, heard, brokenOff, text, terminated, stays]
          | quit text terminated quits sends =>
              simp [endsOnHangUp_goodbye sends, Leaves, heard, text, terminated, quits]

theorem endsOnHangUp_iff (id : Nat) (comm : CommStatic) {arrivals : List Arrival}
    (readable : Readable arrivals) :
    EndsOnHangUp (.create id comm) arrivals ↔ Leaves 0 [] arrivals :=
  endsOnHangUp_iff_leaves (.create id comm) readable

theorem endsOnHangUp_of_quit :
    EndsOnHangUp (.create 7 ⟨4, by decide⟩) [some (.of (text "quit\n"))] :=
  (endsOnHangUp_iff 7 ⟨4, by decide⟩ (by decide)).mpr (by
    left
    exact ⟨text "quit", by decide, by decide⟩)

/-- A client that connects and closes is polled for ever. -/
theorem not_endsOnHangUp_of_silence : ¬ EndsOnHangUp (.create 7 ⟨4, by decide⟩) [] :=
  not_endsOnHangUp_nil _

end Pmud.Net
