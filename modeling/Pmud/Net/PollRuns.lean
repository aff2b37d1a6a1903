import Pmud.Net.ConnectionNode
import Pmud.Net.Polls

/-! # Runs and what their polls find

Every run of a connection actor, beside a record of what its polls find and of
the lines it passes on. Any number of polls may be queued at once, and one that
is queued in front of a goodbye still reads.
-/

namespace Pmud.Net

open Pmud.Foundation CommStatic

/-- The byte stream that arrived, whatever the cuts. -/
def streamOf (arrivals : List Arrival) : ByteString := arrivals.flatMap Arrival.bytes

/-- The `OnUserInput` payloads among the messages sent to the command actor. -/
def payloads (sends : Sends) : List ByteString :=
  (addressedTo sends .command).filterMap fun
    | .onUserInput input => some input
    | _ => none

/-! ## Gathering lines -/

/-- The lines that the polls complete, and what is pending after them. `carry`
is pending before them. -/
def gathered : ByteString → List Arrival → List ByteString × ByteString
  | carry, [] => ([], carry)
  | carry, arrival :: rest =>
      if newline ∉ textOf arrival then gathered (carry ++ textOf arrival) rest
      else
        let later := gathered [] rest
        (sanitize (carry ++ textOf arrival) :: later.1, later.2)

theorem gathered_append (carry : ByteString) (first later : List Arrival) :
    gathered carry (first ++ later) =
      ((gathered carry first).1 ++ (gathered (gathered carry first).2 later).1,
        (gathered (gathered carry first).2 later).2) := by
  induction first generalizing carry with
  | nil => rfl
  | cons arrival rest induction =>
      simp only [List.cons_append, gathered]
      split
      · exact induction _
      · rw [induction]
        rfl

/-- The lines that are passed on. -/
def passedOn (lines : List ByteString) : List ByteString :=
  lines.filter fun line => !ConnectionActor.quitsOn line

theorem passedOn_append (first later : List ByteString) :
    passedOn (first ++ later) = passedOn first ++ passedOn later :=
  List.filter_append ..

theorem gathered_none (carry : ByteString) : gathered carry [none] = ([], carry) := by
  simp [gathered, textOf]

/-- A handled poll gathers what it finds. -/
theorem ConnectionActor.receive_gathered (actor : ConnectionActor) (socket : Socket) :
    (actor.receive socket .fromUserGetInput).actor.currentInput =
        (gathered actor.currentInput [socket.found]).2 ∧
      payloads (actor.receive socket .fromUserGetInput).sends =
        passedOn (gathered actor.currentInput [socket.found]).1 := by
  by_cases ready : 0 < socket.peeked
  · have found : socket.found = socket.reading := if_pos ready
    have text := actor.comm.readFromUser_text (actor.comm.hasData socket).2
    have same : (actor.comm.hasData socket).2.reading = socket.reading := rfl
    have nothing : (actor.comm.readFromUser (actor.comm.hasData socket).2).1.1 = 0 →
        textOf socket.reading = [] := actor.comm.readFromUser_nothing
    have flag : (actor.comm.hasData socket).1 = true := decide_eq_true ready
    rw [same] at text
    rw [found]
    simp only [receive, fromUserGetInput, flag, if_true, text, gathered]
    split
    · next zero =>
      rw [nothing zero]
      split <;> simp [payloads, passedOn, addressedTo]
    · split
      · simp [payloads, passedOn, addressedTo]
      · split
        · next quits => simp [payloads, passedOn, addressedTo, quits]
        · next stays => simp [payloads, passedOn, addressedTo, stays]
  · have found : socket.found = none := if_neg ready
    have flag : (actor.comm.hasData socket).1 = false := decide_eq_false ready
    rw [found, gathered_none]
    simp [receive, fromUserGetInput, flag, payloads, passedOn, addressedTo]

/-! ## The record of a run -/

/-- What a step does as a poll. -/
structure Polled where
  found : Arrival
  passed : List ByteString

abbrev PollRun := ConnectionNode × List Polled

namespace PollRun

/-- What the poll finds that a step handles; nothing where the step handles no poll. -/
def finds (node : ConnectionNode) : ConnectionEvent → Arrival
  | .arrive _ _ => none
  | .handle sender sends peeked reading =>
      match node.mailbox.take? sender with
      | some (message, _) =>
          if message = .fromUserGetInput then
            Socket.found { sends := sends, peeked := peeked, reading := reading }
          else none
      | none => none

/-- The payloads that a step sends, whatever it handles. -/
def passes (node : ConnectionNode) : ConnectionEvent → List ByteString
  | .arrive _ _ => []
  | .handle sender sends peeked reading =>
      match node.mailbox.take? sender with
      | some (message, _) => payloads (node.actor.receive
          { sends := sends, peeked := peeked, reading := reading } message).sends
      | none => []

def step : StepFunction PollRun ConnectionEvent :=
  ConnectionNode.step.recording fun node event => [⟨finds node event, passes node event⟩]

def spawn (id : Nat) (comm : CommStatic) (welcome : ByteString)
    (answers : List (Option Nat)) : PollRun :=
  (.spawn id comm welcome answers, [])

def arrivals (run : PollRun) : List Arrival := run.2.map Polled.found

def passed (run : PollRun) : List ByteString := run.2.flatMap Polled.passed

def stream (run : PollRun) : ByteString := streamOf run.arrivals

def currentInput (run : PollRun) : ByteString := run.1.actor.currentInput

/-- Other messages leave the pending input alone and pass nothing on. -/
theorem receive_other (actor : ConnectionActor) (socket : Socket) {message : Message}
    (other : message ≠ .fromUserGetInput) :
    (actor.receive socket message).actor.currentInput = actor.currentInput ∧
      payloads (actor.receive socket message).sends = [] := by
  cases message <;> first | exact absurd rfl other | exact ⟨rfl, rfl⟩

variable {run next : PollRun} {event : ConnectionEvent}

theorem step_node (taken : step run event = some next) :
    next.currentInput = (gathered run.currentInput [finds run.1 event]).2 ∧
      passes run.1 event = passedOn (gathered run.currentInput [finds run.1 event]).1 := by
  rcases ConnectionNode.step.recording_eq_some.mp taken with ⟨moved, -⟩
  unfold currentInput
  rcases ConnectionNode.step_cases moved with
    ⟨sender, message, rfl, -, ends⟩ |
    ⟨sender, sends, peeked, reading, mailbox, rfl, -, took, ends⟩ |
    ⟨sender, sends, peeked, reading, message, mailbox, rfl, -, -, took, ends⟩
  · rw [ends, finds, passes, gathered_none]
    refine ⟨?_, rfl⟩
    unfold ConnectionNode.deliver
    split <;> rfl
  · have other : Message.exit ≠ .fromUserGetInput := by decide
    rw [ends]
    simp only [finds, passes, took, if_neg other, gathered_none]
    exact ⟨rfl, rfl⟩
  · rw [ends]
    simp only [finds, passes, took, ConnectionNode.react]
    by_cases poll : message = .fromUserGetInput
    · rw [poll]
      exact run.1.actor.receive_gathered _
    · rw [if_neg poll, gathered_none]
      exact receive_other run.1.actor _ poll

/-- Everything a step can do to the input of a run. -/
theorem step_gathers (taken : step run event = some next) :
    next.arrivals = run.arrivals ++ [finds run.1 event] ∧
      next.currentInput = (gathered run.currentInput [finds run.1 event]).2 ∧
      next.passed =
        run.passed ++ passedOn (gathered run.currentInput [finds run.1 event]).1 := by
  rcases ConnectionNode.step.recording_eq_some.mp taken with ⟨-, kept⟩
  rcases step_node taken with ⟨pending, sent⟩
  refine ⟨?_, pending, ?_⟩
  · simp [arrivals, kept]
  · simp [passed, kept, sent]

/-- In every run the actor has gathered what its polls have found. -/
theorem gathers (id : Nat) (comm : CommStatic) (welcome : ByteString)
    (answers : List (Option Nat)) {events : List ConnectionEvent} {final : PollRun}
    (reached : step.execute (spawn id comm welcome answers) events = some final) :
    final.currentInput = (gathered [] final.arrivals).2 ∧
      final.passed = passedOn (gathered [] final.arrivals).1 := by
  let Gathers := fun run : PollRun => run.currentInput = (gathered [] run.arrivals).2 ∧
    run.passed = passedOn (gathered [] run.arrivals).1
  have preserved : ∀ run event next, Gathers run → step run event = some next →
      Gathers next := by
    intro run event next holds taken
    rcases holds with ⟨pending, lines⟩
    rcases step_gathers taken with ⟨found, later, sent⟩
    simp only [Gathers, found, gathered_append, passedOn_append, ← pending, ← lines]
    exact ⟨later, sent⟩
  have start : Gathers (spawn id comm welcome answers) := ⟨rfl, rfl⟩
  exact (step.throughout_of_preserved preserved start events).final step reached

end PollRun

end Pmud.Net
