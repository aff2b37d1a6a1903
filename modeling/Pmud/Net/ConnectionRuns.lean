import Pmud.Net.ConnectionNode

/-! # Runs of a connection actor

Two properties of every interleaving: what happens to the descriptor after it
was closed, and how many polls are outstanding.
-/

namespace Pmud.Net

open Pmud.Foundation

/-! ## The calls of one handler -/

namespace ConnectionActor

@[simp] theorem receive_connection (actor : ConnectionActor) (socket : Socket)
    (message : Message) : (actor.receive socket message).actor.connection = actor.connection := by
  cases message with
  | fromUserGetInput =>
      simp only [receive, fromUserGetInput]
      repeat' split
      all_goals rfl
  | _ => rfl

end ConnectionActor

theorem CommStatic.emit_calls (comm : CommStatic) {emission : ByteString}
    (nonempty : emission ≠ []) (socket : Socket) :
    (comm.emit emission socket).2.calls =
      socket.calls ++ [.send comm.connection emission socket.sends.head?.join] := by
  have positive : 0 < emission.length := List.length_pos_iff.mpr nonempty
  simp [CommStatic.emit, Socket.send, positive]

/-- A line of output calls `send` at least once, be it for the line end. -/
theorem CommStatic.emitLine_calls_ne_nil (comm : CommStatic) (emission : ByteString)
    (socket : Socket) : (comm.emitLine emission socket).2.calls ≠ [] := by
  have grows (first second : Emission) (rest : SendsOnly comm.connection second)
      (spoken : (first socket).2.calls ≠ []) : (first.andThen second socket).2.calls ≠ [] := by
    simp only [Emission.andThen]
    split
    · rename_i after continues
      rcases rest after with ⟨appended, equal, -⟩
      rw [continues] at spoken
      simp [equal, spoken]
    · rename_i after stops
      simpa [stops] using spoken
  apply grows _ _ (SendsOnly.emit comm _)
  by_cases blank : emission = []
  · have first : comm.emit emission socket = (true, socket) := by simp [emit, blank]
    simp only [Emission.andThen, first]
    rw [comm.emit_calls (by decide)]
    simp
  · apply grows _ _ (SendsOnly.emit comm _)
    rw [comm.emit_calls blank]
    simp

theorem CommStatic.readFromUser_socket (comm : CommStatic) (socket : Socket) :
    (comm.readFromUser socket).2 = socket.call (.read comm.connection) := by
  simp only [CommStatic.readFromUser, apply_ite Prod.snd, ite_self]

theorem CommStatic.emitPrompt_calls (comm : CommStatic) (prompt : ByteString) (socket : Socket) :
    ∃ bytes accepted, (comm.emitPrompt prompt socket).2.calls =
      socket.calls ++ [.send comm.connection bytes accepted] := by
  refine ⟨_, _, comm.emit_calls ?_ socket⟩
  intro equal
  have marker := (List.append_eq_nil_iff.mp equal).2
  exact absurd marker (by decide)

/-- The calls of one handler run: none for a message that does not touch the
descriptor; otherwise some, all on the descriptor, and a close exactly at the
end of a goodbye. -/
structure HandlerCalls (descriptor : Int) (message : Message) (calls : List SystemCall) :
    Prop where
  idle : touchesDescriptor message = false → calls = []
  touching : touchesDescriptor message = true → calls ≠ []
  onDescriptor : ∀ call ∈ calls, call.descriptor = descriptor
  closing : .close descriptor ∈ calls ↔ message = .goodbyeConnection
  closingLast : calls.Pairwise fun earlier _ => earlier ≠ .close descriptor

theorem HandlerCalls.of_sends {descriptor : Int} {message : Message} {calls : List SystemCall}
    (touches : touchesDescriptor message = true) (stays : message ≠ .goodbyeConnection)
    (spoken : calls ≠ [])
    (sends : ∀ call ∈ calls, ∃ bytes accepted, call = .send descriptor bytes accepted) :
    HandlerCalls descriptor message calls where
  idle := fun idle => by rw [touches] at idle; cases idle
  touching := fun _ => spoken
  onDescriptor := fun call member => by
    rcases sends call member with ⟨bytes, accepted, rfl⟩
    rfl
  closing := by
    refine ⟨fun member => ?_, fun equal => absurd equal stays⟩
    rcases sends _ member with ⟨bytes, accepted, equal⟩
    cases equal
  closingLast := by
    apply List.pairwise_of_forall_mem_list
    intro earlier member _ _ same
    subst same
    rcases sends _ member with ⟨bytes, accepted, sent⟩
    cases sent

namespace ConnectionActor

theorem goodbyeConnection_calls (actor : ConnectionActor) {socket : Socket}
    (fresh : socket.calls = []) :
    HandlerCalls actor.connection .goodbyeConnection
      (actor.goodbyeConnection socket).socket.calls := by
  have opened : actor.connection ≠ -1 := by
    have valid := actor.valid
    omega
  have lineSends := SendsOnly.emitLine actor.comm []
  have farewellSends := SendsOnly.emitLine actor.comm (text "Goodbye!")
  rcases lineSends socket with ⟨first, firstEqual, firstSends⟩
  rcases farewellSends (actor.comm.emitLine [] socket).2 with ⟨second, secondEqual, secondSends⟩
  have calls : (actor.goodbyeConnection socket).socket.calls =
      (first ++ second) ++ [.close actor.connection] := by
    simp only [goodbyeConnection, opened, ne_eq, not_false_eq_true, if_true, Socket.call,
      secondEqual, firstEqual, fresh, List.nil_append]
  have sends : ∀ call ∈ first ++ second,
      ∃ bytes accepted, call = .send actor.connection bytes accepted := by
    intro call member
    rcases List.mem_append.mp member with inFirst | inSecond
    · exact firstSends call inFirst
    · exact secondSends call inSecond
  have notClose : ∀ call ∈ first ++ second, call ≠ .close actor.connection := by
    intro call member same
    subst same
    rcases sends _ member with ⟨bytes, accepted, equal⟩
    cases equal
  rw [calls]
  refine ⟨by simp [touchesDescriptor], by simp, ?_, by simp, ?_⟩
  · intro call member
    rcases List.mem_append.mp member with sent | closed
    · rcases sends call sent with ⟨bytes, accepted, rfl⟩
      rfl
    · rw [List.mem_singleton.mp closed]
      rfl
  · rw [List.pairwise_append]
    refine ⟨List.pairwise_of_forall_mem_list fun earlier member _ _ => notClose earlier member,
      List.pairwise_singleton _ _, fun earlier member _ _ => notClose earlier member⟩

/-- The handler peeks, and reads when there is something. -/
theorem fromUserGetInput_socket (actor : ConnectionActor) (socket : Socket) :
    (actor.fromUserGetInput socket).socket =
      let peeked := (actor.comm.hasData socket).2
      if (actor.comm.hasData socket).1 then (actor.comm.readFromUser peeked).2 else peeked := by
  simp only [fromUserGetInput, apply_ite Reaction.socket, ite_self]

theorem fromUserGetInput_calls (actor : ConnectionActor) {socket : Socket}
    (fresh : socket.calls = []) :
    HandlerCalls actor.connection .fromUserGetInput
      (actor.fromUserGetInput socket).socket.calls := by
  have peeked : (actor.comm.hasData socket).2.calls = [.recvPeek actor.connection] := by
    simp only [CommStatic.hasData, Socket.call, fresh, List.nil_append]
    rfl
  have calls : (actor.fromUserGetInput socket).socket.calls =
        [.recvPeek actor.connection] ∨
      (actor.fromUserGetInput socket).socket.calls =
        [.recvPeek actor.connection, .read actor.connection] := by
    rw [fromUserGetInput_socket]
    split
    · right
      rw [CommStatic.readFromUser_socket]
      simp only [Socket.call, peeked]
      rfl
    · exact .inl peeked
  rcases calls with peeked | read
  · rw [peeked]
    constructor <;> simp [touchesDescriptor, SystemCall.descriptor]
  · rw [read]
    constructor <;> simp [touchesDescriptor, SystemCall.descriptor]

theorem receive_calls (actor : ConnectionActor) {socket : Socket} (fresh : socket.calls = [])
    (message : Message) :
    HandlerCalls actor.connection message (actor.receive socket message).socket.calls := by
  cases message with
  | fromUserGetInput => exact actor.fromUserGetInput_calls fresh
  | goodbyeConnection => exact actor.goodbyeConnection_calls fresh
  | toUserEmit emission =>
      rcases SendsOnly.emitLine actor.comm emission socket with ⟨appended, equal, sends⟩
      have spoken := actor.comm.emitLine_calls_ne_nil emission socket
      rw [fresh, List.nil_append] at equal
      exact .of_sends rfl (by simp) spoken (equal ▸ sends)
  | toUserPrompt prompt =>
      rcases actor.comm.emitPrompt_calls prompt socket with ⟨bytes, accepted, equal⟩
      rw [fresh, List.nil_append] at equal
      refine .of_sends rfl (by simp) (by simp [receive, equal]) ?_
      intro call member
      simp only [receive, equal, List.mem_singleton] at member
      exact ⟨bytes, accepted, member⟩
  | _ =>
      simp only [receive, fresh]
      constructor <;> simp [touchesDescriptor]

end ConnectionActor

/-! ## Ownership of the descriptor -/

/-- No call on the descriptor number follows a close of it. -/
def DescriptorOwned (descriptor : Int) (calls : List SystemCall) : Prop :=
  calls.count (.close descriptor) ≤ 1 ∧
    calls.Pairwise fun earlier later =>
      earlier = .close descriptor → later.descriptor ≠ descriptor

instance (descriptor : Int) (calls : List SystemCall) :
    Decidable (DescriptorOwned descriptor calls) :=
  inferInstanceAs (Decidable (_ ∧ List.Pairwise _ _))

/-- Once a goodbye has been handled, no message that uses the descriptor is. -/
def QuietAfterGoodbye (handled : List Message) : Prop :=
  handled.Pairwise fun earlier later =>
    earlier = .goodbyeConnection → touchesDescriptor later = false

theorem descriptorOwned_iff_pairwise (descriptor : Int) (calls : List SystemCall) :
    DescriptorOwned descriptor calls ↔
      calls.Pairwise fun earlier later =>
        earlier = .close descriptor → later.descriptor ≠ descriptor := by
  refine ⟨And.right, fun ordered => ⟨?_, ordered⟩⟩
  by_contra more
  have twice : 2 ≤ calls.count (.close descriptor) := by omega
  have pair := ordered.sublist (List.replicate_sublist_iff.mpr twice)
  simp [List.replicate, SystemCall.descriptor] at pair

/-- What ties the calls of a node to the messages it handled. -/
structure CallsFollowMessages (descriptor : Int) (node : ConnectionNode) : Prop where
  connection : node.actor.connection = descriptor
  closed : .close descriptor ∈ node.calls ↔ .goodbyeConnection ∈ node.handled
  owned : DescriptorOwned descriptor node.calls ↔ QuietAfterGoodbye node.handled

namespace CallsFollowMessages

variable {descriptor : Int} {node : ConnectionNode}

theorem spawn (id : Nat) (comm : CommStatic) (welcome : ByteString)
    (answers : List (Option Nat)) :
    CallsFollowMessages comm.connection (.spawn id comm welcome answers) := by
  have greeting : ∀ call ∈ (ConnectionNode.spawn id comm welcome answers).calls,
      ∃ bytes accepted, call = .send comm.connection bytes accepted := by
    rcases SendsOnly.greet (.create id comm) welcome
      { sends := answers, peeked := -1, reading := none } with ⟨appended, equal, sends⟩
    intro call member
    exact sends call (by simpa [ConnectionNode.spawn, equal] using member)
  have notClose : .close comm.connection ∉
      (ConnectionNode.spawn id comm welcome answers).calls := by
    intro member
    rcases greeting _ member with ⟨bytes, accepted, equal⟩
    cases equal
  refine ⟨rfl, ⟨fun member => absurd member notClose, fun member => by cases member⟩, ?_⟩
  rw [descriptorOwned_iff_pairwise]
  refine ⟨fun _ => List.Pairwise.nil, fun _ => ?_⟩
  apply List.pairwise_of_forall_mem_list
  intro earlier member _ _ same
  subst same
  exact absurd member notClose

/-- Handling an ordinary message keeps the tie: a handler that uses the
descriptor after a goodbye breaks both sides at once. -/
theorem react (tied : CallsFollowMessages descriptor node)
    (mailbox : Mailbox ActorId Message) {socket : Socket} (fresh : socket.calls = [])
    (message : Message) :
    CallsFollowMessages descriptor (node.react mailbox socket message) := by
  have made := node.actor.receive_calls fresh message
  rw [tied.connection] at made
  have crossing :
      (∀ earlier ∈ node.calls, ∀ later ∈ (node.actor.receive socket message).socket.calls,
        earlier = .close descriptor → later.descriptor ≠ descriptor) ↔
      ∀ earlier ∈ node.handled, ∀ later ∈ [message],
        earlier = .goodbyeConnection → touchesDescriptor later = false := by
    constructor
    · intro disjoint earlier member later single goodbye
      rw [List.mem_singleton.mp single]
      by_contra touches
      rcases List.exists_mem_of_ne_nil _ (made.touching (by simpa using touches))
        with ⟨call, called⟩
      exact disjoint _ (tied.closed.mpr (goodbye ▸ member)) call called rfl
        (made.onDescriptor call called)
    · intro quiet earlier member later called closes
      have idle := quiet _ (tied.closed.mp (closes ▸ member)) message (by simp) rfl
      rw [made.idle idle] at called
      cases called
  refine ⟨by simpa [ConnectionNode.react] using tied.connection, ?_, ?_⟩
  · simp only [ConnectionNode.react, List.mem_append, List.mem_singleton]
    rw [tied.closed, made.closing]
    exact or_congr_right eq_comm
  · rw [descriptorOwned_iff_pairwise]
    simp only [ConnectionNode.react, QuietAfterGoodbye]
    rw [List.pairwise_append, List.pairwise_append, crossing]
    rw [← descriptorOwned_iff_pairwise, tied.owned]
    have closingLast : (node.actor.receive socket message).socket.calls.Pairwise
        fun earlier later => earlier = .close descriptor → later.descriptor ≠ descriptor :=
      made.closingLast.imp fun differs closes => absurd closes differs
    simp only [closingLast, List.pairwise_singleton, true_and]
    rfl

theorem step {next : ConnectionNode} {event : ConnectionEvent}
    (tied : CallsFollowMessages descriptor node)
    (taken : ConnectionNode.step node event = some next) :
    CallsFollowMessages descriptor next := by
  rcases ConnectionNode.step_cases taken with
    ⟨sender, message, -, -, rfl⟩ | ⟨sender, sends, peeked, reading, mailbox, -, -, -, rfl⟩ |
    ⟨sender, sends, peeked, reading, message, mailbox, -, -, -, -, rfl⟩
  · unfold ConnectionNode.deliver
    split
    · exact tied
    · exact ⟨tied.connection, tied.closed, tied.owned⟩
  · refine ⟨tied.connection, ?_, ?_⟩
    · simpa [ConnectionNode.exit] using tied.closed
    · simp only [ConnectionNode.exit, tied.owned, QuietAfterGoodbye]
      rw [List.pairwise_append]
      simp [touchesDescriptor]
  · exact tied.react mailbox rfl message

end CallsFollowMessages

/-- In every run the descriptor is closed at most once and not used afterwards,
if and only if nothing that uses it is handled after a goodbye. -/
theorem descriptorOwned_iff_quietAfterGoodbye (id : Nat) (comm : CommStatic)
    (welcome : ByteString) (answers : List (Option Nat)) (events : List ConnectionEvent)
    (final : ConnectionNode)
    (reached : ConnectionNode.step.execute (.spawn id comm welcome answers) events =
      some final) :
    DescriptorOwned comm.connection final.calls ↔ QuietAfterGoodbye final.handled := by
  have throughout : ConnectionNode.step.Throughout (CallsFollowMessages comm.connection)
      (.spawn id comm welcome answers) events :=
    ConnectionNode.step.throughout_of_preserved (fun _ _ _ tied taken => tied.step taken)
      (CallsFollowMessages.spawn id comm welcome answers) events
  exact (throughout.final ConnectionNode.step reached).owned

/-- A user quits with nothing else in flight. -/
def quietQuit : List ConnectionEvent := [
  .arrive .command (.toUserPrompt (text "pmud")),
  .handle .command [some 6] (-1) none,
  .handle .connection [] 5 (some (.of (text "quit\n"))),
  .handle .connection [some 1, some 1, some 8, some 1, some 1] (-1) none,
  .handle .connection [] (-1) none]

theorem descriptorOwned_of_quietQuit :
    ∃ final, ConnectionNode.step.execute (.spawn 7 ⟨4, by decide⟩ [] []) quietQuit =
        some final ∧ DescriptorOwned 4 final.calls := by
  have handled : (ConnectionNode.step.execute (.spawn 7 ⟨4, by decide⟩ [] [])
      quietQuit).map ConnectionNode.handled =
        some [.toUserPrompt (text "pmud"), .fromUserGetInput, .goodbyeConnection, .exit] := by
    decide
  rcases Option.map_eq_some_iff.mp handled with ⟨final, reached, equal⟩
  refine ⟨final, reached,
    (descriptorOwned_iff_quietAfterGoodbye 7 ⟨4, by decide⟩ [] [] _ _ reached).mpr ?_⟩
  rw [equal, QuietAfterGoodbye]
  decide

/-- The shutdown's goodbye overtakes a poll that is already queued: the poll
calls `recv` on the closed descriptor. -/
def goodbyeBeforePoll : List ConnectionEvent := [
  .arrive .server .performWelcome,
  .handle .server [] (-1) none,
  .arrive .command (.toUserPrompt (text "enter username")),
  .handle .command [some 16] (-1) none,
  .arrive .main .goodbyeConnection,
  .handle .main [some 1, some 1, some 8, some 1, some 1] (-1) none,
  .handle .connection [] (-1) none]

theorem not_descriptorOwned_of_goodbyeBeforePoll :
    ∃ final, ConnectionNode.step.execute (.spawn 7 ⟨4, by decide⟩ [] []) goodbyeBeforePoll =
        some final ∧ ¬ DescriptorOwned 4 final.calls := by
  have calls : (ConnectionNode.step.execute (.spawn 7 ⟨4, by decide⟩ [] [])
      goodbyeBeforePoll).map (fun node => decide (DescriptorOwned 4 node.calls)) =
        some false := by
    decide
  rcases Option.map_eq_some_iff.mp calls with ⟨final, reached, equal⟩
  exact ⟨final, reached, of_decide_eq_false equal⟩

/-! ## Outstanding polls -/

/-- The polls queued at the actor. An ended actor has no queue. -/
def outstandingPolls (node : ConnectionNode) : Nat :=
  if node.terminated then 0
  else (node.mailbox .connection).pending.count .fromUserGetInput

/-- Only the actor itself sends polls. -/
def PollsFromSelf (node : ConnectionNode) : Prop :=
  ∀ sender, sender ≠ .connection → .fromUserGetInput ∉ (node.mailbox sender).history

/-- A prompt is handled only when no poll is queued. -/
def PromptFindsNoPoll (node : ConnectionNode) : ConnectionEvent → Prop
  | .arrive _ _ => True
  | .handle sender _ _ _ => ∀ prompt mailbox,
      node.mailbox.take? sender = some (.toUserPrompt prompt, mailbox) →
        outstandingPolls node = 0

/-- How many polls a handler sends: one for a prompt, at most one for a poll. -/
theorem ConnectionActor.receive_polls (actor : ConnectionActor) (socket : Socket)
    (message : Message) :
    let polls :=
      (addressedTo (actor.receive socket message).sends .connection).count .fromUserGetInput
    ((∃ prompt, message = .toUserPrompt prompt) → polls = 1) ∧
      (message = .fromUserGetInput → polls ≤ 1) ∧
      ((∀ prompt, message ≠ .toUserPrompt prompt) → message ≠ .fromUserGetInput →
        polls = 0) := by
  cases message with
  | fromUserGetInput =>
      simp only [receive, fromUserGetInput]
      repeat' split
      all_goals simp [addressedTo]
  | _ => simp [receive, goodbyeConnection, addressedTo]

namespace ConnectionNode

theorem pending_of_take? {node : ConnectionNode} {sender : ActorId} {message : Message}
    {mailbox : Mailbox ActorId Message}
    (took : node.mailbox.take? sender = some (message, mailbox)) :
    (sender = .connection ∧
        (node.mailbox .connection).pending = message :: (mailbox .connection).pending) ∨
      (sender ≠ .connection ∧ mailbox .connection = node.mailbox .connection) := by
  have parts := Mailbox.take?_eq_some took
  by_cases own : sender = .connection
  · subst own
    exact .inl ⟨rfl, (Channel.take?_eq_some parts.1).1⟩
  · exact .inr ⟨own, parts.2 .connection fun equal => own equal.symm⟩

theorem outstandingPolls_react (node : ConnectionNode) (mailbox : Mailbox ActorId Message)
    (socket : Socket) (message : Message) :
    outstandingPolls (node.react mailbox socket message) =
      (mailbox .connection).pending.count .fromUserGetInput +
        (addressedTo (node.actor.receive socket message).sends .connection).count
          .fromUserGetInput := by
  simp [outstandingPolls, react]

end ConnectionNode

theorem PollsFromSelf.step {node next : ConnectionNode} {event : ConnectionEvent}
    (own : PollsFromSelf node) (taken : ConnectionNode.step node event = some next) :
    PollsFromSelf next := by
  intro other different
  rcases ConnectionNode.step_cases taken with
    ⟨sender, message, -, admissible, rfl⟩ |
    ⟨sender, sends, peeked, reading, mailbox, -, -, took, rfl⟩ |
    ⟨sender, sends, peeked, reading, message, mailbox, -, -, -, took, rfl⟩
  · unfold ConnectionNode.deliver
    split
    · exact own other different
    · by_cases same : other = sender
      · subst same
        have notPoll : message ≠ .fromUserGetInput := by
          intro same
          subst same
          cases other <;> simp [Admissible] at admissible
        simpa [notPoll.symm] using own other different
      · simpa [Mailbox.deliver_other _ _ same] using own other different
  · simpa [ConnectionNode.exit, Mailbox.history_of_take? took] using own other different
  · simpa [ConnectionNode.react, Mailbox.deliver_other _ _ different,
      Mailbox.history_of_take? took] using own other different

/-- One step of a guarded run keeps at most one poll outstanding. -/
theorem outstandingPolls_step {node next : ConnectionNode} {event : ConnectionEvent}
    (own : PollsFromSelf node) (single : outstandingPolls node ≤ 1)
    (permitted : PromptFindsNoPoll node event)
    (taken : ConnectionNode.step node event = some next) : outstandingPolls next ≤ 1 := by
  rcases ConnectionNode.step_cases taken with
    ⟨sender, message, -, admissible, rfl⟩ |
    ⟨sender, sends, peeked, reading, mailbox, -, -, -, rfl⟩ |
    ⟨sender, sends, peeked, reading, message, mailbox, rfl, -, running, took, rfl⟩
  · unfold ConnectionNode.deliver
    split
    · exact single
    · have otherChannel : .connection ≠ sender := by
        intro same
        subst same
        simp [Admissible] at admissible
      simpa [outstandingPolls, Mailbox.deliver_other _ _ otherChannel] using single
  · simp [outstandingPolls, ConnectionNode.exit]
  · rw [ConnectionNode.outstandingPolls_react]
    have sent := node.actor.receive_polls
      { sends := sends, peeked := peeked, reading := reading } message
    have free : (∃ prompt, message = .toUserPrompt prompt) →
        (node.mailbox .connection).pending.count .fromUserGetInput = 0 := by
      intro holds
      rcases holds with ⟨prompt, rfl⟩
      simpa [outstandingPolls, running] using permitted prompt mailbox took
    simp only [outstandingPolls, running, Bool.false_eq_true, if_false] at single
    rcases ConnectionNode.pending_of_take? took with ⟨rfl, pending⟩ | ⟨foreign, pending⟩
    · by_cases poll : message = .fromUserGetInput
      · have atMost := sent.2.1 poll
        rw [pending, poll, List.count_cons_self] at single
        omega
      · rw [pending, List.count_cons_of_ne poll] at single free
        by_cases prompt : ∃ prompt, message = .toUserPrompt prompt
        · have zero := free prompt
          have one := sent.1 prompt
          omega
        · have zero := sent.2.2 (fun text equal => prompt ⟨text, equal⟩) poll
          omega
    · have notPoll : message ≠ .fromUserGetInput := by
        intro same
        subst same
        exact own sender foreign (Channel.mem_history_of_take? (Mailbox.take?_eq_some took).1)
      rw [pending]
      by_cases prompt : ∃ prompt, message = .toUserPrompt prompt
      · have zero := free prompt
        have one := sent.1 prompt
        omega
      · have zero := sent.2.2 (fun text equal => prompt ⟨text, equal⟩) notPoll
        omega

/-- A prompt handled while a poll is queued leaves two. -/
theorem promptFindsNoPoll_of_step {node next : ConnectionNode} {event : ConnectionEvent}
    (taken : ConnectionNode.step node event = some next)
    (single : outstandingPolls next ≤ 1) : PromptFindsNoPoll node event := by
  cases event with
  | arrive sender message => trivial
  | handle sender sends peeked reading =>
      intro prompt mailbox took
      have running : node.terminated = false := by
        by_contra ended
        simp [ConnectionNode.step, ended] at taken
      have reacted : next = node.react mailbox
          { sends := sends, peeked := peeked, reading := reading } (.toUserPrompt prompt) := by
        simpa [ConnectionNode.step, running, took] using taken.symm
      rw [reacted, ConnectionNode.outstandingPolls_react] at single
      have one := (node.actor.receive_polls
        { sends := sends, peeked := peeked, reading := reading } (.toUserPrompt prompt)).1
          ⟨prompt, rfl⟩
      simp only [outstandingPolls, running, Bool.false_eq_true, if_false]
      rcases ConnectionNode.pending_of_take? took with ⟨-, pending⟩ | ⟨-, pending⟩
      · rw [pending, List.count_cons_of_ne (by simp)]
        omega
      · rw [← pending]
        omega

/-- In every run at most one poll is outstanding in every state, if and only if
every prompt is handled when none is. -/
theorem singlePoll_iff_promptFindsNoPoll (id : Nat) (comm : CommStatic)
    (welcome : ByteString) (answers : List (Option Nat)) (events : List ConnectionEvent) :
    ConnectionNode.step.Throughout (fun node => outstandingPolls node ≤ 1)
        (.spawn id comm welcome answers) events ↔
      ConnectionNode.step.Guarded PromptFindsNoPoll
        (.spawn id comm welcome answers) events := by
  constructor
  · exact StepFunction.Throughout.guarded ConnectionNode.step
      fun _ _ _ taken single => promptFindsNoPoll_of_step taken single
  · intro guarded
    have initial : PollsFromSelf (.spawn id comm welcome answers) ∧
        outstandingPolls (.spawn id comm welcome answers) ≤ 1 := by
      simp [PollsFromSelf, outstandingPolls, ConnectionNode.spawn]
    have together : ConnectionNode.step.Throughout
        (fun node => PollsFromSelf node ∧ outstandingPolls node ≤ 1)
        (.spawn id comm welcome answers) events :=
      StepFunction.Guarded.throughout ConnectionNode.step
        (fun _ _ _ holds permitted taken =>
          ⟨holds.1.step taken, outstandingPolls_step holds.1 holds.2 permitted taken⟩)
        initial guarded
    exact together.mono ConnectionNode.step fun _ holds => holds.2

/-- One prompt is answered: the poll that found the answer polls again, and so
does the next prompt. -/
def secondPrompt : List ConnectionEvent := [
  .arrive .command (.toUserPrompt (text "enter username")),
  .handle .command [some 16] (-1) none,
  .handle .connection [] 5 (some (.of (text "nick\n"))),
  .arrive .command (.toUserPrompt (text "enter password")),
  .handle .command [some 16] (-1) none]

theorem not_singlePoll_of_secondPrompt :
    ¬ ConnectionNode.step.Throughout (fun node => outstandingPolls node ≤ 1)
      (.spawn 7 ⟨4, by decide⟩ [] []) secondPrompt := by
  intro throughout
  have polls : (ConnectionNode.step.execute (.spawn 7 ⟨4, by decide⟩ [] [])
      secondPrompt).map outstandingPolls = some 2 := by
    decide
  rcases Option.map_eq_some_iff.mp polls with ⟨final, reached, two⟩
  have single := throughout.final ConnectionNode.step reached
  omega

end Pmud.Net
