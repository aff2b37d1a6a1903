import Pmud.Foundation.Channel
import Pmud.Foundation.Transition

/-! # Systems of actors

Actors with a common state take turns. A turn handles the oldest message of one
sender, or is a move an actor makes by itself; what it sends is queued behind
what the actor sent before. Nothing else orders the messages, so the runs are
all interleavings under first-in first-out delivery for each pair of actors.
-/

namespace Pmud.Foundation

/-- `Answer` is what the outside answers during a turn. -/
structure ActorSystem (Name Message State Answer Move : Type) where
  running : State → Name → Bool
  react : State → Name → Answer → Message → State × List (Name × Message)
  move : State → Move → Option (State × Name × List (Name × Message))

namespace ActorSystem

variable {Name Message State Answer Move : Type}

/-- A state with the mail underway. Mail for an actor that has stopped is never
taken. -/
structure Configuration (Name Message State : Type) where
  state : State
  mail : Name → Mailbox Name Message

inductive Event (Name Answer Move : Type)
  | handle (receiver sender : Name) (answer : Answer)
  | move (chosen : Move)

section

variable [DecidableEq Name]

/-- Queue what one actor sends. -/
def post (mail : Name → Mailbox Name Message) (sender : Name)
    (sends : List (Name × Message)) : Name → Mailbox Name Message := fun receiver =>
  (mail receiver).deliver sender (addressedTo sends receiver)

/-- Replace the mailbox of one actor. -/
def replaceMailbox (mail : Name → Mailbox Name Message) (receiver : Name)
    (mailbox : Mailbox Name Message) : Name → Mailbox Name Message := fun other =>
  if other = receiver then mailbox else mail other

def step (system : ActorSystem Name Message State Answer Move) :
    StepFunction (Configuration Name Message State) (Event Name Answer Move)
  | ⟨state, mail⟩, .handle receiver sender answer =>
      if system.running state receiver then
        ((mail receiver).take? sender).map fun (message, mailbox) =>
          let (next, sends) := system.react state receiver answer message
          ⟨next, post (replaceMailbox mail receiver mailbox) receiver sends⟩
      else
        none
  | ⟨state, mail⟩, .move chosen =>
      (system.move state chosen).map fun (next, sender, sends) =>
        ⟨next, post mail sender sends⟩

variable {system : ActorSystem Name Message State Answer Move}
  {config next : Configuration Name Message State}

/-- What `actor` sends in a turn is appended to what it sent before. -/
structure Turn (config next : Configuration Name Message State) (actor : Name)
    (sends : List (Name × Message)) : Prop where
  histories : ∀ receiver sender, (next.mail receiver sender).history =
    (config.mail receiver sender).history ++
      if sender = actor then addressedTo sends receiver else []

/-- `message` of `sender` is handled by `receiver`. -/
structure Handled (system : ActorSystem Name Message State Answer Move)
    (config next : Configuration Name Message State) (receiver sender : Name)
    (answer : Answer) (message : Message) : Prop where
  running : system.running config.state receiver = true
  state : next.state = (system.react config.state receiver answer message).1
  turn : Turn config next receiver (system.react config.state receiver answer message).2
  waited : (config.mail receiver sender).pending.head? = some message
  received : (next.mail receiver sender).received =
    (config.mail receiver sender).received ++ [message]
  elsewhere : ∀ other source, ¬ (other = receiver ∧ source = sender) →
    (next.mail other source).received = (config.mail other source).received

/-- `actor` makes a move by itself. -/
structure Moved (system : ActorSystem Name Message State Answer Move)
    (config next : Configuration Name Message State) (chosen : Move) (actor : Name)
    (sends : List (Name × Message)) : Prop where
  moved : system.move config.state chosen = some (next.state, actor, sends)
  turn : Turn config next actor sends
  received : ∀ receiver sender,
    (next.mail receiver sender).received = (config.mail receiver sender).received

theorem history_post (mail : Name → Mailbox Name Message) (actor : Name)
    (sends : List (Name × Message)) (receiver sender : Name) :
    (post mail actor sends receiver sender).history = (mail receiver sender).history ++
      if sender = actor then addressedTo sends receiver else [] := by
  by_cases own : sender = actor
  · subst own
    simp [post]
  · simp [post, Mailbox.deliver_other _ _ own, own]

theorem received_post (mail : Name → Mailbox Name Message) (actor : Name)
    (sends : List (Name × Message)) (receiver sender : Name) :
    (post mail actor sends receiver sender).received = (mail receiver sender).received := by
  by_cases own : sender = actor
  · subst own
    simp [post]
  · simp [post, Mailbox.deliver_other _ _ own]

/-- The first sends, as a turn on a configuration without mail. -/
theorem Turn.opening (state : State) (actor : Name) (sends : List (Name × Message)) :
    Turn ⟨state, fun _ => .empty⟩ ⟨state, post (fun _ => .empty) actor sends⟩ actor sends :=
  ⟨fun receiver sender => history_post _ actor sends receiver sender⟩

theorem history_replaceMailbox {mail : Name → Mailbox Name Message} {receiver : Name}
    {mailbox : Mailbox Name Message}
    (kept : ∀ sender, (mailbox sender).history = (mail receiver sender).history)
    (other sender : Name) :
    (replaceMailbox mail receiver mailbox other sender).history =
      (mail other sender).history := by
  unfold replaceMailbox
  split
  · rename_i same
    rw [same, kept]
  · rfl

/-- Everything a step can do. -/
theorem step_cases {event : Event Name Answer Move}
    (taken : system.step config event = some next) :
    (∃ receiver sender answer message, event = .handle receiver sender answer ∧
      Handled system config next receiver sender answer message) ∨
    (∃ chosen actor sends, event = .move chosen ∧
      Moved system config next chosen actor sends) := by
  cases event with
  | handle receiver sender answer =>
      left
      simp only [step, Option.ite_none_right_eq_some, Option.map_eq_some_iff] at taken
      rcases taken with ⟨running, ⟨message, mailbox⟩, took, rfl⟩
      have parts := Mailbox.take?_eq_some took
      have moved := Channel.take?_eq_some parts.1
      refine ⟨receiver, sender, answer, message, rfl, running, rfl, ⟨fun other source => ?_⟩,
        by rw [moved.1]; rfl, ?_, fun other source apart => ?_⟩
      · rw [history_post, history_replaceMailbox (Mailbox.history_of_take? took)]
      · rw [received_post, replaceMailbox, if_pos rfl, moved.2.1]
      · rw [received_post]
        by_cases same : other = receiver
        · subst same
          have different : source ≠ sender := fun equal => apart ⟨rfl, equal⟩
          have untouched : mailbox source = config.mail other source :=
            parts.2 source different
          simp only [replaceMailbox, if_true, untouched]
        · rw [replaceMailbox, if_neg same]
  | move chosen =>
      right
      rcases Option.map_eq_some_iff.mp taken with ⟨⟨state, actor, sends⟩, moved, rfl⟩
      refine ⟨chosen, actor, sends, rfl, moved, ⟨fun receiver sender => ?_⟩,
        fun receiver sender => ?_⟩
      · exact history_post config.mail actor sends receiver sender
      · exact received_post config.mail actor sends receiver sender

/-! ## Rules for invariants of the mail -/

/-- What was sent stays sent. -/
theorem history_mono {event : Event Name Answer Move}
    (taken : system.step config event = some next) {receiver sender : Name} {message : Message}
    (sent : message ∈ (config.mail receiver sender).history) :
    message ∈ (next.mail receiver sender).history := by
  rcases step_cases taken with ⟨actor, _, _, _, -, handled⟩ | ⟨_, actor, _, -, moved⟩
  · rw [handled.turn.histories]
    exact List.mem_append_left _ sent
  · rw [moved.turn.histories]
    exact List.mem_append_left _ sent

/-- What was received stays received. -/
theorem received_mono {event : Event Name Answer Move}
    (taken : system.step config event = some next) {receiver sender : Name} {message : Message}
    (received : message ∈ (config.mail receiver sender).received) :
    message ∈ (next.mail receiver sender).received := by
  rcases step_cases taken with ⟨actor, source, _, _, -, handled⟩ | ⟨_, actor, _, -, moved⟩
  · by_cases here : receiver = actor ∧ sender = source
    · rcases here with ⟨rfl, rfl⟩
      rw [handled.received]
      exact List.mem_append_left _ received
    · rwa [handled.elsewhere _ _ here]
  · rwa [moved.received]

/-- Every message ever sent is one that its sender may send to its receiver. -/
def Conforms (protocol : Name → Name → Message → Prop)
    (config : Configuration Name Message State) : Prop :=
  ∀ receiver sender, ∀ message ∈ (config.mail receiver sender).history,
    protocol sender receiver message

theorem Conforms.turn {protocol : Name → Name → Message → Prop} {actor : Name}
    {sends : List (Name × Message)} (conforms : Conforms protocol config)
    (turn : Turn config next actor sends)
    (speaks : ∀ sent ∈ sends, protocol actor sent.1 sent.2) : Conforms protocol next := by
  intro receiver sender message member
  rw [turn.histories, List.mem_append] at member
  rcases member with before | now
  · exact conforms receiver sender message before
  · split at now
    · rename_i own
      rw [own]
      exact speaks (receiver, message) (mem_addressedTo.mp now)
    · cases now

theorem Turn.mem_history {actor : Name} {sends : List (Name × Message)}
    (turn : Turn config next actor sends) {receiver sender : Name} {message : Message} :
    message ∈ (next.mail receiver sender).history ↔
      message ∈ (config.mail receiver sender).history ∨
        sender = actor ∧ (receiver, message) ∈ sends := by
  rw [turn.histories, List.mem_append]
  by_cases own : sender = actor
  · simp [own, mem_addressedTo]
  · simp [own]

/-- A message that is handled was sent. -/
theorem Handled.mem_history {receiver sender : Name} {answer : Answer} {message : Message}
    (handled : Handled system config next receiver sender answer message) :
    message ∈ (config.mail receiver sender).history :=
  Channel.mem_history_of_mem_pending (List.mem_of_mem_head? handled.waited)

/-- What was not received yet is still waiting, before what the turn adds. -/
theorem Turn.pending {actor : Name} {sends : List (Name × Message)}
    (turn : Turn config next actor sends) {receiver sender : Name}
    (received : (next.mail receiver sender).received = (config.mail receiver sender).received) :
    (next.mail receiver sender).pending = (config.mail receiver sender).pending ++
      if sender = actor then addressedTo sends receiver else [] := by
  have whole := turn.histories receiver sender
  rw [← Channel.received_append_pending, ← Channel.received_append_pending, received,
    List.append_assoc] at whole
  exact List.append_cancel_left whole

/-- The message handled was the first to wait. -/
theorem Handled.pending {receiver sender : Name} {answer : Answer} {message : Message}
    (handled : Handled system config next receiver sender answer message) :
    ∃ rest, (config.mail receiver sender).pending = message :: rest ∧
      (next.mail receiver sender).pending = rest ++
        if sender = receiver then
          addressedTo (system.react config.state receiver answer message).2 receiver
        else [] := by
  rcases List.head?_eq_some_iff.mp handled.waited with ⟨rest, waiting⟩
  refine ⟨rest, waiting, ?_⟩
  have whole := handled.turn.histories receiver sender
  rw [← Channel.received_append_pending, ← Channel.received_append_pending, handled.received,
    waiting, List.append_assoc, List.append_assoc, List.append_cancel_left_eq] at whole
  simpa using whole

/-- Mail that the turn does not add to. -/
theorem Turn.history_of_silent {actor : Name} {sends : List (Name × Message)}
    (turn : Turn config next actor sends) {receiver sender : Name}
    (silent : sender = actor → ∀ message, (receiver, message) ∉ sends) :
    (next.mail receiver sender).history = (config.mail receiver sender).history := by
  rw [turn.histories]
  split
  · rename_i own
    have nothing : addressedTo sends receiver = [] :=
      List.eq_nil_iff_forall_not_mem.mpr fun message member =>
        silent own message (mem_addressedTo.mp member)
    rw [nothing, List.append_nil]
  · rw [List.append_nil]

variable [DecidableEq Message]

theorem Turn.count_history {actor : Name} {sends : List (Name × Message)}
    (turn : Turn config next actor sends) (receiver sender : Name) (message : Message) :
    (next.mail receiver sender).history.count message =
      (config.mail receiver sender).history.count message +
        if sender = actor then sends.count (receiver, message) else 0 := by
  rw [turn.histories, List.count_append]
  split
  · rw [count_addressedTo]
  · rfl

/-- The message handled had not been received as often as it was sent. -/
theorem Handled.count_received {receiver sender : Name} {answer : Answer} {message : Message}
    (handled : Handled system config next receiver sender answer message) :
    (config.mail receiver sender).received.count message <
      (config.mail receiver sender).history.count message := by
  have waiting := List.count_pos_iff.mpr (List.mem_of_mem_head? handled.waited)
  rw [← Channel.received_append_pending, List.count_append]
  omega

/-- Where a content comes from one sender only, the mail of that sender tells
how often it was handled. -/
theorem Handled.count_of_source {receiver sender : Name} {answer : Answer} {message : Message}
    (handled : Handled system config next receiver sender answer message)
    {source : Name} {content : Message} (sole : message = content → sender = source) :
    (next.mail receiver source).received.count content =
      (config.mail receiver source).received.count content +
        if message = content then 1 else 0 := by
  by_cases own : sender = source
  · rw [← own, handled.received, List.count_append, List.count_singleton]
    simp
  · rw [handled.elsewhere receiver source fun same => own same.2.symm,
      if_neg fun equal => own (sole equal), Nat.add_zero]

end

end ActorSystem

end Pmud.Foundation
