import Mathlib.Data.List.Basic

/-! # First-in first-out channels

A channel remembers everything that was ever sent on it and how much of that
has been taken. Order, absence of loss and absence of duplication are then
properties of the representation.
-/

namespace Pmud.Foundation

section

variable {Name Message : Type} [DecidableEq Name]

/-- The messages among `sends` that go to one receiver, in order. -/
def addressedTo (sends : List (Name × Message)) (receiver : Name) : List Message :=
  (sends.filter fun sent => sent.1 = receiver).map Prod.snd

@[simp] theorem addressedTo_nil (receiver : Name) :
    addressedTo ([] : List (Name × Message)) receiver = [] := rfl

theorem mem_addressedTo {sends : List (Name × Message)} {receiver : Name} {message : Message} :
    message ∈ addressedTo sends receiver ↔ (receiver, message) ∈ sends := by
  simp [addressedTo]

theorem count_addressedTo [DecidableEq Message] (sends : List (Name × Message))
    (receiver : Name) (message : Message) :
    (addressedTo sends receiver).count message = sends.count (receiver, message) := by
  induction sends with
  | nil => rfl
  | cons sent rest induction =>
      rcases sent with ⟨name, content⟩
      rw [List.count_cons, ← induction]
      by_cases addressed : name = receiver
      · simp [addressedTo, addressed, List.count_cons]
      · simp [addressedTo, addressed]

end

/-- A channel from one sender to one receiver. -/
structure Channel (Message : Type) where
  history : List Message
  taken : Nat
  taken_le : taken ≤ history.length

namespace Channel

variable {Message : Type}

def empty : Channel Message where
  history := []
  taken := 0
  taken_le := Nat.le_refl 0

/-- What was sent and not yet taken, oldest first. -/
def pending (channel : Channel Message) : List Message :=
  channel.history.drop channel.taken

/-- What the receiver has taken, oldest first. -/
def received (channel : Channel Message) : List Message :=
  channel.history.take channel.taken

def send (channel : Channel Message) (messages : List Message) : Channel Message where
  history := channel.history ++ messages
  taken := channel.taken
  taken_le := by
    have bound := channel.taken_le
    simp only [List.length_append]
    omega

/-- Take the oldest pending message. -/
def take? (channel : Channel Message) : Option (Message × Channel Message) :=
  if available : channel.taken < channel.history.length then
    some (channel.history[channel.taken],
      { channel with taken := channel.taken + 1, taken_le := available })
  else
    none

@[simp] theorem history_empty : (empty : Channel Message).history = [] := rfl

@[simp] theorem pending_empty : (empty : Channel Message).pending = [] := rfl

@[simp] theorem received_empty : (empty : Channel Message).received = [] := rfl

@[simp] theorem history_send (channel : Channel Message) (messages : List Message) :
    (channel.send messages).history = channel.history ++ messages := rfl

@[simp] theorem pending_send (channel : Channel Message) (messages : List Message) :
    (channel.send messages).pending = channel.pending ++ messages :=
  List.drop_append_of_le_length channel.taken_le

@[simp] theorem received_send (channel : Channel Message) (messages : List Message) :
    (channel.send messages).received = channel.received :=
  List.take_append_of_le_length channel.taken_le

@[simp] theorem send_nil (channel : Channel Message) : channel.send [] = channel := by
  cases channel
  simp [send]

/-- Nothing is lost, reordered or repeated. -/
theorem received_append_pending (channel : Channel Message) :
    channel.received ++ channel.pending = channel.history :=
  List.take_append_drop channel.taken channel.history

/-- Everything a take does: the message was the oldest pending one, it moves to
the received side, and the history stays. -/
theorem take?_eq_some {channel next : Channel Message} {message : Message}
    (took : channel.take? = some (message, next)) :
    channel.pending = message :: next.pending ∧
      next.received = channel.received ++ [message] ∧
      next.history = channel.history := by
  unfold take? at took
  split at took
  · rename_i available
    simp only [Option.some.injEq, Prod.mk.injEq] at took
    rcases took with ⟨rfl, rfl⟩
    refine ⟨?_, ?_, rfl⟩
    · exact List.drop_eq_getElem_cons available
    · simp [received, List.take_append_getElem available]
  · cases took

theorem mem_pending_of_take? {channel next : Channel Message} {message : Message}
    (took : channel.take? = some (message, next)) : message ∈ channel.pending := by
  rw [(take?_eq_some took).1]
  exact List.mem_cons_self

theorem mem_history_of_mem_pending {channel : Channel Message} {message : Message}
    (member : message ∈ channel.pending) : message ∈ channel.history :=
  List.mem_of_mem_drop member

theorem mem_history_of_take? {channel next : Channel Message} {message : Message}
    (took : channel.take? = some (message, next)) : message ∈ channel.history :=
  mem_history_of_mem_pending (mem_pending_of_take? took)

end Channel

/-- The mailbox of one receiver: a channel for every sender, so that messages
of one sender keep their order and messages of different senders do not. -/
abbrev Mailbox (Sender Message : Type) := Sender → Channel Message

namespace Mailbox

variable {Sender Message : Type}

def empty : Mailbox Sender Message := fun _ => .empty

@[simp] theorem empty_apply (sender : Sender) :
    (empty : Mailbox Sender Message) sender = .empty := rfl

variable [DecidableEq Sender]

def deliver (mailbox : Mailbox Sender Message) (sender : Sender)
    (messages : List Message) : Mailbox Sender Message := fun other =>
  if other = sender then (mailbox other).send messages else mailbox other

/-- Take the oldest message of one sender. -/
def take? (mailbox : Mailbox Sender Message) (sender : Sender) :
    Option (Message × Mailbox Sender Message) :=
  (mailbox sender).take?.map fun took =>
    (took.1, fun other => if other = sender then took.2 else mailbox other)

@[simp] theorem deliver_same (mailbox : Mailbox Sender Message) (sender : Sender)
    (messages : List Message) :
    mailbox.deliver sender messages sender = (mailbox sender).send messages := by
  simp [deliver]

theorem deliver_other (mailbox : Mailbox Sender Message) {sender other : Sender}
    (messages : List Message) (different : other ≠ sender) :
    mailbox.deliver sender messages other = mailbox other := by
  simp [deliver, different]

/-- Everything a take does, per sender. -/
theorem take?_eq_some {mailbox next : Mailbox Sender Message} {sender : Sender}
    {message : Message} (took : mailbox.take? sender = some (message, next)) :
    (mailbox sender).take? = some (message, next sender) ∧
      ∀ other, other ≠ sender → next other = mailbox other := by
  unfold take? at took
  rcases Option.map_eq_some_iff.mp took with ⟨⟨head, rest⟩, found, equal⟩
  simp only [Prod.mk.injEq] at equal
  rcases equal with ⟨rfl, rfl⟩
  refine ⟨by simpa using found, fun other different => ?_⟩
  simp [different]

theorem history_of_take? {mailbox next : Mailbox Sender Message} {sender : Sender}
    {message : Message} (took : mailbox.take? sender = some (message, next))
    (other : Sender) : (next other).history = (mailbox other).history := by
  have parts := take?_eq_some took
  by_cases same : other = sender
  · subst same
    exact (Channel.take?_eq_some parts.1).2.2
  · rw [parts.2 other same]

end Mailbox

end Pmud.Foundation
