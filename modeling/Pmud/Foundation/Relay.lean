import Pmud.Foundation.ActorSystem

/-! # Relays and consumers

An actor that sends on what it gets, whoever sent it, and an actor that takes
messages into a part of the state that nobody else changes. What the second
one takes from the first is a merge of what was sent to the first: nothing is
lost or repeated, and what one sender sent keeps its order. Mail that is
underway can always be handled, by actors that send nothing to themselves.
-/

namespace Pmud.Foundation

section

variable {Name Message : Type} [DecidableEq Name]

theorem addressedTo_append (first later : List (Name × Message)) (name : Name) :
    addressedTo (first ++ later) name = addressedTo first name ++ addressedTo later name := by
  rw [addressedTo, List.filter_append, List.map_append, addressedTo, addressedTo]

theorem addressedTo_singleton (name other : Name) (message : Message) :
    addressedTo [(name, message)] other = if name = other then [message] else [] := by
  by_cases same : name = other <;> simp [addressedTo, same]

/-- Sends that all go to one receiver. -/
theorem addressedTo_map {Item : Type} (items : List Item) (name other : Name)
    (content : Item → Message) :
    addressedTo (items.map fun item => (name, content item)) other =
      if name = other then items.map content else [] := by
  by_cases same : name = other
  · rw [if_pos same, addressedTo, List.filter_eq_self.mpr, List.map_map]
    · rfl
    · intro sent member
      rcases List.mem_map.mp member with ⟨item, -, rfl⟩
      simpa using same
  · rw [if_neg same, addressedTo, List.filter_eq_nil_iff.mpr]
    · rfl
    · intro sent member
      rcases List.mem_map.mp member with ⟨item, -, rfl⟩
      simpa using same

end

namespace ActorSystem

variable {Name Message State Answer Move Content View : Type} [DecidableEq Name]
  {system : ActorSystem Name Message State Answer Move}
  {config next : Configuration Name Message State}

/-! ## Relays -/

/-- `order` is what `relay` has handled, with the senders, and `forward` of it is all that it
has sent to `target`. -/
structure Relayed (embed forward : Content → Message) (relay target : Name)
    (config : Configuration Name Message State) (order : List (Name × Content)) : Prop where
  handled : ∀ sender, (config.mail relay sender).received =
    (addressedTo order sender).map embed
  forwarded : (config.mail target relay).history = order.map fun handled => forward handled.2

/-- What an actor does that only relays. -/
structure Relays (system : ActorSystem Name Message State Answer Move)
    (embed forward : Content → Message) (relay target : Name) : Prop where
  forwards : ∀ state answer content,
    addressedTo (system.react state relay answer (embed content)).2 target = [forward content]
  moveless : ∀ state chosen next actor sends,
    system.move state chosen = some (next, actor, sends) → actor ≠ relay

theorem Relayed.opening (embed forward : Content → Message) (relay target : Name)
    (state : State) :
    Relayed embed forward relay target ⟨state, fun _ => .empty⟩ [] :=
  ⟨fun _ => rfl, rfl⟩

variable {embed forward : Content → Message} {relay target : Name}

theorem Relayed.step (relays : Relays system embed forward relay target)
    {order : List (Name × Content)} (relayed : Relayed embed forward relay target config order)
    (understood : ∀ sender, ∀ message ∈ (config.mail relay sender).history,
      ∃ content, message = embed content)
    {event : Event Name Answer Move} (taken : system.step config event = some next) :
    ∃ later, Relayed embed forward relay target next later := by
  rcases step_cases taken with
    ⟨actor, sender, answer, message, -, handled⟩ | ⟨chosen, actor, sends, -, moved⟩
  · by_cases own : actor = relay
    · subst own
      rcases understood sender message handled.mem_history with ⟨content, rfl⟩
      refine ⟨order ++ [(sender, content)], fun source => ?_, ?_⟩
      · rw [addressedTo_append, addressedTo_singleton, List.map_append, ← relayed.handled]
        by_cases same : sender = source
        · rw [← same, if_pos rfl, handled.received]
          rfl
        · rw [if_neg same, handled.elsewhere _ _ fun equal => same equal.2.symm]
          exact (List.append_nil _).symm
      · rw [handled.turn.histories, if_pos rfl, relays.forwards, relayed.forwarded,
          List.map_append]
        rfl
    · refine ⟨order, fun source => ?_, ?_⟩
      · rw [handled.elsewhere _ _ fun equal => own equal.1.symm, relayed.handled]
      · rw [handled.turn.histories, if_neg (Ne.symm own), List.append_nil, relayed.forwarded]
  · have other := relays.moveless _ _ _ _ _ moved.moved
    refine ⟨order, fun source => ?_, ?_⟩
    · rw [moved.received, relayed.handled]
    · rw [moved.turn.histories, if_neg (Ne.symm other), List.append_nil, relayed.forwarded]

/-! ## Consumers -/

/-- The view of the state is what `source` has been heard to say. -/
def Consumed (view : State → View) (absorb : View → Message → View) (start : View)
    (target source : Name) (config : Configuration Name Message State) : Prop :=
  view config.state = (config.mail target source).received.foldl absorb start

/-- Only `target` changes the view of the state, by the messages that it handles. -/
structure Consumes (system : ActorSystem Name Message State Answer Move) (view : State → View)
    (absorb : View → Message → View) (target : Name) : Prop where
  absorbs : ∀ state answer message,
    view (system.react state target answer message).1 = absorb (view state) message
  others : ∀ state actor answer message, actor ≠ target →
    view (system.react state actor answer message).1 = view state
  moves : ∀ state chosen next actor sends,
    system.move state chosen = some (next, actor, sends) → view next = view state

variable {view : State → View} {absorb : View → Message → View} {start : View} {source : Name}

theorem Consumed.step (consumes : Consumes system view absorb target)
    (consumed : Consumed view absorb start target source config)
    (ineffective : ∀ sender, sender ≠ source →
      ∀ message ∈ (config.mail target sender).history, ∀ seen, absorb seen message = seen)
    {event : Event Name Answer Move} (taken : system.step config event = some next) :
    Consumed view absorb start target source next := by
  rw [Consumed] at consumed ⊢
  rcases step_cases taken with
    ⟨actor, sender, answer, message, -, handled⟩ | ⟨chosen, actor, sends, -, moved⟩
  · rw [handled.state]
    by_cases own : actor = target
    · subst own
      rw [consumes.absorbs, consumed]
      by_cases same : sender = source
      · subst same
        rw [handled.received, List.foldl_append]
        rfl
      · rw [handled.elsewhere _ _ fun equal => same equal.2.symm,
          ineffective sender same message handled.mem_history]
    · rw [consumes.others _ _ _ _ own, consumed,
        handled.elsewhere _ _ fun equal => own equal.1.symm]
  · rw [consumes.moves _ _ _ _ _ moved.moved, consumed, moved.received]

/-! ## Handling what waits -/

theorem exists_step_of_pending {receiver sender : Name} {message : Message} {rest : List Message}
    (running : system.running config.state receiver = true)
    (waiting : (config.mail receiver sender).pending = message :: rest) (answer : Answer) :
    ∃ next, system.step config (.handle receiver sender answer) = some next := by
  have available : (config.mail receiver sender).taken <
      (config.mail receiver sender).history.length := by
    have length := congrArg List.length waiting
    rw [Channel.pending, List.length_drop, List.length_cons] at length
    omega
  rcases config with ⟨state, mail⟩
  exact ⟨_, by rw [step, if_pos running, Mailbox.take?, Channel.take?, dif_pos available]; rfl⟩

/-- Where a turn of `receiver` adds no mail, the mail that it does not take stays. -/
theorem Handled.pending_of_silent {receiver sender : Name} {answer : Answer} {message : Message}
    (handled : Handled system config next receiver sender answer message) {other source : Name}
    (silent : addressedTo (system.react config.state receiver answer message).2 other = [])
    (apart : ¬ (other = receiver ∧ source = sender)) :
    (next.mail other source).pending = (config.mail other source).pending := by
  rw [handled.turn.pending (handled.elsewhere other source apart), silent, ite_self,
    List.append_nil]

variable {receiver : Name} {answer : Answer}

/-- The mail of one sender. -/
theorem exists_drained (running : ∀ state, system.running state receiver = true)
    (reserved : ∀ state message,
      addressedTo (system.react state receiver answer message).2 receiver = [])
    (config : Configuration Name Message State) (sender : Name) :
    ∃ count final, system.step.execute config
        (List.replicate count (.handle receiver sender answer)) = some final ∧
      (final.mail receiver sender).pending = [] ∧
      ∀ other source,
        (∀ state message, addressedTo (system.react state receiver answer message).2 other = []) →
        ¬ (other = receiver ∧ source = sender) →
          (final.mail other source).pending = (config.mail other source).pending := by
  generalize waiting : (config.mail receiver sender).pending = messages
  induction messages generalizing config with
  | nil => exact ⟨0, config, rfl, waiting, fun _ _ _ _ => rfl⟩
  | cons message rest induction =>
      rcases exists_step_of_pending (running config.state) waiting answer with ⟨next, taken⟩
      rcases step_cases taken with
        ⟨actor, source, same, first, equal, handled⟩ | ⟨_, _, _, equal, -⟩
      · cases equal
        rcases handled.pending with ⟨behind, split, left⟩
        rw [waiting, List.cons.injEq] at split
        rw [reserved, ite_self, List.append_nil, ← split.2] at left
        rcases induction next left with ⟨count, final, ran, empty, kept⟩
        refine ⟨count + 1, final, ?_, empty, ?_⟩
        · rw [List.replicate_succ]
          exact StepFunction.execute_cons _ |>.mpr ⟨next, taken, ran⟩
        · intro other source silent apart
          rw [kept other source silent apart, handled.pending_of_silent (silent _ _) apart]
      · cases equal

/-- The mail of several senders. -/
theorem exists_all_drained (running : ∀ state, system.running state receiver = true)
    (reserved : ∀ state message,
      addressedTo (system.react state receiver answer message).2 receiver = [])
    (senders : List Name) (config : Configuration Name Message State) :
    ∃ events final, (∀ event ∈ events, ∃ sender, event = .handle receiver sender answer) ∧
      system.step.execute config events = some final ∧
      (∀ sender ∈ senders, (final.mail receiver sender).pending = []) ∧
      ∀ sender, (config.mail receiver sender).pending = [] →
        (final.mail receiver sender).pending = [] := by
  induction senders generalizing config with
  | nil => exact ⟨[], config, by simp, rfl, by simp, fun _ empty => empty⟩
  | cons sender rest induction =>
      rcases exists_drained running reserved config sender with ⟨count, next, ran, empty, kept⟩
      rcases induction next with ⟨events, final, handles, later, drained, still⟩
      refine ⟨List.replicate count (.handle receiver sender answer) ++ events, final, ?_, ?_,
        ?_, ?_⟩
      · intro event member
        rcases List.mem_append.mp member with first | second
        · exact ⟨sender, List.eq_of_mem_replicate first⟩
        · exact handles event second
      · rw [StepFunction.execute_append, ran, Option.bind_some, later]
      · intro other member
        rcases List.mem_cons.mp member with rfl | member
        · exact still other empty
        · exact drained other member
      · intro other before
        by_cases same : other = sender
        · exact still other (same ▸ empty)
        · exact still other
            ((kept receiver other reserved fun equal => same equal.2).trans before)

end ActorSystem

end Pmud.Foundation
