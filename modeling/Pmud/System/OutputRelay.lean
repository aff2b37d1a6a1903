import Pmud.System.SessionInvariant

/-! # The way of the output

What the controllers emit and prompt goes through the command actor, which adds
prompts of its own, to the connection actor.
-/

namespace Pmud.System

open Pmud.Foundation Pmud.Net Pmud.Controllers

/-- Why the command actor sent something to the connection: it relays what a
controller sent, a controller has ended its login, or it prompts by itself. -/
inductive Origin
  | relay (controller : ActorId)
  | ending (controller : ActorId)
  | own
  deriving DecidableEq, Repr

namespace Origin

def of (sender : ActorId) : Message → Origin
  | .toUserEmit _ => .relay sender
  | .toUserPrompt _ => .relay sender
  | .loginControllerEnd => .ending sender
  | _ => .own

def concerns (controller : ActorId) : Origin → Bool
  | .relay source => source = controller
  | .ending source => source = controller
  | .own => false

end Origin

/-- What the command actor sends to the connection in a turn, with its origin. -/
def outputsWithOrigin (sha256 : ByteString → ByteString) (config : SessionConfiguration) :
    SessionEvent → List (Origin × Message)
  | .handle .command sender answers =>
      match (config.mail .command sender).pending.head? with
      | none => []
      | some message =>
          (addressedTo (config.state.react sha256 .command answers message).2
            .connection).map fun output => (Origin.of sender message, output)
  | _ => []

/-- A session with the outputs that the command actor has sent. -/
abbrev OutputRun := SessionConfiguration × List (Origin × Message)

def outputSession (sha256 : ByteString → ByteString) : StepFunction OutputRun SessionEvent :=
  (session sha256).step.recording (outputsWithOrigin sha256)

/-- The outputs that the connection actor has handled. -/
def processed (run : OutputRun) : List (Origin × Message) :=
  run.2.take (run.1.mail .connection .command).received.length

/-- Those among them that originate from one controller. -/
def relayedFrom (controller : ActorId) (outputs : List (Origin × Message)) : List Message :=
  (outputs.filter fun output => output.1 = .relay controller).map Prod.snd

def isOutput : Message → Bool
  | .toUserEmit _ => true
  | .toUserPrompt _ => true
  | _ => false

/-- What the controller has sent to the command actor. -/
def sentBy (controller : ActorId) (config : SessionConfiguration) : List Message :=
  (config.mail .command controller).history

structure RelaysInOrder (run : OutputRun) : Prop where
  messages : (processed run).map Prod.snd = (run.1.mail .connection .command).received
  relayed : ∀ controller, isController controller = true →
    relayedFrom controller (processed run) <+: (sentBy controller run.1).filter isOutput
  /-- The prompt for the end of a login comes behind exactly what was sent before
  that end. -/
  endings : ∀ controller, isController controller = true → ∀ before prompt behind,
    processed run = before ++ (.ending controller, prompt) :: behind →
      ∃ early late, sentBy controller run.1 = early ++ .loginControllerEnd :: late ∧
        early.count .loginControllerEnd =
          (before.filter fun output => output.1 = .ending controller).length ∧
        relayedFrom controller before = early.filter isOutput

/-! ## What becomes of one message of a controller -/

/-- What the command actor makes of a message of a controller. -/
def relayOf (controller : ActorId) : Message → Origin × Message
  | .loginControllerEnd => (.ending controller, .toUserPrompt UserClient.defaultPrompt)
  | message => (.relay controller, message)

/-- The messages that a controller sends to the command actor. -/
def fromController : Message → Bool
  | .loginControllerEnd => true
  | message => isOutput message

theorem fromController_of_speaks {controller : ActorId} {message : Message}
    (valid : isController controller = true)
    (spoken : speaks controller .command message = true) : fromController message = true := by
  cases controller with
  | loginController serial => cases message with
    | toUserEmit emission => rfl
    | toUserPrompt prompt => rfl
    | loginControllerEnd => rfl
    | _ => cases spoken
  | defaultController => cases message with
    | toUserEmit emission => rfl
    | toUserPrompt prompt => rfl
    | _ => cases spoken
  | _ => cases valid

theorem addressedTo_connection_exitActive (command : CommandActor)
    (valid : ∀ controller ∈ command.activeController, isController controller = true) :
    addressedTo command.exitActive .connection = [] := by
  rw [List.eq_nil_iff_forall_not_mem]
  intro message member
  rcases mem_exitActive (mem_addressedTo.mp member) with ⟨active, -⟩
  cases valid _ active

/-- One message in, one output, with the same content unless it is the end of a
login. -/
theorem outputs_of_controller (command : CommandActor)
    (valid : ∀ controller ∈ command.activeController, isController controller = true)
    (controller : ActorId) {message : Message} (sent : fromController message = true) :
    (addressedTo (command.receive message).2 .connection).map
      (fun output => (Origin.of controller message, output)) = [relayOf controller message] := by
  cases message with
  | toUserEmit emission => rfl
  | toUserPrompt prompt => rfl
  | loginControllerEnd =>
      simp only [CommandActor.receive, addressedTo, List.filter_append, List.map_append]
      have none := addressedTo_connection_exitActive command valid
      unfold addressedTo at none
      rw [none]
      rfl
  | _ => cases sent

theorem concerns_of_other {sender controller : ActorId} (different : sender ≠ controller)
    (message : Message) : (Origin.of sender message).concerns controller = false := by
  cases message with
  | _ => simp [Origin.of, Origin.concerns, different]

theorem concerns_relayOf (controller : ActorId) (message : Message) :
    (relayOf controller message).1.concerns controller = true := by
  cases message with
  | _ => simp [relayOf, Origin.concerns]

/-- Leaving out what concerns other controllers changes nothing for this one. -/
theorem relayedFrom_concerning (controller : ActorId) (outputs : List (Origin × Message)) :
    relayedFrom controller (outputs.filter fun output => output.1.concerns controller) =
      relayedFrom controller outputs := by
  unfold relayedFrom
  rw [List.filter_filter]
  congr 2
  funext output
  by_cases relayed : output.1 = .relay controller
  · simp [relayed, Origin.concerns]
  · simp [relayed]

theorem endings_concerning (controller : ActorId) (outputs : List (Origin × Message)) :
    (outputs.filter fun output => output.1.concerns controller).filter
        (fun output => output.1 = .ending controller) =
      outputs.filter fun output => output.1 = .ending controller := by
  rw [List.filter_filter]
  congr 1
  funext output
  by_cases ending : output.1 = .ending controller
  · simp [ending, Origin.concerns]
  · simp [ending]

section Messages

variable (controller : ActorId) {messages : List Message}
  (sent : ∀ message ∈ messages, fromController message = true)
include sent

theorem relayedFrom_relayOf :
    relayedFrom controller (messages.map (relayOf controller)) = messages.filter isOutput := by
  induction messages with
  | nil => rfl
  | cons message rest induction =>
      rw [List.forall_mem_cons] at sent
      have later := induction sent.2
      unfold relayedFrom at later ⊢
      cases message with
      | toUserEmit emission => simpa [relayOf, isOutput, List.filter_cons] using later
      | toUserPrompt prompt => simpa [relayOf, isOutput, List.filter_cons] using later
      | loginControllerEnd => simpa [relayOf, isOutput] using later
      | _ => cases sent.1

theorem endings_relayOf :
    messages.count .loginControllerEnd =
      ((messages.map (relayOf controller)).filter
        fun output => output.1 = .ending controller).length := by
  induction messages with
  | nil => rfl
  | cons message rest induction =>
      rw [List.forall_mem_cons] at sent
      have later := induction sent.2
      cases message with
      | toUserEmit emission => simpa [relayOf] using later
      | toUserPrompt prompt => simpa [relayOf] using later
      | loginControllerEnd => simpa [relayOf] using later
      | _ => cases sent.1

end Messages

/-! ## The invariant -/

/-- Both queues at once: the outputs are what the command actor has sent, and
those that concern a controller are its messages that were handled. -/
structure Relayed (run : OutputRun) : Prop where
  invariant : SessionInvariant run.1
  history : (run.1.mail .connection .command).history = run.2.map Prod.snd
  concerning : ∀ controller, isController controller = true →
    run.2.filter (fun output => output.1.concerns controller) =
      (run.1.mail .command controller).received.map (relayOf controller)

namespace Relayed

variable {sha256 : ByteString → ByteString} {run next : OutputRun}

theorem opening (id : Nat) (comm : CommStatic) : Relayed (openSession id comm, []) where
  invariant := .opening id comm
  history := by
    rw [(SessionInvariant.opening_turn id comm).history_of_silent (by simp)]
    rfl
  concerning := by
    intro controller valid
    cases controller with
    | loginController serial => rfl
    | defaultController => rfl
    | _ => cases valid

/-- The command actor's turn adds its outputs to the record and to the queue. -/
theorem of_command (relayed : Relayed run) {sender : ActorId} {answers : Answers}
    {message : Message}
    (handled : ActorSystem.Handled (session sha256) run.1 next.1 .command sender answers message)
    (record : next.2 =
      run.2 ++ outputsWithOrigin sha256 run.1 (.handle .command sender answers)) :
    Relayed next := by
  have invariant := relayed.invariant
  simp only [outputsWithOrigin, handled.waited] at record
  refine ⟨invariant.of_handled handled, ?_, ?_⟩
  · rw [handled.turn.histories, if_pos rfl, relayed.history, record, List.map_append,
      List.map_map]
    simp [session, Function.comp_def]
  · intro controller valid
    rw [record, List.filter_append, relayed.concerning controller valid]
    by_cases own : sender = controller
    · subst own
      have spoken := invariant.spoken_of_handled handled
      have sent := fromController_of_speaks valid spoken
      have ordinary : message ≠ .exit := by
        intro same
        rw [same] at sent
        cases sent
      rw [(react_by_command sha256 run.1.state answers message ordinary).2,
        outputs_of_controller _ invariant.valid sender sent, handled.received, List.map_append]
      simp [concerns_relayOf]
    · have none : ((addressedTo (run.1.state.react sha256 .command answers message).2
          .connection).map fun output => (Origin.of sender message, output)).filter
            (fun output => output.1.concerns controller) = [] := by
        simp [List.filter_eq_nil_iff, concerns_of_other own]
      have untouched := handled.elsewhere .command controller fun same => own same.2.symm
      rw [none, List.append_nil, untouched]

theorem of_handled (relayed : Relayed run) {receiver sender : ActorId} {answers : Answers}
    {message : Message} (other : receiver ≠ .command)
    (handled : ActorSystem.Handled (session sha256) run.1 next.1 receiver sender answers message)
    (record : next.2 = run.2) : Relayed next := by
  refine ⟨relayed.invariant.of_handled handled, ?_, ?_⟩
  · rw [handled.turn.histories, if_neg (Ne.symm other), List.append_nil, record]
    exact relayed.history
  · intro controller valid
    rw [record, handled.elsewhere .command controller fun same => other same.1.symm]
    exact relayed.concerning controller valid

theorem of_moved (relayed : Relayed run) {actor : ActorId} {sends : Sends}
    (moved : ActorSystem.Moved (session sha256) run.1 next.1 () actor sends)
    (record : next.2 = run.2) : Relayed next := by
  have chosen := Option.some.inj moved.moved
  simp only [Prod.mk.injEq] at chosen
  rcases chosen with ⟨-, rfl, rfl⟩
  refine ⟨relayed.invariant.of_moved moved, ?_, ?_⟩
  · rw [moved.turn.history_of_silent (by simp), record]
    exact relayed.history
  · intro controller valid
    rw [record, moved.received]
    exact relayed.concerning controller valid

theorem step (relayed : Relayed run) {event : SessionEvent}
    (taken : outputSession sha256 run event = some next) : Relayed next := by
  rcases (StepFunction.recording_eq_some _).mp taken with ⟨stepped, record⟩
  rcases ActorSystem.step_cases stepped with
    ⟨receiver, sender, answers, message, rfl, handled⟩ | ⟨chosen, actor, sends, rfl, moved⟩
  · by_cases own : receiver = .command
    · subst own
      exact relayed.of_command handled record
    · apply relayed.of_handled own handled
      rw [record]
      cases receiver with
      | command => exact absurd rfl own
      | _ => exact List.append_nil _
  · exact relayed.of_moved moved (record.trans (List.append_nil _))

/-! ## What the invariant says about the outputs that were handled -/

section Outputs

variable (relayed : Relayed run)
include relayed

theorem messages : (processed run).map Prod.snd = (run.1.mail .connection .command).received := by
  have handled : (run.1.mail .connection .command).received <+:
      (run.1.mail .connection .command).history :=
    ⟨_, Channel.received_append_pending _⟩
  rw [processed, List.map_take, ← relayed.history]
  exact (List.prefix_iff_eq_take.mp handled).symm

/-- The outputs handled that concern a controller follow what it has sent. -/
theorem concerning_prefix {controller : ActorId} (valid : isController controller = true) :
    (processed run).filter (fun output => output.1.concerns controller) <+:
      (sentBy controller run.1).map (relayOf controller) := by
  have first : (processed run).filter (fun output => output.1.concerns controller) <+:
      run.2.filter fun output => output.1.concerns controller :=
    (List.take_prefix _ _).filter _
  rw [relayed.concerning controller valid] at first
  exact first.trans (List.IsPrefix.map _ ⟨_, Channel.received_append_pending _⟩)

theorem fromController_of_sent {controller : ActorId} (valid : isController controller = true) :
    ∀ message ∈ sentBy controller run.1, fromController message = true := by
  intro message member
  exact fromController_of_speaks valid
    (relayed.invariant.conforms .command controller message member)

theorem relayed_prefix {controller : ActorId} (valid : isController controller = true) :
    relayedFrom controller (processed run) <+: (sentBy controller run.1).filter isOutput := by
  rw [← relayedFrom_concerning,
    ← relayedFrom_relayOf controller (relayed.fromController_of_sent valid)]
  exact ((relayed.concerning_prefix valid).filter _).map _

theorem before_ending {controller : ActorId} (valid : isController controller = true)
    {before behind : List (Origin × Message)} {prompt : Message}
    (split : processed run = before ++ (.ending controller, prompt) :: behind) :
    ∃ early late, sentBy controller run.1 = early ++ .loginControllerEnd :: late ∧
      before.filter (fun output => output.1.concerns controller) =
        early.map (relayOf controller) := by
  have handled := relayed.concerning_prefix valid
  have kept : (Origin.ending controller).concerns controller = true := by
    simp [Origin.concerns]
  rw [split, List.filter_append, List.filter_cons, if_pos kept] at handled
  rcases handled with ⟨rest, equal⟩
  rw [List.append_assoc, List.cons_append, eq_comm, List.map_eq_append_iff] at equal
  rcases equal with ⟨early, others, whole, earlier, following⟩
  rcases List.map_eq_cons_iff.mp following with ⟨message, late, rfl, same, -⟩
  have ending : message = .loginControllerEnd := by
    cases message with
    | loginControllerEnd => rfl
    | _ => simp [relayOf] at same
  subst ending
  exact ⟨early, late, whole, earlier.symm⟩

theorem relaysInOrder : RelaysInOrder run where
  messages := relayed.messages
  relayed := fun controller valid => relayed.relayed_prefix valid
  endings := by
    intro controller valid before prompt behind split
    rcases relayed.before_ending valid split with ⟨early, late, whole, earlier⟩
    have sent : ∀ message ∈ early, fromController message = true := by
      intro message member
      apply relayed.fromController_of_sent valid message
      rw [whole]
      exact List.mem_append_left _ member
    refine ⟨early, late, whole, ?_, ?_⟩
    · rw [← endings_concerning, earlier, endings_relayOf controller sent]
    · rw [← relayedFrom_concerning, earlier, relayedFrom_relayOf controller sent]

end Outputs

end Relayed

/-- In every interleaving the outputs of a controller arrive in order, and the
prompt for the end of a login after all that was sent before. This still holds
after the goodbye of the connection. -/
theorem outputSession_relaysInOrder (sha256 : ByteString → ByteString) (id : Nat)
    (comm : CommStatic) (events : List SessionEvent) :
    (outputSession sha256).Throughout RelaysInOrder (openSession id comm, []) events := by
  refine StepFunction.Throughout.mono _ (fun run relayed => Relayed.relaysInOrder relayed) ?_
  apply StepFunction.throughout_of_preserved
  · exact fun run event next relayed taken => relayed.step taken
  · exact .opening id comm

end Pmud.System
