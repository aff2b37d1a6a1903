import Pmud.System.SessionInvariant

/-! # The active controller of a session

The hand-over from the login controller to the default controller is safe as
long as the login ends once. A login controller ends its login again when an
input repeats the password it has scrubbed.
-/

namespace Pmud.System

open Pmud.Foundation Pmud.Net Pmud.Controllers

def exitSent (config : SessionConfiguration) (actor : ActorId) : Prop :=
  ∃ sender, .exit ∈ (config.mail actor sender).history

/-- Between `PerformWelcome` and its own end the command actor refers to a
controller that has not been told to exit, and forwards input to no other. -/
def KeepsController (config : SessionConfiguration) : Prop :=
  .performWelcome ∈ (config.mail .command .connection).received →
    config.state.exited .command = false →
      (∃ controller, config.state.command.activeController = some controller ∧
        ¬ exitSent config controller) ∧
      ∀ input controller forwarded,
        (controller, .onUserInput forwarded) ∈
          (config.state.command.receive (.onUserInput input)).2 →
        ¬ exitSent config controller

/-- A login controller that has ended its login does not handle its scrubbed
password as an input. -/
def NoBlankReply (config : SessionConfiguration) : SessionEvent → Prop
  | .handle (.loginController serial) sender _ =>
      .loginControllerEnd ∈ (config.mail .command (.loginController serial)).history →
        (config.mail (.loginController serial) sender).pending.head? ≠
          some (.onUserInput (config.state.logins serial).password)
  | _ => True

instance (config : SessionConfiguration) : ∀ event, Decidable (NoBlankReply config event)
  | .handle (.loginController serial) sender _ =>
      inferInstanceAs (Decidable (.loginControllerEnd ∈
          (config.mail .command (.loginController serial)).history →
        (config.mail (.loginController serial) sender).pending.head? ≠
          some (.onUserInput (config.state.logins serial).password)))
  | .handle .main _ _ => .isTrue trivial
  | .handle .server _ _ => .isTrue trivial
  | .handle .connection _ _ => .isTrue trivial
  | .handle .command _ _ => .isTrue trivial
  | .handle .defaultController _ _ => .isTrue trivial
  | .handle .eventRecorder _ _ => .isTrue trivial
  | .move _ => .isTrue trivial

/-- The stages of a session, by the controller that is active. -/
inductive Stage (config : SessionConfiguration) : Prop
  | unwelcomed (zero : config.state.command.spawned = 0)
      (idle : config.state.command.activeController = none)
  | login (one : config.state.command.spawned = 1)
      (active : config.state.command.activeController = some (.loginController 0))
      (unended : .loginControllerEnd ∉ (config.mail .command (.loginController 0)).received)
      (alive : .exit ∉ (config.mail (.loginController 0) .command).history)
  | playing (one : config.state.command.spawned = 1)
      (active : config.state.command.activeController = some .defaultController)
      (ended : .loginControllerEnd ∈ (config.mail .command (.loginController 0)).received)

theorem Stage.transfer {config next : SessionConfiguration} (stage : Stage config)
    (command : next.state.command = config.state.command)
    (ends : .loginControllerEnd ∈ (next.mail .command (.loginController 0)).received ↔
      .loginControllerEnd ∈ (config.mail .command (.loginController 0)).received)
    (exits : .exit ∈ (next.mail (.loginController 0) .command).history →
      .exit ∈ (config.mail (.loginController 0) .command).history) : Stage next := by
  cases stage with
  | unwelcomed zero idle => exact .unwelcomed (by rw [command, zero]) (by rw [command, idle])
  | login one active unended alive =>
      exact .login (by rw [command, one]) (by rw [command, active]) (by rwa [ends])
        (fun member => alive (exits member))
  | playing one active ended =>
      exact .playing (by rw [command, one]) (by rw [command, active]) (ends.mpr ended)

structure Staged (config : SessionConfiguration) : Prop where
  invariant : SessionInvariant config
  endsOnce : (config.mail .command (.loginController 0)).history.count .loginControllerEnd ≤ 1
  defaultAlive : config.state.exited .command = false →
    .exit ∉ (config.mail .defaultController .command).history
  stage : config.state.exited .command = false → Stage config

namespace Staged

variable {config next : SessionConfiguration}

theorem not_exitSent (invariant : SessionInvariant config) {controller : ActorId}
    (valid : isController controller = true)
    (alive : .exit ∉ (config.mail controller .command).history) :
    ¬ exitSent config controller := by
  intro holds
  rcases holds with ⟨sender, member⟩
  have spoken := invariant.conforms controller sender .exit member
  obtain rfl := SessionInvariant.controller_source valid spoken
  exact alive member

theorem keepsController (staged : Staged config) : KeepsController config := by
  intro welcomed running
  have spawned : 0 < config.state.command.spawned := by
    rw [staged.invariant.spawned]
    exact List.count_pos_iff.mpr welcomed
  have active : ∃ controller, config.state.command.activeController = some controller ∧
      ¬ exitSent config controller := by
    cases staged.stage running with
    | unwelcomed zero _ => omega
    | login _ active _ alive =>
        exact ⟨_, active, not_exitSent staged.invariant rfl alive⟩
    | playing _ active _ =>
        exact ⟨_, active, not_exitSent staged.invariant rfl (staged.defaultAlive running)⟩
  refine ⟨active, fun input controller forwarded sent => ?_⟩
  rcases active with ⟨current, equal, alive⟩
  simp only [CommandActor.receive, equal, List.mem_singleton, Prod.mk.injEq] at sent
  rw [sent.1]
  exact alive

theorem opening (id : Nat) (comm : CommStatic) : Staged (openSession id comm) where
  invariant := .opening id comm
  endsOnce := by
    rw [(SessionInvariant.opening id comm).silent 0 (Nat.zero_le _)]
    exact Nat.zero_le 1
  defaultAlive := by
    intro _
    rw [(SessionInvariant.opening_turn id comm).history_of_silent (by simp)]
    exact List.not_mem_nil
  stage := fun _ => .unwelcomed rfl rfl

section Step

variable {sha256 : ByteString → ByteString} {receiver sender : ActorId} {answers : Answers}
  {message : Message} (staged : Staged config)
  (handled : ActorSystem.Handled (session sha256) config next receiver sender answers message)
include staged handled

theorem endsOnce_of_handled (permitted : NoBlankReply config (.handle receiver sender answers)) :
    (next.mail .command (.loginController 0)).history.count .loginControllerEnd ≤ 1 := by
  rw [(SessionInvariant.turn_of_handled handled).count_history]
  by_cases own : receiver = .loginController 0
  · subst own
    rw [if_pos rfl]
    have ends : (config.state.react sha256 (.loginController 0) answers message).2.count
        (.command, .loginControllerEnd) ≤
          if message = .onUserInput (config.state.logins 0).password then 1 else 0 := by
      unfold SessionState.react
      split
      · exact Nat.zero_le _
      · exact login_ends sha256 (config.state.logins 0) answers.draws message
    split at ends
    · rename_i repeated
      have fresh : .loginControllerEnd ∉
          (config.mail .command (.loginController 0)).history := by
        intro ended
        apply permitted ended
        rw [handled.waited, repeated]
      rw [List.count_eq_zero.mpr fresh]
      omega
    · have once := staged.endsOnce
      omega
  · rw [if_neg (Ne.symm own)]
    exact staged.endsOnce

omit staged in
/-- The command actor runs on, and any message but the exit is for its handlers. -/
theorem running_of_handled (running : next.state.exited .command = false) :
    config.state.exited .command = false ∧ (receiver = .command → message ≠ .exit) := by
  rw [SessionInvariant.state_of_handled handled] at running
  have parts := react_exited sha256 config.state receiver answers message running
  exact ⟨parts.1, fun own => parts.2 own.symm⟩

/-- An end that is handled comes from the only login controller, and is the
first. -/
theorem end_of_handled (ending : message = .loginControllerEnd) :
    receiver = .command ∧ sender = .loginController 0 ∧
      .loginControllerEnd ∉ (config.mail .command (.loginController 0)).received := by
  subst ending
  rcases SessionInvariant.end_source (staged.invariant.spoken_of_handled handled) with
    ⟨rfl, serial, rfl⟩
  have spawned := staged.invariant.spawned_le_one
  have first : serial = 0 := by
    by_contra later
    have waited := handled.mem_history
    rw [staged.invariant.silent serial (by omega)] at waited
    cases waited
  subst first
  refine ⟨rfl, rfl, ?_⟩
  have fewer := handled.count_received
  have once := staged.endsOnce
  rw [← List.count_eq_zero]
  omega

theorem defaultAlive_of_handled (running : next.state.exited .command = false) :
    .exit ∉ (next.mail .defaultController .command).history := by
  rcases running_of_handled handled running with ⟨ran, ordinary⟩
  rw [(SessionInvariant.turn_of_handled handled).mem_history]
  intro either
  rcases either with before | ⟨rfl, sent⟩
  · exact staged.defaultAlive ran before
  rw [(react_by_command sha256 config.state answers message (ordinary rfl)).2] at sent
  by_cases welcome : message = .performWelcome
  · subst welcome
    simp [CommandActor.receive] at sent
  · by_cases ending : message = .loginControllerEnd
    · have first := staged.end_of_handled handled ending
      subst ending
      rcases List.mem_append.mp sent with exiting | prompting
      · have active := (mem_exitActive exiting).1
        cases staged.stage ran with
        | unwelcomed _ idle => rw [idle] at active; cases active
        | login _ current _ _ => rw [current] at active; cases active
        | playing _ _ ended => exact first.2.2 ended
      · cases List.mem_singleton.mp prompting
    · exact (command_steady _ _ welcome ending).2 _ sent

/-- The welcome makes the first login controller the active one. -/
theorem stage_of_welcome (welcome : message = .performWelcome) (own : receiver = .command)
    (_ : config.state.exited .command = false) : Stage next := by
  subst welcome own
  have source : sender = .connection := by
    rcases SessionInvariant.welcome_source (staged.invariant.spoken_of_handled handled) with
      other | this
    · cases other.2
    · exact this.1
  subst source
  have zero : config.state.command.spawned = 0 := by
    have fewer := handled.count_received
    have single := staged.invariant.single
    rw [staged.invariant.spawned]
    omega
  have turn := react_by_command sha256 config.state answers .performWelcome (by simp)
  have command := SessionInvariant.state_of_handled handled
  refine .login ?_ ?_ ?_ ?_
  · rw [command, turn.1, command_spawned, zero, if_pos rfl]
  · rw [command, turn.1, ← zero]
    rfl
  · rw [handled.elsewhere .command (.loginController 0) (by simp)]
    intro ended
    have sent : .loginControllerEnd ∈ (config.mail .command (.loginController 0)).history :=
      List.mem_of_mem_take ended
    rw [staged.invariant.silent 0 (by omega)] at sent
    cases sent
  · rw [(SessionInvariant.turn_of_handled handled).mem_history,
      staged.invariant.unspawned 0 (by omega), turn.2]
    intro either
    rcases either with before | ⟨-, sent⟩
    · cases before
    · simp [CommandActor.receive] at sent

/-- The end of the login hands over to the default controller. -/
theorem stage_of_end (ending : message = .loginControllerEnd)
    (ran : config.state.exited .command = false) : Stage next := by
  rcases staged.end_of_handled handled ending with ⟨rfl, rfl, first⟩
  subst ending
  have turn := react_by_command sha256 config.state answers .loginControllerEnd (by simp)
  have command := SessionInvariant.state_of_handled handled
  cases staged.stage ran with
  | unwelcomed zero _ =>
      have sent := handled.mem_history
      rw [staged.invariant.silent 0 (by omega)] at sent
      cases sent
  | login one _ _ _ =>
      refine .playing ?_ ?_ ?_
      · rw [command, turn.1, command_spawned, one, if_neg (by simp)]
      · rw [command, turn.1]
        rfl
      · rw [handled.received]
        exact List.mem_append_right _ List.mem_cons_self
  | playing _ _ ended => exact absurd ended first

/-- Every other turn stays in the stage. -/
theorem stage_of_other (ran : config.state.exited .command = false)
    (steady : receiver = .command → message ≠ .exit ∧ message ≠ .performWelcome)
    (noEnd : message ≠ .loginControllerEnd) : Stage next := by
  have command := SessionInvariant.state_of_handled handled
  have turn := SessionInvariant.turn_of_handled handled
  apply (staged.stage ran).transfer
  · by_cases own : receiver = .command
    · subst own
      rw [command, (react_by_command sha256 config.state answers message (steady rfl).1).1,
        (command_steady _ _ (steady rfl).2 noEnd).1]
    · rw [command, react_command sha256 config.state receiver answers message own]
  · by_cases here : .command = receiver ∧ .loginController 0 = sender
    · rcases here with ⟨rfl, rfl⟩
      rw [handled.received]
      simp [noEnd.symm]
    · rw [handled.elsewhere _ _ here]
  · rw [turn.mem_history]
    intro either
    rcases either with before | ⟨rfl, sent⟩
    · exact before
    · rw [(react_by_command sha256 config.state answers message (steady rfl).1).2] at sent
      exact absurd sent ((command_steady _ _ (steady rfl).2 noEnd).2 _)

theorem stage_of_handled (running : next.state.exited .command = false) : Stage next := by
  rcases running_of_handled handled running with ⟨ran, ordinary⟩
  by_cases ending : message = .loginControllerEnd
  · exact staged.stage_of_end handled ending ran
  · by_cases welcome : receiver = .command ∧ message = .performWelcome
    · exact staged.stage_of_welcome handled welcome.2 welcome.1 ran
    · exact staged.stage_of_other handled ran
        (fun own => ⟨ordinary own, fun equal => welcome ⟨own, equal⟩⟩) ending

end Step

/-- A step that lets no scrubbed password in keeps the stages in order. -/
theorem step {sha256 : ByteString → ByteString} {event : SessionEvent} (staged : Staged config)
    (permitted : NoBlankReply config event)
    (taken : (session sha256).step config event = some next) : Staged next := by
  have invariant := staged.invariant.step taken
  rcases ActorSystem.step_cases taken with
    ⟨receiver, sender, answers, message, rfl, handled⟩ | ⟨chosen, actor, sends, -, moved⟩
  · exact ⟨invariant, staged.endsOnce_of_handled handled permitted,
      staged.defaultAlive_of_handled handled, staged.stage_of_handled handled⟩
  · have equal := Option.some.inj moved.moved
    simp only [Prod.mk.injEq] at equal
    rcases equal with ⟨state, rfl, rfl⟩
    have kept : ∀ receiver sender, sender ≠ .main →
        (next.mail receiver sender).history = (config.mail receiver sender).history :=
      fun receiver sender other => moved.turn.history_of_silent fun same => absurd same other
    refine ⟨invariant, ?_, ?_, ?_⟩
    · rw [kept _ _ (by simp)]
      exact staged.endsOnce
    · rw [kept _ _ (by simp), ← state]
      exact staged.defaultAlive
    · intro running
      rw [← state] at running
      apply (staged.stage running).transfer
      · rw [state]
      · rw [moved.received]
      · rw [kept _ _ (by simp)]
        exact id

end Staged

/-- In every run in which no login controller that has ended its login is given
its scrubbed password, the session keeps its controller. -/
theorem keepsController_throughout (sha256 : ByteString → ByteString) (id : Nat)
    (comm : CommStatic) (events : List SessionEvent)
    (guarded : (session sha256).step.Guarded NoBlankReply (openSession id comm) events) :
    (session sha256).step.Throughout KeepsController (openSession id comm) events := by
  have staged : (session sha256).step.Throughout Staged (openSession id comm) events :=
    StepFunction.Guarded.throughout _ (fun _ _ _ holds permitted taken =>
      holds.step permitted taken) (.opening id comm) guarded
  exact staged.mono _ fun _ holds => holds.keepsController

/-! ## Two sessions -/

/-- A turn in which the outside has nothing to say. -/
def quiet : Answers where
  sends := []
  peeked := -1
  reading := none
  draws := Security.zeroDraws

/-- A turn in which a line is read. -/
def typing (line : ReadBytes) : Answers :=
  { quiet with peeked := line.bytes.length, reading := some line }

/-- From the welcome to the first prompt and the poll behind it. -/
def welcoming : List SessionEvent := [
  .handle .connection .server quiet,
  .handle .command .connection quiet,
  .handle (.loginController 0) .command quiet,
  .handle .command (.loginController 0) quiet,
  .handle .connection .command quiet]

/-- The lines are read, forwarded and answered one kind after the other, and the
command actor handles what the login controller has sent. -/
def typed (lines : List ReadBytes) (answers : Nat) : List SessionEvent :=
  welcoming ++ lines.map (fun line => .handle .connection .connection (typing line)) ++
    List.replicate lines.length (.handle .command .connection quiet) ++
    List.replicate lines.length (.handle (.loginController 0) .command quiet) ++
    List.replicate answers (.handle .command (.loginController 0) quiet)

def plainSession : List SessionEvent :=
  typed [.of (text "nick\n"), .of (text "p\n"), .of (text "p\n")] 9

theorem keepsController_of_plainSession :
    (session Security.sampleSha256).step.Throughout KeepsController
      (openSession 7 ⟨4, by decide⟩) plainSession :=
  keepsController_throughout Security.sampleSha256 7 ⟨4, by decide⟩ plainSession (by decide)

/-- One more blank is typed before the login has been handed over. -/
def typedAhead : List SessionEvent :=
  typed [.of (text "nick\n"), .of (text "p\n"), .of (text "p\n"), .of (text " \n")] 14

/-- The second end kills the default controller and leaves it active. -/
theorem not_keepsController_of_typedAhead :
    ¬ (session Security.sampleSha256).step.Throughout KeepsController
      (openSession 7 ⟨4, by decide⟩) typedAhead := by
  intro throughout
  have view : ((session Security.sampleSha256).step.execute (openSession 7 ⟨4, by decide⟩)
      typedAhead).map (fun config => (config.state.command.activeController,
        (config.mail .defaultController .command).history,
        (config.mail .command .connection).received.head?,
        config.state.exited .command)) =
      some (some .defaultController, [.exit], some .performWelcome, false) := by
    decide
  rcases Option.map_eq_some_iff.mp view with ⟨final, reached, equal⟩
  simp only [Prod.mk.injEq] at equal
  rcases equal with ⟨active, exits, welcomed, running⟩
  have kept := throughout.final _ reached
  rcases (kept (List.mem_of_mem_head? welcomed) running).1 with ⟨controller, current, alive⟩
  rw [active, Option.some.injEq] at current
  subst current
  exact alive ⟨.command, by rw [exits]; exact List.mem_cons_self⟩

end Pmud.System
