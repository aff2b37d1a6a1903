import Pmud.System.Session

/-! # What holds in every session

Messages stay within the table of who speaks to whom, and at most one
`PerformWelcome` reaches the command actor, so there is one login controller.
-/

namespace Pmud.System

open Pmud.Foundation Pmud.Net Pmud.Controllers

/-! ## What single turns send -/

/-- The connection actor passes each welcome on once. -/
theorem connection_welcomes (connection : ConnectionActor) (socket : Socket)
    (message : Message) :
    (connection.receive socket message).sends.count (.command, .performWelcome) =
      if message = .performWelcome then 1 else 0 := by
  cases message with
  | fromUserGetInput =>
      rw [if_neg (by simp), List.count_eq_zero]
      intro member
      simp only [ConnectionActor.receive, ConnectionActor.fromUserGetInput] at member
      split at member
      · split at member
        · split at member
          · simp at member
          · simp at member
        · split at member
          · simp at member
          · split at member
            · simp at member
            · simp at member
      · simp at member
  | _ => simp [ConnectionActor.receive, ConnectionActor.goodbyeConnection]

/-- A login controller ends its login only in answer to its own password. -/
theorem login_ends (sha256 : ByteString → ByteString) (login : LoginController)
    (draws : Security.Draws) (message : Message) :
    (login.receive sha256 draws message).2.count (.command, .loginControllerEnd) ≤
      if message = .onUserInput login.password then 1 else 0 := by
  cases message with
  | onUserInput input =>
      simp only [LoginController.receive, LoginController.onUserInput]
      split
      · simp [UserClient.emitUser, UserClient.promptUser]
      · split
        · simp [UserClient.emitUser, UserClient.promptUser]
        · split
          · rename_i equal
            simp [UserClient.emitUser, LoginController.recordEventUserCreate,
              UserClient.endController, equal]
          · simp [UserClient.emitUser, UserClient.promptUser]
  | _ => simp [LoginController.receive, LoginController.loginControllerStart,
      UserClient.promptUser]

section Command

variable (command : CommandActor) (message : Message)

/-- Only a welcome and the end of a login change the command actor, and only the
latter makes it send an exit message. -/
theorem command_steady (noWelcome : message ≠ .performWelcome)
    (noEnd : message ≠ .loginControllerEnd) :
    (command.receive message).1 = command ∧
      ∀ controller, (controller, Message.exit) ∉ (command.receive message).2 := by
  cases message with
  | performWelcome => exact absurd rfl noWelcome
  | loginControllerEnd => exact absurd rfl noEnd
  | onUserInput input =>
      cases active : command.activeController with
      | none => simp [CommandActor.receive, active, UserClient.promptUser]
      | some controller => simp [CommandActor.receive, active]
  | _ => simp [CommandActor.receive, UserClient.promptUser, UserClient.emitUser]

omit message in
theorem mem_exitActive {command} {controller : ActorId} {content : Message}
    (sent : (controller, content) ∈ CommandActor.exitActive command) :
    command.activeController = some controller ∧ content = .exit := by
  cases active : command.activeController with
  | none => simp [CommandActor.exitActive, active] at sent
  | some other =>
      simp only [CommandActor.exitActive, active, Option.map_some, Option.toList_some,
        List.mem_singleton, Prod.mk.injEq] at sent
      exact ⟨by rw [sent.1], sent.2⟩

/-- What a command actor sends to a login controller goes to the active one or to
the one it has just spawned. -/
theorem command_addresses {serial : Nat} {content : Message}
    (sent : (.loginController serial, content) ∈ (command.receive message).2) :
    command.activeController = some (.loginController serial) ∨
      message = .performWelcome ∧ serial = command.spawned := by
  cases message with
  | performWelcome =>
      simp only [CommandActor.receive, List.mem_singleton, Prod.mk.injEq,
        ActorId.loginController.injEq] at sent
      exact .inr ⟨rfl, sent.1⟩
  | onUserInput input =>
      cases active : command.activeController with
      | none => simp [CommandActor.receive, active, UserClient.promptUser] at sent
      | some controller =>
          simp only [CommandActor.receive, active, List.mem_singleton, Prod.mk.injEq] at sent
          exact .inl (by rw [sent.1])
  | loginControllerEnd =>
      left
      rcases List.mem_append.mp sent with exiting | prompting
      · exact (mem_exitActive exiting).1
      · cases List.mem_singleton.mp prompting
  | _ => simp [CommandActor.receive, UserClient.promptUser, UserClient.emitUser] at sent

theorem command_spawned :
    (command.receive message).1.spawned =
      command.spawned + if message = .performWelcome then 1 else 0 := by
  cases message with
  | onUserInput input =>
      cases active : command.activeController with
      | none => simp [CommandActor.receive, active]
      | some controller => simp [CommandActor.receive, active]
  | _ => simp [CommandActor.receive]

/-- Where the active controller can come from. -/
theorem command_active {controller : ActorId}
    (active : controller ∈ (command.receive message).1.activeController) :
    controller ∈ command.activeController ∨
      message = .performWelcome ∧ controller = .loginController command.spawned ∨
        message = .loginControllerEnd ∧ controller = .defaultController := by
  by_cases welcome : message = .performWelcome
  · subst welcome
    exact .inr (.inl ⟨rfl, (Option.some.inj active).symm⟩)
  · by_cases ending : message = .loginControllerEnd
    · subst ending
      exact .inr (.inr ⟨rfl, (Option.some.inj active).symm⟩)
    · rw [(command_steady command message welcome ending).1] at active
      exact .inl active

end Command

/-! ## What a turn changes -/

section React

variable (sha256 : ByteString → ByteString) (state : SessionState) (receiver : ActorId)
  (answers : Answers) (message : Message)

theorem react_command (other : receiver ≠ .command) :
    (state.react sha256 receiver answers message).1.command = state.command := by
  unfold SessionState.react
  split
  · rfl
  · cases receiver with
    | command => exact absurd rfl other
    | _ => rfl

theorem react_exited {actor : ActorId}
    (alive : (state.react sha256 receiver answers message).1.exited actor = false) :
    state.exited actor = false ∧ (actor = receiver → message ≠ .exit) := by
  unfold SessionState.react at alive
  split at alive
  · simp only [SessionState.stop, Bool.or_eq_false_iff, decide_eq_false_iff_not] at alive
    exact ⟨alive.2, fun same => absurd same alive.1⟩
  · rename_i ordinary
    refine ⟨?_, fun _ => ordinary⟩
    cases receiver with
    | _ => exact alive

/-- The server has no handler in a session. -/
theorem react_server : (state.react sha256 .server answers message).2 = [] := by
  unfold SessionState.react
  split
  · rfl
  · rfl

/-- The command actor's own turn, while it runs on. -/
theorem react_by_command (ordinary : message ≠ .exit) :
    (state.react sha256 .command answers message).1.command =
        (state.command.receive message).1 ∧
      (state.react sha256 .command answers message).2 = (state.command.receive message).2 := by
  simp [SessionState.react, SessionState.receive, ordinary]

end React

/-! ## Which controllers there are -/

/-- What holds in every session, whatever is typed. -/
structure SessionInvariant (config : SessionConfiguration) : Prop where
  conforms : ActorSystem.Conforms (fun sender receiver message =>
    speaks sender receiver message = true) config
  greeted : (config.mail .connection .server).history = [.performWelcome]
  welcomed : (config.mail .command .connection).history.count .performWelcome =
    (config.mail .connection .server).received.count .performWelcome
  spawned : config.state.command.spawned =
    (config.mail .command .connection).received.count .performWelcome
  active : ∀ controller ∈ config.state.command.activeController,
    controller = .defaultController ∨
      ∃ serial < config.state.command.spawned, controller = .loginController serial
  unspawned : ∀ serial, config.state.command.spawned ≤ serial → ∀ sender,
    (config.mail (.loginController serial) sender).history = []
  silent : ∀ serial, config.state.command.spawned ≤ serial →
    (config.mail .command (.loginController serial)).history = []

namespace SessionInvariant

variable {config next : SessionConfiguration}

theorem valid (invariant : SessionInvariant config) :
    ∀ controller ∈ config.state.command.activeController, isController controller = true := by
  intro controller member
  rcases invariant.active controller member with rfl | ⟨serial, -, rfl⟩
  · rfl
  · rfl

/-- Only the server tells a connection actor to welcome, and only the
connection actor passes it on. -/
theorem welcome_source {sender receiver : ActorId}
    (spoken : speaks sender receiver .performWelcome = true) :
    sender = .server ∧ receiver = .connection ∨ sender = .connection ∧ receiver = .command := by
  cases sender with
  | server => cases receiver with
    | connection => exact .inl ⟨rfl, rfl⟩
    | _ => cases spoken
  | connection => cases receiver with
    | command => exact .inr ⟨rfl, rfl⟩
    | _ => cases spoken
  | _ => cases receiver with
    | _ => cases spoken

theorem end_source {sender receiver : ActorId}
    (spoken : speaks sender receiver .loginControllerEnd = true) :
    receiver = .command ∧ ∃ serial, sender = .loginController serial := by
  cases sender with
  | loginController serial => cases receiver with
    | command => exact ⟨rfl, serial, rfl⟩
    | _ => cases spoken
  | _ => cases receiver with
    | _ => cases spoken

theorem controller_source {sender controller : ActorId} {message : Message}
    (valid : isController controller = true)
    (spoken : speaks sender controller message = true) : sender = .command := by
  cases sender with
  | command => rfl
  | _ => cases controller with
    | loginController serial => cases spoken
    | defaultController => cases spoken
    | _ => cases valid

/-- One welcome, so one login controller at the most. -/
theorem single (invariant : SessionInvariant config) :
    (config.mail .command .connection).history.count .performWelcome ≤ 1 := by
  have received : (config.mail .connection .server).received.count .performWelcome ≤
      (config.mail .connection .server).history.count .performWelcome := by
    rw [← Channel.received_append_pending, List.count_append]
    omega
  rw [invariant.greeted] at received
  rw [invariant.welcomed]
  exact received

theorem spawned_le_one (invariant : SessionInvariant config) :
    config.state.command.spawned ≤ 1 := by
  have single := invariant.single
  rw [← Channel.received_append_pending, List.count_append] at single
  rw [invariant.spawned]
  omega

/-- The server's welcome as a turn on a session without mail. -/
theorem opening_turn (id : Nat) (comm : CommStatic) :
    ActorSystem.Turn ⟨SessionState.create id comm, fun _ => .empty⟩ (openSession id comm)
      ActorId.server [(.connection, Message.performWelcome)] :=
  .opening _ _ _

theorem opening (id : Nat) (comm : CommStatic) : SessionInvariant (openSession id comm) where
  conforms := by
    refine ActorSystem.Conforms.turn ?_ (opening_turn id comm) (by simp [speaks])
    intro receiver sender message member
    cases member
  greeted := rfl
  welcomed := rfl
  spawned := rfl
  active := by simp [openSession, SessionState.create, CommandActor.create]
  unspawned := by
    intro serial _ sender
    rw [(opening_turn id comm).history_of_silent (by simp)]
    rfl
  silent := by
    intro serial _
    rw [(opening_turn id comm).history_of_silent (by simp)]
    rfl

section Step

variable {sha256 : ByteString → ByteString} {receiver sender : ActorId} {answers : Answers}
  {message : Message} (invariant : SessionInvariant config)
  (handled : ActorSystem.Handled (session sha256) config next receiver sender answers message)
include invariant handled

theorem spoken_of_handled : speaks sender receiver message = true :=
  invariant.conforms receiver sender message handled.mem_history

theorem conforms_of_handled : ActorSystem.Conforms (fun sender receiver message =>
    speaks sender receiver message = true) next :=
  invariant.conforms.turn handled.turn
    (react_speaks sha256 config.state invariant.valid receiver answers message)

omit invariant in
theorem state_of_handled :
    next.state = (config.state.react sha256 receiver answers message).1 := handled.state

omit invariant in
theorem turn_of_handled : ActorSystem.Turn config next receiver
    (config.state.react sha256 receiver answers message).2 := handled.turn

theorem greeted_of_handled : (next.mail .connection .server).history = [.performWelcome] := by
  rw [(turn_of_handled handled).history_of_silent, invariant.greeted]
  intro same
  subst same
  intro content sent
  rw [react_server] at sent
  cases sent

/-- Every welcome the connection actor takes is passed on. -/
theorem welcomed_of_handled :
    (next.mail .command .connection).history.count .performWelcome =
      (next.mail .connection .server).received.count .performWelcome := by
  have spoken := invariant.spoken_of_handled handled
  rw [handled.turn.count_history, invariant.welcomed]
  by_cases own : receiver = .connection
  · subst own
    have sent : (config.state.react sha256 .connection answers message).2.count
        (.command, .performWelcome) = if message = .performWelcome then 1 else 0 := by
      unfold SessionState.react
      split
      · rename_i ending
        subst ending
        rfl
      · exact connection_welcomes config.state.connection answers.socket message
    have sole : message = .performWelcome → sender = .server := by
      intro same
      subst same
      rcases welcome_source spoken with source | source
      · exact source.1
      · cases source.2
    rw [handled.count_of_source sole, if_pos rfl]
    exact congrArg _ sent
  · rw [if_neg (Ne.symm own), Nat.add_zero,
      handled.elsewhere .connection .server fun same => own same.1.symm]

/-- Every welcome the command actor takes spawns a login controller. -/
theorem spawned_of_handled : next.state.command.spawned =
    (next.mail .command .connection).received.count .performWelcome := by
  have spoken := invariant.spoken_of_handled handled
  by_cases own : receiver = .command
  · subst own
    have sole : message = .performWelcome → sender = .connection := by
      intro same
      subst same
      rcases welcome_source spoken with source | source
      · cases source.2
      · exact source.1
    rw [handled.count_of_source sole, ← invariant.spawned, handled.state]
    by_cases ending : message = .exit
    · subst ending
      rfl
    · have turn := (react_by_command sha256 config.state answers message ending).1
      exact (congrArg CommandActor.spawned turn).trans (command_spawned _ _)
  · have same := react_command sha256 config.state receiver answers message own
    rw [handled.elsewhere .command .connection fun same => own same.1.symm,
      ← invariant.spawned, handled.state]
    exact congrArg CommandActor.spawned same

theorem active_of_handled : ∀ controller ∈ next.state.command.activeController,
    controller = .defaultController ∨
      ∃ serial < next.state.command.spawned, controller = .loginController serial := by
  rw [state_of_handled handled]
  by_cases own : receiver = .command
  · subst own
    by_cases ending : message = .exit
    · subst ending
      exact invariant.active
    · rw [(react_by_command sha256 config.state answers message ending).1]
      intro controller member
      rw [command_spawned]
      rcases command_active _ _ member with before | ⟨welcome, equal⟩ | ⟨-, equal⟩
      · rcases invariant.active controller before with default | ⟨serial, below, login⟩
        · exact .inl default
        · exact .inr ⟨serial, by omega, login⟩
      · exact .inr ⟨config.state.command.spawned, by simp [welcome], equal⟩
      · exact .inl equal
  · rw [react_command sha256 config.state receiver answers message own]
    exact invariant.active

omit invariant in
/-- No turn takes a login controller back. -/
theorem spawned_mono : config.state.command.spawned ≤ next.state.command.spawned := by
  rw [state_of_handled handled]
  by_cases own : receiver = .command
  · subst own
    by_cases ending : message = .exit
    · subst ending
      exact Nat.le_refl _
    · have added := congrArg CommandActor.spawned
        (react_by_command sha256 config.state answers message ending).1
      rw [command_spawned] at added
      omega
  · have same := react_command sha256 config.state receiver answers message own
    exact Nat.le_of_eq (congrArg CommandActor.spawned same).symm

theorem unspawned_of_handled : ∀ serial, next.state.command.spawned ≤ serial → ∀ source,
    (next.mail (.loginController serial) source).history = [] := by
  intro serial above source
  have before := Nat.le_trans (spawned_mono handled) above
  rw [(turn_of_handled handled).history_of_silent, invariant.unspawned serial before]
  intro same
  subst same
  intro content sent
  have spoken := react_speaks sha256 config.state invariant.valid source answers message _ sent
  obtain rfl : source = .command := controller_source rfl spoken
  have inactive : config.state.command.activeController ≠ some (.loginController serial) := by
    intro active
    rcases invariant.active _ active with equal | ⟨other, below, equal⟩
    · cases equal
    · cases equal
      omega
  by_cases ending : message = .exit
  · subst ending
    rcases List.mem_append.mp sent with exiting | last
    · exact inactive (mem_exitActive exiting).1
    · cases List.mem_singleton.mp last
  · have turn := react_by_command sha256 config.state answers message ending
    rw [turn.2] at sent
    rcases command_addresses _ _ sent with active | ⟨welcome, fresh⟩
    · exact inactive active
    · rw [state_of_handled handled, turn.1, command_spawned, if_pos welcome] at above
      omega

theorem silent_of_handled : ∀ serial, next.state.command.spawned ≤ serial →
    (next.mail .command (.loginController serial)).history = [] := by
  intro serial above
  have before := Nat.le_trans (spawned_mono handled) above
  rw [(turn_of_handled handled).history_of_silent, invariant.silent serial before]
  intro same
  subst same
  -- a controller that is not spawned has no mail to handle
  have waited := handled.mem_history
  rw [invariant.unspawned serial before sender] at waited
  cases waited

theorem of_handled : SessionInvariant next where
  conforms := invariant.conforms_of_handled handled
  greeted := invariant.greeted_of_handled handled
  welcomed := invariant.welcomed_of_handled handled
  spawned := invariant.spawned_of_handled handled
  active := invariant.active_of_handled handled
  unspawned := invariant.unspawned_of_handled handled
  silent := invariant.silent_of_handled handled

end Step

/-- Main's goodbye changes nothing that matters here. -/
theorem of_moved {sha256 : ByteString → ByteString} (invariant : SessionInvariant config)
    {actor : ActorId} {sends : Sends}
    (moved : ActorSystem.Moved (session sha256) config next () actor sends) :
    SessionInvariant next := by
  have chosen := Option.some.inj moved.moved
  simp only [Prod.mk.injEq] at chosen
  rcases chosen with ⟨state, rfl, rfl⟩
  have kept : ∀ receiver sender, sender ≠ .main →
      (next.mail receiver sender).history = (config.mail receiver sender).history :=
    fun receiver sender other => moved.turn.history_of_silent fun same => absurd same other
  refine ⟨invariant.conforms.turn moved.turn (by simp [speaks]), ?_, ?_, ?_, ?_, ?_, ?_⟩
  · rw [kept _ _ (by simp), invariant.greeted]
  · rw [kept _ _ (by simp), moved.received, invariant.welcomed]
  · rw [moved.received, ← invariant.spawned, ← state]
  · rw [← state]
    exact invariant.active
  · intro serial above source
    rw [← state] at above
    rw [moved.turn.history_of_silent (by simp), invariant.unspawned serial above]
  · intro serial above
    rw [← state] at above
    rw [kept _ _ (by simp), invariant.silent serial above]

theorem step {sha256 : ByteString → ByteString} (invariant : SessionInvariant config)
    {event : SessionEvent} (taken : (session sha256).step config event = some next) :
    SessionInvariant next := by
  rcases ActorSystem.step_cases taken with
    ⟨receiver, sender, answers, message, -, handled⟩ | ⟨chosen, actor, sends, -, moved⟩
  · exact invariant.of_handled handled
  · exact invariant.of_moved moved

end SessionInvariant

end Pmud.System
