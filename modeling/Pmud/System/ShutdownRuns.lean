import Pmud.System.ShutdownRegistry

/-! # Who is told goodbye

Main tells goodbye to every connection actor that is registered when it copies
the registry. The ones that are missed are those that are spawned after the copy
was made.
-/

namespace Pmud.System

open Pmud.Foundation Pmud.Net

/-- When main has the server's reply, every connection actor ever spawned has
handled a goodbye or, still running, has one queued. -/
def CompleteShutdown (config : ShutdownConfiguration) : Prop :=
  config.state.phase = .finished true → ∀ serial < config.state.connections.length,
    Parted config serial ∨ config.state.exited serial = false ∧
      ∃ sender, .goodbyeConnection ∈ (config.mail (.connection serial) sender).pending

/-- Main has not copied the registry yet. -/
def MainPhase.beforeCopy : MainPhase → Bool
  | .starting => true
  | .waiting => true
  | _ => false

/-- No connection is accepted once the registry has been copied. -/
def NoLateAccept (config : ShutdownConfiguration) : ShutdownEvent → Prop
  | .handle .server sender answers =>
      (config.mail .server sender).pending.head? = some .acceptConnection →
        0 < config.state.server.sockfd → answers.server.accept.isSome →
          config.state.phase.beforeCopy
  | _ => True

instance (config : ShutdownConfiguration) : ∀ event, Decidable (NoLateAccept config event)
  | .handle .server sender answers =>
      inferInstanceAs (Decidable ((config.mail .server sender).pending.head? =
          some .acceptConnection → 0 < config.state.server.sockfd →
        answers.server.accept.isSome → config.state.phase.beforeCopy))
  | .handle .main _ _ => .isTrue trivial
  | .handle (.connection _) _ _ => .isTrue trivial
  | .handle (.command _) _ _ => .isTrue trivial
  | .handle .runtime _ _ => .isTrue trivial
  | .move _ => .isTrue trivial

/-! ## The phases of the shutdown -/

/-- What main has done so far about the connection actors. -/
def PhaseInvariant (config : ShutdownConfiguration) : Prop :=
  match config.state.phase with
  | .starting => True
  | .waiting => True
  | .quitting todo => ∀ serial name, config.state.names[serial]? = some name →
      (name, .connection serial) ∈ todo ∨ Told config serial
  | .killing => ∀ serial < config.state.names.length, Told config serial
  | .finished result => result = true → ∀ serial < config.state.names.length,
      Told config serial

namespace PhaseInvariant

variable {config next : ShutdownConfiguration} {event : ShutdownEvent}

theorem of_beforeCopy (early : config.state.phase.beforeCopy = true) :
    PhaseInvariant config := by
  unfold PhaseInvariant
  cases phase : config.state.phase with
  | starting => trivial
  | waiting => trivial
  | _ =>
      rw [phase] at early
      cases early

theorem of_steady (invariant : PhaseInvariant config)
    (taken : shutdown.step config event = some next)
    (phase : next.state.phase = config.state.phase)
    (names : next.state.names = config.state.names) : PhaseInvariant next := by
  unfold PhaseInvariant at invariant ⊢
  rw [phase, names]
  cases current : config.state.phase with
  | starting => trivial
  | waiting => trivial
  | quitting todo =>
      rw [current] at invariant
      intro serial name found
      exact (invariant serial name found).imp_right (Told.step taken)
  | killing =>
      rw [current] at invariant
      exact fun serial within => (invariant serial within).step taken
  | finished result =>
      rw [current] at invariant
      exact fun success serial within => (invariant success serial within).step taken

theorem of_main {sender : Role} {answers : ShutdownAnswers} {message : Message}
    (invariant : PhaseInvariant config) (taken : shutdown.step config event = some next)
    (handled : ActorSystem.Handled shutdown config next .main sender answers message) :
    PhaseInvariant next := by
  have state := RegistryInvariant.state_of_handled handled
  have phase : next.state.phase = ShutdownState.mainReceives config.state.phase message := by
    rw [state]
    rfl
  have names : next.state.names = config.state.names := by
    rw [state]
    rfl
  cases message with
  | serverStarted status =>
      simp only [ShutdownState.mainReceives] at phase
      split at phase
      · split at phase
        · simp [PhaseInvariant, phase]
        · simp [PhaseInvariant, phase]
      · exact invariant.of_steady taken phase names
  | serverStopped status =>
      simp only [ShutdownState.mainReceives] at phase
      split at phase
      · rename_i killing
        simp only [PhaseInvariant, killing] at invariant
        simp only [PhaseInvariant, phase, names]
        exact fun _ serial within => (invariant serial within).step taken
      · exact invariant.of_steady taken phase names
  | _ => exact invariant.of_steady taken phase names

theorem of_server {sender : Role} {answers : ShutdownAnswers} {message : Message}
    (invariant : PhaseInvariant config) (taken : shutdown.step config event = some next)
    (permitted : NoLateAccept config (.handle .server sender answers))
    (handled : ActorSystem.Handled shutdown config next .server sender answers message) :
    PhaseInvariant next := by
  have state := RegistryInvariant.state_of_handled handled
  by_cases ending : message = .exit
  · subst ending
    apply invariant.of_steady taken
    · rw [state]
      rfl
    · rw [state]
      rfl
  · have receives : next.state = (config.state.serverReceives answers message).1 := by
      rw [state]
      simp [ShutdownState.react, ending]
    cases accepted : (config.state.server.receive answers.server message).accepted with
    | none =>
        apply invariant.of_steady taken
        · rw [receives]
          simp [ShutdownState.serverReceives, accepted]
        · rw [receives]
          simp [ShutdownState.serverReceives, accepted, ShutdownState.names]
    | some descriptor =>
        rcases server_accepts _ _ _ accepted with ⟨rfl, listening, found⟩
        apply of_beforeCopy
        have early := permitted handled.waited listening (by rw [found]; rfl)
        rw [receives]
        simpa [ShutdownState.serverReceives, accepted, ShutdownState.spawn] using early

theorem of_connection {sender : Role} {answers : ShutdownAnswers} {message : Message}
    {serial : Nat} (invariant : PhaseInvariant config)
    (taken : shutdown.step config event = some next)
    (handled : ActorSystem.Handled shutdown config next (.connection serial) sender answers
      message) : PhaseInvariant next := by
  have state := RegistryInvariant.state_of_handled handled
  simp only [ShutdownState.react] at state
  split at state
  · apply invariant.of_steady taken
    · rw [state]
    · rw [state]
      rfl
  · split at state
    · apply invariant.of_steady taken
      · rw [state]
      · rw [state]
    · rename_i actor found
      apply invariant.of_steady taken
      · rw [state]
        rfl
      · rw [state]
        exact config.state.names_connectionReceives found answers message

/-- The copy holds everyone who has not parted. -/
theorem of_interrupt (registry : RegistryInvariant config) {entries : List (String × Role)}
    (taken : shutdown.step config event = some next)
    (copied : entries.Perm config.state.registry)
    (state : next.state = { config.state with phase := .quitting entries }) :
    PhaseInvariant next := by
  unfold PhaseInvariant
  rw [state]
  intro serial name found
  rcases registry.registered serial name found with entry | parted
  · exact .inl (copied.mem_iff.mpr entry)
  · exact .inr (parted.told.step taken)

/-- A visit that tells the actor of an entry under a connection's name. -/
theorem of_visit (registry : RegistryInvariant config) (invariant : PhaseInvariant config)
    {name : String} {visited : Role} {rest : List (String × Role)}
    (taken : shutdown.step config event = some next)
    (quitting : config.state.phase = .quitting ((name, visited) :: rest))
    (state : next.state = { config.state with phase := .quitting rest })
    (tells : matchesConnectionRegex name = true → ∀ serial, visited = .connection serial →
      Told next serial) : PhaseInvariant next := by
  unfold PhaseInvariant at invariant ⊢
  rw [quitting] at invariant
  rw [state]
  intro serial registered found
  rcases invariant serial registered found with entry | told
  · rcases List.mem_cons.mp entry with head | later
    · right
      simp only [Prod.mk.injEq] at head
      rcases registry.named registered (List.mem_of_getElem? found) with ⟨id, -, equal⟩
      refine tells ?_ serial head.2.symm
      rw [← head.1, equal]
      exact matchesConnectionRegex_registeryName id
    · exact .inl later
  · exact .inr (told.step taken)

/-- Behind the last entry everyone has been told. -/
theorem of_kill (invariant : PhaseInvariant config)
    (taken : shutdown.step config event = some next)
    (visited : config.state.phase = .quitting [])
    (state : next.state = { config.state with phase := .killing }) : PhaseInvariant next := by
  unfold PhaseInvariant at invariant ⊢
  rw [visited] at invariant
  rw [state]
  intro serial within
  rcases invariant serial _ (List.getElem?_eq_getElem within) with listed | told
  · cases listed
  · exact told.step taken

theorem of_move (registry : RegistryInvariant config) (invariant : PhaseInvariant config)
    {chosen : ShutdownMove} {actor : Role} {sends : List (Role × Message)}
    (taken : shutdown.step config event = some next)
    (moved : ActorSystem.Moved shutdown config next chosen actor sends) :
    PhaseInvariant next := by
  have turn := moved.turn
  have moves := ShutdownState.moves_of_move moved.moved
  generalize after : next.state = state at moves
  cases moves with
  | interrupt waiting copied => exact of_interrupt registry taken copied after
  | tell quitting connection =>
      apply of_visit registry invariant taken quitting after
      rintro - serial rfl
      exact ⟨.main, turn.mem_history.mpr (.inr ⟨rfl, List.mem_cons_self⟩)⟩
  | skip quitting other =>
      apply of_visit registry invariant taken quitting after
      intro connection
      rw [other] at connection
      cases connection
  | kill visited => exact invariant.of_kill taken visited after
  | startTimeout starting => simp [PhaseInvariant, after]
  | killTimeout killing => simp [PhaseInvariant, after]
  | output within emits => exact invariant.of_steady taken (by rw [after]) (by rw [after])

theorem step (registry : RegistryInvariant config) (invariant : PhaseInvariant config)
    (permitted : NoLateAccept config event) (taken : shutdown.step config event = some next) :
    PhaseInvariant next := by
  rcases ActorSystem.step_cases taken with
    ⟨receiver, sender, answers, message, rfl, handled⟩ | ⟨chosen, actor, sends, -, moved⟩
  · cases receiver with
    | main => exact invariant.of_main taken handled
    | server => exact invariant.of_server taken permitted handled
    | connection serial => exact invariant.of_connection taken handled
    | command serial => cases handled.running
    | runtime => cases handled.running
  · exact of_move registry invariant taken moved

end PhaseInvariant

theorem completeShutdown_of {config : ShutdownConfiguration}
    (registry : RegistryInvariant config) (invariant : PhaseInvariant config) :
    CompleteShutdown config := by
  intro finished serial within
  simp only [PhaseInvariant, finished] at invariant
  rcases invariant trivial serial (by simpa [ShutdownState.names] using within) with
    ⟨sender, sent⟩
  rw [← Channel.received_append_pending, List.mem_append] at sent
  rcases sent with handled | queued
  · exact .inl ⟨sender, handled⟩
  · cases exited : config.state.exited serial with
    | true => exact .inl (registry.gone serial exited)
    | false => exact .inr ⟨rfl, sender, queued⟩

/-- In every run in which no connection is accepted once main has copied the
registry, the shutdown is complete. -/
theorem completeShutdown_throughout (names : List String) (lastId : Nat)
    (events : List ShutdownEvent)
    (guarded : shutdown.step.Guarded NoLateAccept (openShutdown names lastId) events) :
    shutdown.step.Throughout CompleteShutdown (openShutdown names lastId) events := by
  have both : shutdown.step.Throughout
      (fun config => RegistryInvariant config ∧ PhaseInvariant config)
      (openShutdown names lastId) events :=
    StepFunction.Guarded.throughout _
      (fun _ _ _ holds permitted taken =>
        ⟨holds.1.step taken, PhaseInvariant.step holds.1 holds.2 permitted taken⟩)
      ⟨.opening names lastId, trivial⟩ guarded
  exact both.mono _ fun _ holds => completeShutdown_of holds.1 holds.2

/-! ## Who says goodbye -/

/-- Only main and the connection actor itself say goodbye to it. -/
def goodbyeSource (sender receiver : Role) (message : Message) : Prop :=
  ∀ serial, receiver = .connection serial → message = .goodbyeConnection →
    sender = .main ∨ sender = .connection serial

theorem goodbyeSource_of_react (state : ShutdownState) (receiver : Role)
    (answers : ShutdownAnswers) (message : Message) :
    ∀ sent ∈ (state.react receiver answers message).2, goodbyeSource receiver sent.1 sent.2 := by
  intro sent member serial addressed goodbye
  rcases sent with ⟨addressee, content⟩
  subst addressed goodbye
  cases receiver with
  | main => exact .inl rfl
  | server => cases ShutdownState.server_only_welcomes member
  | connection own =>
      right
      simp only [ShutdownState.react] at member
      have addressed : ∀ {sends : Sends}, (Role.connection serial, Message.goodbyeConnection) ∈
          sends.map (fun sent => (Role.of own sent.1, sent.2)) → own = serial := by
        intro sends inside
        rcases List.mem_map.mp inside with ⟨sent, -, equal⟩
        exact (Role.of_eq_connection (Prod.mk.inj equal).1).2
      split at member
      · rw [addressed member]
      · split at member
        · cases member
        · rw [addressed member]
  | command own => cases member
  | runtime => cases member

theorem goodbyeSource_throughout (names : List String) (lastId : Nat)
    (events : List ShutdownEvent) :
    shutdown.step.Throughout (ActorSystem.Conforms goodbyeSource) (openShutdown names lastId)
      events := by
  apply StepFunction.throughout_of_preserved
  · intro config event next conforms taken
    rcases ActorSystem.step_cases taken with
      ⟨receiver, sender, answers, message, -, handled⟩ | ⟨chosen, actor, sends, -, moved⟩
    · exact conforms.turn handled.turn (goodbyeSource_of_react _ _ _ _)
    · exact conforms.turn moved.turn fun sent member serial _ goodbye =>
        .inl (((move_frame moved.moved).2 sent member).2 goodbye)
  · refine ActorSystem.Conforms.turn ?_ (.opening _ _ _) ?_
    · intro receiver sender message member
      cases member
    · intro sent member serial connection
      rw [List.mem_singleton.mp member] at connection
      cases connection

/-! ## Two shutdowns -/

/-- The server opens descriptor 3, and `accept` hands out what it is given. -/
def serving (accept : Option Descriptor) : ShutdownAnswers where
  server := { socket := 3, bind := 0, listen := 0, errno := 0, accept := accept }
  skipped := 0
  sends := []
  peeked := -1
  reading := none

def starting : List ShutdownEvent := [
  .handle .server .main (serving none),
  .handle .main .server (serving none)]

def stopping : List ShutdownEvent := [
  .handle .server .main (serving none),
  .handle .main .server (serving none)]

/-- The connection is accepted before the interrupt. -/
def earlyAccept : List ShutdownEvent :=
  starting ++ [
    .handle .server .server (serving (some ⟨4, by decide⟩)),
    .move (.interrupt [("Connection(1)", .connection 0)]),
    .move .visit,
    .move .visit] ++ stopping

theorem completeShutdown_of_earlyAccept :
    shutdown.step.Throughout CompleteShutdown (openShutdown [] 0) earlyAccept :=
  completeShutdown_throughout [] 0 earlyAccept (by decide)

/-- The connection is accepted between the visits and the server's goodbye. -/
def lateAccept : List ShutdownEvent :=
  starting ++ [
    .move (.interrupt []),
    .move .visit,
    .handle .server .server (serving (some ⟨4, by decide⟩))] ++ stopping

theorem not_completeShutdown_of_lateAccept :
    ¬ shutdown.step.Throughout CompleteShutdown (openShutdown [] 0) lateAccept := by
  intro throughout
  have view : (shutdown.step.execute (openShutdown [] 0) lateAccept).map (fun config =>
      (config.state.phase, config.state.connections.length,
        (config.mail (.connection 0) .main).history,
        (config.mail (.connection 0) (.connection 0)).history)) =
      some (.finished true, 1, [], []) := by
    decide
  rcases Option.map_eq_some_iff.mp view with ⟨final, reached, equal⟩
  simp only [Prod.mk.injEq] at equal
  rcases equal with ⟨finished, one, fromMain, fromItself⟩
  have sources := (goodbyeSource_throughout [] 0 lateAccept).final _ reached
  have untold : ∀ sender,
      .goodbyeConnection ∉ (final.mail (.connection 0) sender).history := by
    intro sender member
    rcases sources _ sender _ member 0 rfl rfl with rfl | rfl
    · rw [fromMain] at member
      cases member
    · rw [fromItself] at member
      cases member
  rcases throughout.final _ reached finished 0 (by omega) with
    ⟨sender, received⟩ | ⟨-, sender, pending⟩
  · exact untold sender (List.mem_of_mem_take received)
  · exact untold sender (List.mem_of_mem_drop pending)

end Pmud.System
