import Std.Data.String.ToNat
import Pmud.System.Shutdown

/-! # The registry during the shutdown

A connection actor puts itself in the registry under a name of its own, and
leaves it only by handling a goodbye.
-/

namespace Pmud.System

open Pmud.Foundation Pmud.Net

/-! ## The names of connection actors -/

theorem toList_registeryName (id : Nat) :
    (ConnectionActor.registeryName id).toList =
      "Connection(".toList ++ (Nat.toDigits 10 id ++ [')']) := by
  have digits : (toString id).toList = Nat.toDigits 10 id := by
    simp [Nat.toString_eq_repr, Nat.repr]
  rw [ConnectionActor.registeryName, String.toList_append, String.toList_append,
    List.append_assoc, digits]
  rfl

theorem matchesConnectionRegex_registeryName (id : Nat) :
    matchesConnectionRegex (ConnectionActor.registeryName id) = true := by
  have digits : ∀ c ∈ Nat.toDigits 10 id, c.isDigit = true := fun c member =>
    Nat.isDigit_of_mem_toDigits (by decide) (by decide) member
  have filled : Nat.toDigits 10 id ≠ [] := Nat.toDigits_ne_nil
  have taken : (Nat.toDigits 10 id ++ [')']).takeWhile Char.isDigit = Nat.toDigits 10 id := by
    rw [List.takeWhile_append_of_pos digits]
    simp
  simp only [matchesConnectionRegex, toList_registeryName, List.take_left, List.drop_left, taken]
  simp [filled]

theorem registeryName_injective {first second : Nat}
    (equal : ConnectionActor.registeryName first = ConnectionActor.registeryName second) :
    first = second := by
  have characters := congrArg String.toList equal
  simp only [ConnectionActor.registeryName, String.toList_append] at characters
  have digits := List.append_cancel_left (List.append_cancel_right characters)
  exact Nat.repr_injective (String.toList_injective digits)

/-! ## What a connection actor does to its entry -/

section Connection

variable (actor : ConnectionActor) (socket : Socket) (message : Message)

theorem receive_registeryId :
    (actor.receive socket message).actor.registeryId = actor.registeryId := by
  cases message with
  | fromUserGetInput =>
      simp only [ConnectionActor.receive, ConnectionActor.fromUserGetInput]
      split
      · split
        · split
          · rfl
          · rfl
        · split
          · rfl
          · split
            · rfl
            · rfl
      · rfl
  | _ => rfl

/-- Only a goodbye makes an actor erase its entry and end itself. -/
theorem receive_ordinary (other : message ≠ .goodbyeConnection) :
    (actor.receive socket message).erased = false ∧
      (.connection, .exit) ∉ (actor.receive socket message).sends := by
  cases message with
  | goodbyeConnection => exact absurd rfl other
  | fromUserGetInput =>
      simp only [ConnectionActor.receive, ConnectionActor.fromUserGetInput]
      split
      · split
        · split
          · simp
          · simp
        · split
          · simp
          · split
            · simp
            · simp
      · simp
  | _ => simp [ConnectionActor.receive]

end Connection

section Server

variable (server : ServerActor) (answers : ServerAnswers) (message : Message)

/-- All a server tells a connection actor is to welcome. -/
theorem server_welcomes {content : Message}
    (sent : (.connection, content) ∈ (server.receive answers message).sends) :
    content = .performWelcome := by
  cases message with
  | startServer =>
      simp only [ServerActor.receive, ServerActor.startServer] at sent
      split at sent
      · simp at sent
      · split at sent
        · simp at sent
        · split at sent
          · simp at sent
          · simp at sent
  | acceptConnection =>
      simp only [ServerActor.receive, ServerActor.acceptConnection] at sent
      split at sent
      · simp at sent
      · split at sent
        · simp at sent
        · simpa using sent
  | _ => simp [ServerActor.receive, ServerActor.goodbyeServer] at sent

theorem server_accepts {descriptor : Descriptor}
    (accepted : (server.receive answers message).accepted = some descriptor) :
    message = .acceptConnection ∧ 0 < server.sockfd ∧ answers.accept = some descriptor := by
  cases message with
  | startServer =>
      simp only [ServerActor.receive, ServerActor.startServer] at accepted
      split at accepted
      · cases accepted
      · split at accepted
        · cases accepted
        · split at accepted
          · cases accepted
          · cases accepted
  | acceptConnection =>
      simp only [ServerActor.receive, ServerActor.acceptConnection] at accepted
      split at accepted
      · cases accepted
      · rename_i listening
        split at accepted
        · cases accepted
        · rename_i found
          exact ⟨rfl, by omega, found.trans accepted⟩
  | _ => cases accepted

end Server

theorem Role.of_eq_connection {serial other : Nat} {actor : ActorId}
    (equal : Role.of serial actor = .connection other) :
    actor = .connection ∧ serial = other := by
  cases actor with
  | connection =>
      simp only [Role.of, Role.connection.injEq] at equal
      exact ⟨rfl, equal⟩
  | _ => cases equal

/-! ## Told and gone -/

/-- A goodbye has been sent to the connection actor. -/
def Told (config : ShutdownConfiguration) (serial : Nat) : Prop :=
  ∃ sender, .goodbyeConnection ∈ (config.mail (.connection serial) sender).history

/-- The connection actor has handled a goodbye. -/
def Parted (config : ShutdownConfiguration) (serial : Nat) : Prop :=
  ∃ sender, .goodbyeConnection ∈ (config.mail (.connection serial) sender).received

theorem Parted.told {config : ShutdownConfiguration} {serial : Nat}
    (parted : Parted config serial) : Told config serial := by
  rcases parted with ⟨sender, member⟩
  exact ⟨sender, List.mem_of_mem_take member⟩

section Mono

variable {config next : ShutdownConfiguration} {event : ShutdownEvent} {serial : Nat}
  (taken : shutdown.step config event = some next)
include taken

theorem Told.step (told : Told config serial) : Told next serial := by
  rcases told with ⟨sender, member⟩
  exact ⟨sender, ActorSystem.history_mono taken member⟩

theorem Parted.step (parted : Parted config serial) : Parted next serial := by
  rcases parted with ⟨sender, member⟩
  exact ⟨sender, ActorSystem.received_mono taken member⟩

end Mono

/-- The names of the connection actors, in the order they were spawned. -/
def ShutdownState.names (state : ShutdownState) : List String :=
  state.connections.map ConnectionActor.registeryId

/-- What holds of the connection actors and their entries in every run. -/
structure RegistryInvariant (config : ShutdownConfiguration) : Prop where
  named : ∀ name ∈ config.state.names,
    ∃ id ≤ config.state.lastId, name = ConnectionActor.registeryName id
  distinct : config.state.names.Nodup
  registered : ∀ serial name, config.state.names[serial]? = some name →
    (name, .connection serial) ∈ config.state.registry ∨ Parted config serial
  exits : ∀ serial sender, .exit ∈ (config.mail (.connection serial) sender).history →
    Parted config serial
  gone : ∀ serial, config.state.exited serial = true → Parted config serial

namespace ShutdownState

variable (state : ShutdownState)

theorem mem_put {registry : List (String × Role)} {name : String} {actor : Role}
    {entry : String × Role} (member : entry ∈ registry) (other : entry.1 ≠ name) :
    entry ∈ put registry name actor :=
  List.mem_cons_of_mem _ (List.mem_filter.mpr ⟨member, by simpa using other⟩)

theorem names_spawn (skipped : Nat) (descriptor : Descriptor) :
    (state.spawn skipped descriptor).names =
      state.names ++ [ConnectionActor.registeryName (state.lastId + skipped + 1)] := by
  simp [names, spawn, ConnectionActor.create]

theorem serverReceives_sends (answers : ShutdownAnswers) (message : Message) :
    (state.serverReceives answers message).2 =
      (state.server.receive answers.server message).sends.map fun sent =>
        (Role.of state.connections.length sent.1, sent.2) := by
  simp only [serverReceives]
  split
  · rfl
  · rfl

/-- The server has nothing but a welcome to say to a connection actor. -/
theorem server_only_welcomes {state : ShutdownState} {answers : ShutdownAnswers}
    {message content : Message} {serial : Nat}
    (member : (.connection serial, content) ∈ (state.react .server answers message).2) :
    content = .performWelcome := by
  simp only [ShutdownState.react] at member
  split at member
  · cases member
  · rw [ShutdownState.serverReceives_sends] at member
    rcases List.mem_map.mp member with ⟨⟨actor, content⟩, sent, equal⟩
    simp only [Prod.mk.injEq] at equal
    obtain ⟨rfl, -⟩ := Role.of_eq_connection equal.1
    rw [equal.2] at sent
    exact server_welcomes state.server answers.server message sent

theorem names_connectionReceives {serial : Nat} {actor : ConnectionActor}
    (found : state.connections[serial]? = some actor) (answers : ShutdownAnswers)
    (message : Message) :
    (state.connectionReceives serial actor answers message).1.names = state.names := by
  rcases List.getElem?_eq_some_iff.mp found with ⟨within, rfl⟩
  simp only [names, connectionReceives, List.map_set, receive_registeryId]
  rw [← List.getElem_map ConnectionActor.registeryId (h := by simpa using within)]
  exact List.set_getElem_self _

end ShutdownState

/-- Moves change the phase at the most. They tell no one to exit, and only main
says goodbye. -/
theorem move_frame {state after : ShutdownState} {chosen : ShutdownMove} {actor : Role}
    {sends : List (Role × Message)} (moved : state.move chosen = some (after, actor, sends)) :
    (∃ phase, after = { state with phase := phase }) ∧
      ∀ sent ∈ sends, sent.2 ≠ .exit ∧ (sent.2 = .goodbyeConnection → actor = .main) := by
  cases ShutdownState.moves_of_move moved with
  | interrupt waiting copied => exact ⟨⟨_, rfl⟩, by simp⟩
  | tell quitting connection => exact ⟨⟨_, rfl⟩, by simp⟩
  | skip quitting other => exact ⟨⟨_, rfl⟩, by simp⟩
  | kill visited => exact ⟨⟨_, rfl⟩, by simp⟩
  | startTimeout starting => exact ⟨⟨_, rfl⟩, by simp⟩
  | killTimeout killing => exact ⟨⟨_, rfl⟩, by simp⟩
  | output within emits =>
      refine ⟨⟨_, rfl⟩, ?_⟩
      rcases emits with ⟨text, rfl⟩ | ⟨text, rfl⟩
      · simp
      · simp

namespace RegistryInvariant

variable {config next : ShutdownConfiguration}

/-- A step that spawns no one and erases no entry keeps the invariant, if it
lets no one out who has not parted. -/
theorem of_steady (invariant : RegistryInvariant config) {event : ShutdownEvent}
    (taken : shutdown.step config event = some next)
    (names : next.state.names = config.state.names)
    (lastId : next.state.lastId = config.state.lastId)
    (registry : ∀ serial name, config.state.names[serial]? = some name →
      (name, .connection serial) ∈ config.state.registry →
        (name, .connection serial) ∈ next.state.registry ∨ Parted next serial)
    (exits : ∀ serial sender, .exit ∈ (next.mail (.connection serial) sender).history →
      .exit ∈ (config.mail (.connection serial) sender).history ∨ Parted next serial)
    (gone : ∀ serial, next.state.exited serial = true →
      config.state.exited serial = true ∨ Parted next serial) : RegistryInvariant next where
  named := by
    rw [names, lastId]
    exact invariant.named
  distinct := by
    rw [names]
    exact invariant.distinct
  registered := by
    intro serial name found
    rw [names] at found
    rcases invariant.registered serial name found with entry | parted
    · exact registry serial name found entry
    · exact .inr (parted.step taken)
  exits := by
    intro serial sender member
    rcases exits serial sender member with before | parted
    · exact (invariant.exits serial sender before).step taken
    · exact parted
  gone := by
    intro serial exited
    rcases gone serial exited with before | parted
    · exact (invariant.gone serial before).step taken
    · exact parted

/-- A step that touches neither the registry nor the connections. -/
theorem of_unchanged (invariant : RegistryInvariant config) {event : ShutdownEvent}
    (taken : shutdown.step config event = some next)
    (names : next.state.names = config.state.names)
    (lastId : next.state.lastId = config.state.lastId)
    (registry : next.state.registry = config.state.registry)
    (exited : next.state.exited = config.state.exited)
    (exits : ∀ serial sender, .exit ∈ (next.mail (.connection serial) sender).history →
      .exit ∈ (config.mail (.connection serial) sender).history) : RegistryInvariant next := by
  apply invariant.of_steady taken names lastId
  · intro serial name _ entry
    rw [registry]
    exact .inl entry
  · exact fun serial sender member => .inl (exits serial sender member)
  · intro serial gone
    rw [exited] at gone
    exact .inl gone

/-- An accepted connection is registered under a name of its own. -/
theorem of_accepted (invariant : RegistryInvariant config) {event : ShutdownEvent}
    (taken : shutdown.step config event = some next) {state : ShutdownState}
    {skipped : Nat} {descriptor : Descriptor}
    (spawned : next.state = state.spawn skipped descriptor)
    (connections : state.connections = config.state.connections)
    (lastId : state.lastId = config.state.lastId)
    (registry : state.registry = config.state.registry)
    (exited : state.exited = config.state.exited)
    (exits : ∀ serial sender, .exit ∈ (next.mail (.connection serial) sender).history →
      .exit ∈ (config.mail (.connection serial) sender).history) : RegistryInvariant next := by
  have names : next.state.names = config.state.names ++
      [ConnectionActor.registeryName (config.state.lastId + skipped + 1)] := by
    rw [spawned, ShutdownState.names_spawn, lastId, ShutdownState.names, connections]
    rfl
  have fresh : ∀ name ∈ config.state.names,
      name ≠ ConnectionActor.registeryName (config.state.lastId + skipped + 1) := by
    intro name member equal
    rcases invariant.named name member with ⟨id, below, rfl⟩
    have same := registeryName_injective equal
    omega
  refine ⟨?_, ?_, ?_, ?_, ?_⟩
  · intro name member
    rw [names, List.mem_append, List.mem_singleton] at member
    rcases member with before | now
    · rcases invariant.named name before with ⟨id, below, equal⟩
      exact ⟨id, by rw [spawned]; simp only [ShutdownState.spawn, lastId]; omega, equal⟩
    · exact ⟨_, by rw [spawned]; simp only [ShutdownState.spawn, lastId]; omega, now⟩
  · rw [names, List.nodup_append]
    refine ⟨invariant.distinct, by simp, ?_⟩
    intro name member other single
    rw [List.mem_singleton.mp single]
    exact fresh name member
  · intro serial name found
    have entries : next.state.registry = ShutdownState.put config.state.registry
        (ConnectionActor.registeryName (config.state.lastId + skipped + 1))
        (.connection config.state.connections.length) := by
      rw [spawned]
      simp only [ShutdownState.spawn, registry, connections, lastId]
    rw [entries]
    rw [names] at found
    by_cases old : serial < config.state.names.length
    · rw [List.getElem?_append_left old] at found
      rcases invariant.registered serial name found with entry | parted
      · exact .inl (ShutdownState.mem_put entry (fresh name (List.mem_of_getElem? found)))
      · exact .inr (parted.step taken)
    · rw [List.getElem?_append_right (Nat.le_of_not_lt old)] at found
      have position := (List.getElem?_eq_some_iff.mp found).1
      have last : serial = config.state.connections.length := by
        simp only [ShutdownState.names, List.length_map, List.length_singleton] at position old
        omega
      subst last
      left
      simp only [ShutdownState.names, List.length_map, Nat.sub_self, List.getElem?_cons_zero,
        Option.some.injEq] at found
      rw [← found]
      exact List.mem_cons_self
  · intro serial sender member
    exact (invariant.exits serial sender (exits serial sender member)).step taken
  · intro serial gone
    rw [spawned] at gone
    simp only [ShutdownState.spawn, exited] at gone
    exact (invariant.gone serial gone).step taken

section Handled

variable {receiver sender : Role} {answers : ShutdownAnswers} {message : Message}
  (invariant : RegistryInvariant config)
  (handled : ActorSystem.Handled shutdown config next receiver sender answers message)

include handled in
theorem state_of_handled :
    next.state = (config.state.react receiver answers message).1 := handled.state

include handled in
theorem turn_of_handled : ActorSystem.Turn config next receiver
    (config.state.react receiver answers message).2 := handled.turn

include handled in
/-- An actor that does not tell anyone to exit adds no exit message. -/
theorem exits_of_silent
    (silent : ∀ serial,
      (.connection serial, .exit) ∉ (config.state.react receiver answers message).2)
    (serial : Nat) (source : Role)
    (member : .exit ∈ (next.mail (.connection serial) source).history) :
    .exit ∈ (config.mail (.connection serial) source).history := by
  rw [(turn_of_handled handled).mem_history] at member
  rcases member with before | ⟨-, sent⟩
  · exact before
  · exact absurd sent (silent serial)

end Handled

theorem of_main {sender : Role} {answers : ShutdownAnswers} {message : Message}
    (invariant : RegistryInvariant config) {event : ShutdownEvent}
    (taken : shutdown.step config event = some next)
    (handled : ActorSystem.Handled shutdown config next .main sender answers message) :
    RegistryInvariant next := by
  have state := state_of_handled handled
  apply invariant.of_unchanged taken
  · rw [state]
    rfl
  · rw [state]
    rfl
  · rw [state]
    rfl
  · rw [state]
    rfl
  · exact exits_of_silent handled fun _ => List.not_mem_nil

/-- The server lets no connection actor out. -/
theorem server_silent (state : ShutdownState) (answers : ShutdownAnswers) (message : Message)
    (serial : Nat) : (.connection serial, .exit) ∉ (state.react .server answers message).2 := by
  intro member
  cases ShutdownState.server_only_welcomes member

theorem of_server {sender : Role} {answers : ShutdownAnswers} {message : Message}
    (invariant : RegistryInvariant config) {event : ShutdownEvent}
    (taken : shutdown.step config event = some next)
    (handled : ActorSystem.Handled shutdown config next .server sender answers message) :
    RegistryInvariant next := by
  have state := state_of_handled handled
  have exits := exits_of_silent handled (server_silent config.state answers message)
  -- a server that spawns no one changes neither the registry nor the connections
  have steady (kept : next.state.connections = config.state.connections ∧
      next.state.registry = config.state.registry ∧ next.state.exited = config.state.exited ∧
      next.state.lastId = config.state.lastId) : RegistryInvariant next := by
    rcases kept with ⟨connections, registry, exited, lastId⟩
    refine invariant.of_unchanged taken ?_ lastId registry exited exits
    rw [ShutdownState.names, connections, ShutdownState.names]
  by_cases ending : message = .exit
  · subst ending
    apply steady
    rw [state]
    exact ⟨rfl, rfl, rfl, rfl⟩
  · have receives : next.state = (config.state.serverReceives answers message).1 := by
      rw [state]
      simp [ShutdownState.react, ending]
    cases accepted : (config.state.server.receive answers.server message).accepted with
    | none =>
        apply steady
        rw [receives]
        simp [ShutdownState.serverReceives, accepted]
    | some descriptor =>
        have spawned : next.state = ShutdownState.spawn { config.state with
            server := (config.state.server.receive answers.server message).actor }
            answers.skipped descriptor := by
          rw [receives]
          simp only [ShutdownState.serverReceives, accepted]
        exact invariant.of_accepted taken spawned rfl rfl rfl rfl exits

/-- A connection actor that handles a goodbye has parted. -/
theorem parted_of_goodbye {sender : Role} {answers : ShutdownAnswers} {serial : Nat}
    (handled : ActorSystem.Handled shutdown config next (.connection serial) sender answers
      .goodbyeConnection) : Parted next serial :=
  ⟨sender, by rw [handled.received]; exact List.mem_append_right _ List.mem_cons_self⟩

/-- A connection actor that is told to exit is gone, and has parted before. -/
theorem of_connection_exit {sender : Role} {answers : ShutdownAnswers} {serial : Nat}
    (invariant : RegistryInvariant config) {event : ShutdownEvent}
    (taken : shutdown.step config event = some next)
    (handled : ActorSystem.Handled shutdown config next (.connection serial) sender answers
      .exit) : RegistryInvariant next := by
  have state := state_of_handled handled
  apply invariant.of_steady taken
  · rw [state]
    rfl
  · rw [state]
    rfl
  · intro other name _ entry
    rw [state]
    exact .inl entry
  · intro other source member
    refine .inl (exits_of_silent handled (fun third sent => ?_) other source member)
    simp [ShutdownState.react, ConnectionActor.onExit, Role.of] at sent
  · intro other gone
    by_cases same : other = serial
    · subst same
      exact .inr ((invariant.exits other sender handled.mem_history).step taken)
    · rw [state] at gone
      left
      simpa [ShutdownState.react, same] using gone

/-- What a connection actor erases from the registry is its own entry. -/
theorem registered_of_receives {serial other : Nat} (invariant : RegistryInvariant config)
    {actor : ConnectionActor} (found : config.state.connections[serial]? = some actor)
    (answers : ShutdownAnswers) (message : Message) {name : String}
    (position : config.state.names[other]? = some name)
    (entry : (name, .connection other) ∈ config.state.registry) :
    (name, .connection other) ∈
        (config.state.connectionReceives serial actor answers message).1.registry ∨
      message = .goodbyeConnection ∧ other = serial := by
  by_cases goodbye : message = .goodbyeConnection
  · subst goodbye
    by_cases same : name = actor.registeryId
    · have own : config.state.names[serial]? = some actor.registeryId := by
        rw [ShutdownState.names, List.getElem?_map, found]
        rfl
      subst same
      have within := (List.getElem?_eq_some_iff.mp position).1
      exact .inr ⟨rfl,
        (List.getElem?_inj within invariant.distinct).mp (position.trans own.symm)⟩
    · left
      have kept : (name, Role.connection other) ∈
          ShutdownState.erase config.state.registry actor.registeryId :=
        List.mem_filter.mpr ⟨entry, by simpa using same⟩
      simpa [ShutdownState.connectionReceives, ConnectionActor.receive,
        ConnectionActor.goodbyeConnection] using kept
  · left
    have steady := (receive_ordinary actor answers.socket message goodbye).1
    simpa [ShutdownState.connectionReceives, steady] using entry

/-- A connection actor lets out no one but itself, when it handles a goodbye. -/
theorem exit_of_receives {serial other : Nat} {state : ShutdownState} {actor : ConnectionActor}
    {answers : ShutdownAnswers} {message : Message}
    (sent : (.connection other, .exit) ∈
      (state.connectionReceives serial actor answers message).2) :
    message = .goodbyeConnection ∧ other = serial := by
  rcases List.mem_map.mp sent with ⟨⟨name, content⟩, inside, equal⟩
  simp only [Prod.mk.injEq] at equal
  rcases Role.of_eq_connection equal.1 with ⟨rfl, rfl⟩
  rw [equal.2] at inside
  by_cases goodbye : message = .goodbyeConnection
  · exact ⟨goodbye, rfl⟩
  · exact absurd inside (receive_ordinary actor answers.socket message goodbye).2

theorem of_connection {sender : Role} {answers : ShutdownAnswers} {message : Message}
    {serial : Nat} (invariant : RegistryInvariant config) {event : ShutdownEvent}
    (taken : shutdown.step config event = some next)
    (handled : ActorSystem.Handled shutdown config next (.connection serial) sender answers
      message) : RegistryInvariant next := by
  by_cases ending : message = .exit
  · subst ending
    exact invariant.of_connection_exit taken handled
  have state := state_of_handled handled
  have turn := turn_of_handled handled
  have parted {other : Nat} (leaving : message = .goodbyeConnection ∧ other = serial) :
      Parted next other := by
    rcases leaving with ⟨rfl, rfl⟩
    exact parted_of_goodbye handled
  cases found : config.state.connections[serial]? with
  | none =>
      have idle : config.state.react (.connection serial) answers message =
          (config.state, []) := by
        simp [ShutdownState.react, ending, found]
      have silent (other : Nat) : (.connection other, .exit) ∉
          (config.state.react (.connection serial) answers message).2 := by
        rw [idle]
        exact List.not_mem_nil
      rw [idle] at state
      apply invariant.of_unchanged taken
      · rw [state]
      · rw [state]
      · rw [state]
      · rw [state]
      · exact exits_of_silent handled silent
  | some actor =>
      have receives : config.state.react (.connection serial) answers message =
          config.state.connectionReceives serial actor answers message := by
        simp [ShutdownState.react, ending, found]
      rw [receives] at state turn
      apply invariant.of_steady taken
      · rw [state]
        exact config.state.names_connectionReceives found answers message
      · rw [state]
        rfl
      · intro other name position entry
        rw [state]
        exact (invariant.registered_of_receives found answers message position entry).imp_right
          parted
      · intro other source member
        rw [turn.mem_history] at member
        rcases member with before | ⟨-, sent⟩
        · exact .inl before
        · exact .inr (parted (exit_of_receives sent))
      · intro other gone
        rw [state] at gone
        exact .inl gone

/-- A move of main or of a command actor touches no connection actor. -/
theorem of_moved {chosen : ShutdownMove} {actor : Role} {sends : List (Role × Message)}
    (invariant : RegistryInvariant config) {event : ShutdownEvent}
    (taken : shutdown.step config event = some next)
    (moved : ActorSystem.Moved shutdown config next chosen actor sends) :
    RegistryInvariant next := by
  rcases move_frame moved.moved with ⟨⟨phase, state⟩, silent⟩
  apply invariant.of_unchanged taken
  · rw [state]
    rfl
  · rw [state]
  · rw [state]
  · rw [state]
  · intro serial source member
    rw [moved.turn.mem_history] at member
    rcases member with before | ⟨-, sent⟩
    · exact before
    · exact absurd rfl (silent _ sent).1

theorem step (invariant : RegistryInvariant config) {event : ShutdownEvent}
    (taken : shutdown.step config event = some next) : RegistryInvariant next := by
  rcases ActorSystem.step_cases taken with
    ⟨receiver, sender, answers, message, -, handled⟩ | ⟨chosen, actor, sends, -, moved⟩
  · cases receiver with
    | main => exact invariant.of_main taken handled
    | server => exact invariant.of_server taken handled
    | connection serial => exact invariant.of_connection taken handled
    | command serial => cases handled.running
    | runtime => cases handled.running
  · exact invariant.of_moved taken moved

theorem opening (names : List String) (lastId : Nat) :
    RegistryInvariant (openShutdown names lastId) where
  named := by simp [openShutdown, ShutdownState.names]
  distinct := List.nodup_nil
  registered := by simp [openShutdown, ShutdownState.names]
  exits := by
    intro serial sender member
    have opening : ActorSystem.Turn ⟨_, fun _ => .empty⟩ (openShutdown names lastId) Role.main
        [(.server, .startServer)] := .opening _ _ _
    rw [opening.mem_history] at member
    rcases member with before | ⟨-, sent⟩
    · cases before
    · cases List.mem_singleton.mp sent
  gone := by simp [openShutdown]

end RegistryInvariant

end Pmud.System
