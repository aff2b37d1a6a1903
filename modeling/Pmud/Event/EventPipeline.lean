import Pmud.Controllers.LoginHistory
import Pmud.Event.EventRecords
import Pmud.Foundation.Relay
import Pmud.Storage.StorageDouble

/-! # From the clients to the stream

`controllers/login_controller.h`, `event/event_recorder_client.h`,
`event/event_recorder_actor.h` and `storage/storage_actor.h` as one system: any
number of login controllers and other clients record events, the recorder turns
them into requests to the storage actor, and that one calls the server, which
keeps the records in one stream.
-/

namespace Pmud.Event

open Foundation Storage Storage.Redis

/-- The event with its strings cut off at their first NUL byte. -/
def EventMessage.cut : EventMessage → EventMessage
  | eventUserCreate username passphrase => eventUserCreate (cStr username) (cStr passphrase)
  | eventUserLogin username => eventUserLogin (cStr username)
  | eventUserLogout username => eventUserLogout (cStr username)

theorem EventMessage.cut_isNulFree (message : EventMessage) : message.cut.IsNulFree := by
  cases message with
  | eventUserCreate username passphrase => exact ⟨nulFree_cStr username, nulFree_cStr passphrase⟩
  | eventUserLogin username => exact nulFree_cStr username
  | eventUserLogout username => exact nulFree_cStr username

/-- What the storage actor makes of a request, for the recorder's stream. -/
def absorb (cell : Cell) (message : StorageMessage) : Cell :=
  match written message with
  | some command => if command.key = text "events" then command.effect cell else cell
  | none => cell

theorem receive_events (server : KeySpace) (message : StorageMessage) :
    (StorageActor.receive (some redisStorage) server message).1 (text "events") =
      absorb (server (text "events")) message := by
  rw [receive_redis, absorb]
  cases written message with
  | none => rfl
  | some command =>
      simp only [CellStore.execute]
      by_cases own : command.key = text "events"
      · rw [if_pos own, own, Function.update_self]
      · rw [if_neg own, Function.update_of_ne (Ne.symm own)]

theorem absorb_recorded (cell : Cell) (message : EventMessage) :
    absorb cell (EventRecorderActor.receive message) =
      Command.appendRecord message.cut.stored cell := by
  cases message with
  | _ => rfl

/-- A stream takes the records of one event after another. -/
theorem recordsOf_absorbed {cell : Cell} {records : List (List (ByteString × ByteString))}
    (stream : recordsOf cell = some records) (messages : List EventMessage) :
    recordsOf ((messages.map EventRecorderActor.receive).foldl absorb cell) =
      some (records ++ messages.map fun message => message.cut.stored) := by
  induction messages generalizing cell records with
  | nil => simpa using stream
  | cons message rest induction =>
      have next : recordsOf (absorb cell (EventRecorderActor.receive message)) =
          some (records ++ [message.cut.stored]) := by
        rw [absorb_recorded, appendRecord_eq stream]
        rfl
      rw [List.map_cons, List.foldl_cons, induction next, List.append_assoc]
      rfl

/-- Any stream is decoded record by record. -/
theorem construct_stream (ids : Nat → ByteString) {server : KeySpace} {key : ByteString}
    {records : List (List (ByteString × ByteString))}
    (stream : recordsOf (server key) = some records) (filled : records ≠ []) :
    constructStreamResponses (xread ids server key) =
      .ok [{ streamName := cStr key
             records := records.zipIdx.map fun record => found (ids record.2) record.1 }] := by
  have held : server key = some (.stream records) := by
    cases shape : server key with
    | none =>
        rw [shape, recordsOf, Option.some.injEq] at stream
        exact absurd stream.symm filled
    | some value =>
        rw [shape] at stream
        cases value with
        | stream held =>
            rw [recordsOf, Option.some.injEq] at stream
            rw [stream]
        | _ => cases stream
  rw [xread, held]
  simp only
  rw [constructStreamResponses_streamReply, List.map_map]
  rfl

end Pmud.Event

namespace Pmud.Event.Pipeline

open Foundation ActorSystem Controllers Security Storage Storage.Redis

inductive Party
  | login (index : Nat)
  | client (index : Nat)
  | recorder
  | storage
  deriving DecidableEq

inductive Mail
  | event (message : EventMessage)
  | store (message : StorageMessage)

structure PipelineState where
  server : KeySpace
  controllers : Nat → LoginController

/-- What the parties do by themselves. -/
inductive Move
  /-- A login controller gets an `OnUserInput`. -/
  | input (index : Nat) (given : LoginInput)
  /-- A client calls one of the `record_event` functions. -/
  | record (index : Nat) (message : EventMessage)
  /-- A client sends a request to the storage actor. -/
  | store (index : Nat) (message : StorageMessage)

/-- The messages for the event recorder. -/
def recordedOf (sends : Sends) : List EventMessage :=
  (accounts sends).map fun account => .eventUserCreate account.1 account.2

/-- The request writes nothing under the key of the recorder's stream. -/
def leavesEvents (message : StorageMessage) : Bool :=
  (written message).all fun command => command.key ≠ text "events"

/-- A message without a handler is dropped. -/
def react (state : PipelineState) :
    Party → Unit → Mail → PipelineState × List (Party × Mail)
  | .recorder, _, .event message =>
      (state, [(.storage, .store (EventRecorderActor.receive message))])
  | .storage, _, .store message =>
      let server := (StorageActor.receive (some redisStorage) state.server message).1
      ({ state with server }, [])
  | _, _, _ => (state, [])

/-- The other clients of the storage actor leave the recorder's stream alone. -/
def move (sha256 : ByteString → ByteString) (state : PipelineState) :
    Move → Option (PipelineState × Party × List (Party × Mail))
  | .input index given =>
      let (controller, sends) := loginMachine sha256 (state.controllers index) given
      some ({ state with controllers := Function.update state.controllers index controller },
        .login index, (recordedOf sends).map fun message => (.recorder, .event message))
  | .record index message => some (state, .client index, [(.recorder, .event message)])
  | .store index message =>
      if leavesEvents message then
        some (state, .client index, [(.storage, .store message)])
      else none

def system (sha256 : ByteString → ByteString) :
    ActorSystem Party Mail PipelineState Unit Move where
  running _ _ := true
  react := react
  move := move sha256

abbrev Config : Type := Configuration Party Mail PipelineState

def opening (server : KeySpace) : Config :=
  ⟨⟨server, fun _ => .create⟩, fun _ => .empty⟩

/-! ## What the clients record -/

abbrev Events : Type := List (ActorSystem.Event Party Unit Move)

/-- The inputs of one login controller in a run. -/
def inputsOf (index : Nat) (events : Events) : List LoginInput :=
  events.filterMap fun
    | .move (.input other given) => if other = index then some given else none
    | _ => none

/-- The calls of one other client in a run. -/
def callsOf (index : Nat) (events : Events) : List EventMessage :=
  events.filterMap fun
    | .move (.record other message) => if other = index then some message else none
    | _ => none

/-- What a party records in a run, oldest first. -/
def recordedBy (sha256 : ByteString → ByteString) (events : Events) : Party → List EventMessage
  | .login index => recordedOf (loginSends sha256 (inputsOf index events))
  | .client index => callsOf index events
  | _ => []

variable {sha256 : ByteString → ByteString} {server : KeySpace} {events : Events}
  {config next : Config}

/-! ## What a run keeps -/

/-- What the recorder sends of an event. -/
def forward (message : EventMessage) : Mail := .store (EventRecorderActor.receive message)

/-- What the storage actor makes of its mail, for the recorder's stream. -/
def absorbMail (cell : Cell) : Mail → Cell
  | .store message => absorb cell message
  | .event _ => cell

structure Kept (sha256 : ByteString → ByteString) (server : KeySpace) (events : Events)
    (config : Config) : Prop where
  controllers : ∀ index, config.state.controllers index =
    (loginMachine sha256).after .create (inputsOf index events)
  recorded : ∀ party, (config.mail .recorder party).history =
    (recordedBy sha256 events party).map .event
  relayed : ∃ order, Relayed Mail.event forward .recorder .storage config order
  consumed : Consumed (fun state => state.server (text "events")) absorbMail
    (server (text "events")) .storage .recorder config
  elsewhere : ∀ sender, sender ≠ .recorder →
    ∀ message ∈ (config.mail .storage sender).history,
      ∃ request, message = .store request ∧ leavesEvents request = true

theorem recordedOf_append (first later : Sends) :
    recordedOf (first ++ later) = recordedOf first ++ recordedOf later := by
  rw [recordedOf, accounts_append, List.map_append, recordedOf, recordedOf]

theorem inputsOf_append (index : Nat) (events : Events) (chosen : Move) :
    inputsOf index (events ++ [.move chosen]) = inputsOf index events ++
      match chosen with
      | .input other given => if other = index then [given] else []
      | _ => [] := by
  rw [inputsOf, List.filterMap_append, ← inputsOf]
  cases chosen with
  | input other given => by_cases same : other = index <;> simp [same]
  | _ => rfl

theorem callsOf_append (index : Nat) (events : Events) (chosen : Move) :
    callsOf index (events ++ [.move chosen]) = callsOf index events ++
      match chosen with
      | .record other message => if other = index then [message] else []
      | _ => [] := by
  rw [callsOf, List.filterMap_append, ← callsOf]
  cases chosen with
  | record other message => by_cases same : other = index <;> simp [same]
  | _ => rfl

theorem recordedBy_handle (sha256 : ByteString → ByteString) (events : Events)
    (receiver sender : Party) (party : Party) :
    recordedBy sha256 (events ++ [.handle receiver sender ()]) party =
      recordedBy sha256 events party := by
  cases party <;> simp [recordedBy, inputsOf, callsOf]

/-- A move of one login controller adds what it records. -/
theorem recordedBy_login {index : Nat} (chosen : Move) {controller : LoginController}
    (known : controller = (loginMachine sha256).after .create (inputsOf index events)) :
    recordedBy sha256 (events ++ [.move chosen]) (.login index) =
      recordedBy sha256 events (.login index) ++
        match chosen with
        | .input other given =>
            if other = index then recordedOf (loginMachine sha256 controller given).2 else []
        | _ => [] := by
  rw [recordedBy, inputsOf_append, loginSends, Machine.outputs_append, recordedOf_append,
    ← known]
  cases chosen with
  | input other given =>
      by_cases same : other = index
      · simp [same, recordedBy, loginSends]
      · simp [same, recordedBy, loginSends, recordedOf]
  | _ => simp [recordedBy, loginSends, recordedOf]

/-- The mail of the recorder and what a move is recorded as go together. -/
theorem recordedBy_move {state after : PipelineState} {chosen : Move} {actor : Party}
    {sends : List (Party × Mail)}
    (moved : move sha256 state chosen = some (after, actor, sends))
    (known : ∀ index, state.controllers index =
      (loginMachine sha256).after .create (inputsOf index events)) (party : Party) :
    (recordedBy sha256 (events ++ [.move chosen]) party).map Mail.event =
      (recordedBy sha256 events party).map .event ++
        if party = actor then addressedTo sends .recorder else [] := by
  cases chosen with
  | input index given =>
      simp only [move, Option.some.injEq, Prod.mk.injEq] at moved
      rcases moved with ⟨-, rfl, rfl⟩
      rw [addressedTo_map, if_pos rfl]
      cases party with
      | login other =>
          rw [recordedBy_login (.input index given) (known other)]
          by_cases same : index = other
          · simp [same]
          · simp [same, Ne.symm same]
      | client other => simp [recordedBy, callsOf_append]
      | _ => simp [recordedBy]
  | record index message =>
      simp only [move, Option.some.injEq, Prod.mk.injEq] at moved
      rcases moved with ⟨-, rfl, rfl⟩
      rw [addressedTo_singleton, if_pos rfl]
      cases party with
      | login other => simp [recordedBy_login (.record index message) (known other)]
      | client other =>
          rw [recordedBy, callsOf_append, recordedBy]
          by_cases same : index = other
          · simp [same]
          · simp [same, Ne.symm same]
      | _ => simp [recordedBy]
  | store index message =>
      simp only [move, Option.ite_none_right_eq_some, Option.some.injEq, Prod.mk.injEq] at moved
      rcases moved with ⟨-, -, rfl, rfl⟩
      simp only [addressedTo_singleton, reduceCtorEq, if_false, ite_self, List.append_nil]
      cases party with
      | login other => simp [recordedBy_login (.store index message) (known other)]
      | client other => simp [recordedBy, callsOf_append]
      | _ => rfl

theorem react_silent (state : PipelineState) (party : Party) (message : Mail) (receiver : Party)
    (apart : party ≠ .recorder ∨ receiver ≠ .storage) :
    addressedTo (react state party () message).2 receiver = [] := by
  cases party with
  | recorder =>
      cases message with
      | event message =>
          have other : Party.storage ≠ receiver := by
            rcases apart with same | other
            · exact absurd rfl same
            · exact Ne.symm other
          rw [react, addressedTo_singleton, if_neg other]
      | store message => rfl
  | storage => cases message <;> rfl
  | _ => rfl

theorem react_server (state : PipelineState) (message : Mail) :
    (react state .storage () message).1.server (text "events") =
      absorbMail (state.server (text "events")) message := by
  cases message with
  | event message => rfl
  | store message => exact receive_events state.server message

theorem react_state (state : PipelineState) {party : Party} (message : Mail)
    (other : party ≠ .storage) : (react state party () message).1 = state := by
  cases party with
  | storage => exact absurd rfl other
  | recorder => cases message <;> rfl
  | _ => rfl

theorem react_controllers (state : PipelineState) (party : Party) (message : Mail) :
    (react state party () message).1.controllers = state.controllers := by
  cases party with
  | _ => cases message <;> rfl

theorem move_frame {state after : PipelineState} {chosen : Move} {actor : Party}
    {sends : List (Party × Mail)}
    (moved : move sha256 state chosen = some (after, actor, sends)) :
    after.server = state.server ∧ actor ≠ .recorder ∧
      ∀ message, (Party.storage, message) ∈ sends →
        ∃ request, message = .store request ∧ leavesEvents request = true := by
  cases chosen with
  | input index given =>
      simp only [move, Option.some.injEq, Prod.mk.injEq] at moved
      rcases moved with ⟨rfl, rfl, rfl⟩
      exact ⟨rfl, by simp, by simp⟩
  | record index message =>
      simp only [move, Option.some.injEq, Prod.mk.injEq] at moved
      rcases moved with ⟨rfl, rfl, rfl⟩
      exact ⟨rfl, by simp, by simp⟩
  | store index message =>
      simp only [move, Option.ite_none_right_eq_some, Option.some.injEq, Prod.mk.injEq] at moved
      rcases moved with ⟨leaves, rfl, rfl, rfl⟩
      refine ⟨rfl, by simp, ?_⟩
      intro content member
      simp only [List.mem_singleton, Prod.mk.injEq, true_and] at member
      exact ⟨message, member, leaves⟩

theorem move_controllers {state after : PipelineState} {chosen : Move} {actor : Party}
    {sends : List (Party × Mail)}
    (moved : move sha256 state chosen = some (after, actor, sends))
    (known : ∀ index, state.controllers index =
      (loginMachine sha256).after .create (inputsOf index events)) (index : Nat) :
    after.controllers index =
      (loginMachine sha256).after .create (inputsOf index (events ++ [.move chosen])) := by
  rw [inputsOf_append, Machine.after_append, ← known]
  cases chosen with
  | input other given =>
      simp only [move, Option.some.injEq, Prod.mk.injEq] at moved
      rcases moved with ⟨rfl, -, -⟩
      by_cases same : other = index
      · subst same
        simp
      · simp [same, Function.update_of_ne (Ne.symm same)]
  | record other message =>
      simp only [move, Option.some.injEq, Prod.mk.injEq] at moved
      rw [← moved.1]
      rfl
  | store other message =>
      simp only [move, Option.ite_none_right_eq_some, Option.some.injEq, Prod.mk.injEq] at moved
      rw [← moved.2.1]
      rfl

theorem relays : Relays (system sha256) Mail.event forward .recorder .storage where
  forwards state _ content := by
    rw [show (system sha256).react state .recorder () (Mail.event content) =
      (state, [(.storage, forward content)]) from rfl, addressedTo_singleton, if_pos rfl]
  moveless _ _ _ _ _ moved := (move_frame moved).2.1

theorem consumes : Consumes (system sha256) (fun state => state.server (text "events"))
    absorbMail .storage where
  absorbs state _ message := react_server state message
  others state _ _ message other :=
    congrArg (fun after => after.server (text "events")) (react_state state message other)
  moves _ _ _ _ _ moved := congrFun (move_frame moved).1 _

theorem Kept.opening (sha256 : ByteString → ByteString) (server : KeySpace) :
    Kept sha256 server [] (opening server) where
  controllers _ := rfl
  recorded party := by cases party <;> rfl
  relayed := ⟨[], .opening Mail.event forward Party.recorder Party.storage _⟩
  consumed := rfl
  elsewhere := by
    intro sender other message member
    cases member

theorem absorbMail_of_leaves {request : StorageMessage} (leaves : leavesEvents request = true)
    (cell : Cell) : absorbMail cell (.store request) = cell := by
  rw [absorbMail, absorb]
  cases writes : written request with
  | none => rfl
  | some command =>
      rw [leavesEvents, writes, Option.all_some, decide_eq_true_eq] at leaves
      simp only [if_neg leaves]

theorem Kept.step (kept : Kept sha256 server events config)
    {event : ActorSystem.Event Party Unit Move}
    (taken : (system sha256).step config event = some next) :
    Kept sha256 server (events ++ [event]) next := by
  have understood : ∀ sender, ∀ message ∈ (config.mail .recorder sender).history,
      ∃ content, message = .event content := by
    intro sender message member
    rw [kept.recorded, List.mem_map] at member
    rcases member with ⟨content, -, rfl⟩
    exact ⟨content, rfl⟩
  have ineffective : ∀ sender, sender ≠ .recorder →
      ∀ message ∈ (config.mail .storage sender).history, ∀ cell,
        absorbMail cell message = cell := by
    intro sender other message member cell
    rcases kept.elsewhere sender other message member with ⟨request, rfl, leaves⟩
    exact absorbMail_of_leaves leaves cell
  rcases kept.relayed with ⟨order, relayed⟩
  have later := relayed.step relays understood taken
  have consumed := kept.consumed.step consumes ineffective taken
  rcases step_cases taken with
    ⟨receiver, sender, answer, message, rfl, handled⟩ | ⟨chosen, actor, sends, rfl, moved⟩
  · refine ⟨?_, ?_, later, consumed, ?_⟩
    · intro index
      rw [handled.state]
      have same := react_controllers config.state receiver message
      rw [show ((system sha256).react config.state receiver answer message).1.controllers =
        config.state.controllers from same, kept.controllers, inputsOf, inputsOf,
        List.filterMap_append]
      simp
    · intro party
      have silent := react_silent config.state receiver message .recorder (.inr (by simp))
      rw [handled.turn.histories, recordedBy_handle, ← kept.recorded]
      rw [show addressedTo ((system sha256).react config.state receiver answer message).2
        Party.recorder = [] from silent, ite_self, List.append_nil]
    · intro other apart request member
      rw [handled.turn.histories, List.mem_append] at member
      rcases member with before | now
      · exact kept.elsewhere other apart request before
      · split at now
        · rename_i own
          have silent := react_silent config.state receiver message .storage
            (.inl (own ▸ apart))
          rw [show addressedTo ((system sha256).react config.state receiver answer message).2
            Party.storage = [] from silent] at now
          cases now
        · cases now
  · refine ⟨move_controllers moved.moved kept.controllers, ?_, later, consumed, ?_⟩
    · intro party
      rw [moved.turn.histories, recordedBy_move moved.moved kept.controllers, kept.recorded]
    · intro other apart request member
      rw [moved.turn.histories, List.mem_append] at member
      rcases member with before | now
      · exact kept.elsewhere other apart request before
      · split at now
        · exact (move_frame moved.moved).2.2 request (mem_addressedTo.mp now)
        · cases now

/-! ## What the stream holds -/

/-- Nothing waits on the way from the clients to the server. -/
def Quiet (config : Config) : Prop :=
  (∀ party, (config.mail .recorder party).pending = []) ∧
    (config.mail .storage .recorder).pending = []

/-- The records of a stream that held `start` before the events of `order`. -/
def recordsAfter (start : List (List (ByteString × ByteString)))
    (order : List (Party × EventMessage)) : List (List (ByteString × ByteString)) :=
  start ++ order.map fun handled => handled.2.cut.stored

/-- The records as they are read, with the ids that the server gave them. -/
def recordsRead (ids : Nat → ByteString) (start : List (List (ByteString × ByteString)))
    (order : List (Party × EventMessage)) : List StreamRecord :=
  (start.zipIdx.map fun record => found (ids record.2) record.1) ++
    (order.zipIdx start.length).map fun handled =>
      { timestamp := cStr (ids handled.2), fields := handled.1.2.cut.fields }

/-- `order` is a merge of what the parties recorded, as far as the recorder has got, and its first
`count` events are in the stream. -/
structure Stored (sha256 : ByteString → ByteString)
    (start : List (List (ByteString × ByteString))) (events : Events) (config : Config)
    (order : List (Party × EventMessage)) (count : Nat) : Prop where
  merged : ∀ party, addressedTo order party <+: recordedBy sha256 events party
  bounded : count ≤ order.length
  stream : recordsOf (config.state.server (text "events")) =
    some (recordsAfter start (order.take count))
  complete : Quiet config → count = order.length ∧
    ∀ party, addressedTo order party = recordedBy sha256 events party

theorem kept_of_run
    (reached : (system sha256).step.execute (opening server) events = some config) :
    Kept sha256 server events config :=
  StepFunction.reached_of_preserved _ (fun _ _ _ _ kept taken => kept.step taken)
    (.opening sha256 server) reached

theorem map_event_injective {first second : List EventMessage}
    (same : first.map Mail.event = second.map Mail.event) : first = second :=
  (List.map_injective_iff.mpr fun _ _ equal => Mail.event.inj equal) same

theorem Kept.stored (kept : Kept sha256 server events config)
    {start : List (List (ByteString × ByteString))}
    (stream : recordsOf (server (text "events")) = some start) :
    ∃ order count, Stored sha256 start events config order count := by
  rcases kept.relayed with ⟨order, relayed⟩
  let requests := (config.mail .storage .recorder).received
  have whole := (config.mail .storage .recorder).received_append_pending
  have front : requests = (order.take requests.length).map fun handled => forward handled.2 := by
    rw [List.map_take, ← relayed.forwarded, ← whole]
    exact (List.take_left' rfl).symm
  have bounded : requests.length ≤ order.length := by
    have lengths := congrArg List.length (whole.trans relayed.forwarded)
    rw [List.length_append, List.length_map] at lengths
    exact lengths ▸ Nat.le_add_right _ _
  refine ⟨order, requests.length, fun party => ?_, bounded, ?_,
    fun quiet => ⟨?_, fun party => ?_⟩⟩
  · have split := (config.mail .recorder party).received_append_pending
    rw [relayed.handled, kept.recorded] at split
    have front : (addressedTo order party).map Mail.event <+:
        (recordedBy sha256 events party).map .event := ⟨_, split⟩
    rw [List.prefix_iff_eq_take, ← List.map_take] at front
    rw [List.prefix_iff_eq_take]
    simpa using map_event_injective front
  · have view := kept.consumed
    rw [Consumed, show (config.mail .storage .recorder).received = requests from rfl,
      front] at view
    have stored := recordsOf_absorbed stream ((order.take requests.length).map Prod.snd)
    rw [List.map_map, List.foldl_map] at stored
    rw [view, List.foldl_map]
    simpa [recordsAfter, forward, absorbMail, Function.comp_def] using stored
  · have lengths := congrArg List.length (whole.trans relayed.forwarded)
    rw [quiet.2, List.append_nil, List.length_map] at lengths
    exact lengths
  · have split := (config.mail .recorder party).received_append_pending
    rw [relayed.handled, kept.recorded, quiet.1, List.append_nil] at split
    exact map_event_injective split

theorem Stored.read {start : List (List (ByteString × ByteString))}
    {order : List (Party × EventMessage)} {count : Nat}
    (stored : Stored sha256 start events config order count)
    (quiet : Quiet config) (recorded : order ≠ []) (ids : Nat → ByteString) :
    constructStreamResponses (xread ids config.state.server (text "events")) =
      .ok [{ streamName := text "events", records := recordsRead ids start order }] := by
  have stream := stored.stream
  rw [(stored.complete quiet).1, List.take_length] at stream
  have filled : recordsAfter start order ≠ [] := by simp [recordsAfter, recorded]
  have fields : ∀ handled : (Party × EventMessage) × Nat,
      found (ids handled.2) handled.1.2.cut.stored =
        { timestamp := cStr (ids handled.2), fields := handled.1.2.cut.fields } := by
    intro handled
    rw [← EventMessage.found_stored handled.1.2.cut_isNulFree]
    rfl
  rw [construct_stream ids stream filled, recordsRead, recordsAfter, List.zipIdx_append,
    List.map_append, List.zipIdx_map, List.map_map]
  simp only [Function.comp_def, Prod.map_fst, Prod.map_snd, fields, id, Nat.zero_add]
  rfl

/-- The parties that can have recorded something. -/
def partiesOf (events : Events) : List Party :=
  events.filterMap fun
    | .move (.input index _) => some (.login index)
    | .move (.record index _) => some (.client index)
    | _ => none

theorem recordedBy_of_not_mem {party : Party} (absent : party ∉ partiesOf events) :
    recordedBy sha256 events party = [] := by
  cases party with
  | login index =>
      have none_of : inputsOf index events = [] := by
        rw [inputsOf, List.filterMap_eq_nil_iff]
        intro event member
        rcases event with _ | chosen
        · rfl
        · cases chosen with
          | input other given =>
              by_cases same : other = index
              · exact absurd (List.mem_filterMap.mpr ⟨_, member, by rw [same]⟩) absent
              · simp [same]
          | _ => rfl
      rw [recordedBy, none_of]
      rfl
  | client index =>
      rw [recordedBy, callsOf, List.filterMap_eq_nil_iff]
      intro event member
      rcases event with _ | chosen
      · rfl
      · cases chosen with
        | record other message =>
            by_cases same : other = index
            · exact absurd (List.mem_filterMap.mpr ⟨_, member, by rw [same]⟩) absent
            · simp [same]
        | _ => rfl
  | _ => rfl

theorem recordedBy_handles {more : Events}
    (handles : ∀ event ∈ more, ∃ receiver sender, event = .handle receiver sender ())
    (party : Party) :
    recordedBy sha256 (events ++ more) party = recordedBy sha256 events party := by
  induction more generalizing events with
  | nil => rw [List.append_nil]
  | cons event rest induction =>
      rw [List.forall_mem_cons] at handles
      rcases handles.1 with ⟨receiver, sender, rfl⟩
      rw [List.append_cons, induction handles.2, recordedBy_handle]

/-- In every run and for every order of steps, the stream is a merge of what the clients have
recorded; once no mail is underway, of all of it. -/
theorem events_recorded (sha256 : ByteString → ByteString) {server : KeySpace}
    {start : List (List (ByteString × ByteString))}
    (stream : recordsOf (server (text "events")) = some start) {events : Events} {final : Config}
    (reached : (system sha256).step.execute (opening server) events = some final) :
    ∃ order count, Stored sha256 start events final order count :=
  (kept_of_run reached).stored stream

/-- Someone logs in while another client records a login of its own. -/
def nickRun : Events :=
  [.move (.input 0 ⟨text "nick", zeroDraws⟩), .move (.input 0 ⟨text "p", zeroDraws⟩),
    .move (.record 7 (.eventUserLogin (text "guest"))), .handle .recorder (.client 7) (),
    .move (.input 0 ⟨text "p", zeroDraws⟩), .handle .recorder (.login 0) (),
    .handle .storage .recorder ()]

theorem nickRun_runs :
    ((system sampleSha256).step.execute (opening .empty) nickRun).isSome = true := by
  decide +kernel

theorem events_recorded_of_nickRun :
    ∃ final, (system sampleSha256).step.execute (opening .empty) nickRun = some final ∧
      ∃ order count, Stored sampleSha256 [] nickRun final order count := by
  rcases Option.isSome_iff_exists.mp nickRun_runs with ⟨final, reached⟩
  exact ⟨final, reached, events_recorded sampleSha256 rfl reached⟩

/-- The recorder's mail first, then what it has sent on. -/
theorem Kept.exists_quiet (kept : Kept sha256 server events config) :
    ∃ more final, (∀ event ∈ more, ∃ receiver sender, event = .handle receiver sender ()) ∧
      (system sha256).step.execute config more = some final ∧ Quiet final := by
  have alone : ∀ state message,
      addressedTo ((system sha256).react state .recorder () message).2 .recorder = [] :=
    fun state message => react_silent state .recorder message .recorder (.inr (by simp))
  have silent : ∀ receiver state message,
      addressedTo ((system sha256).react state .storage () message).2 receiver = [] :=
    fun receiver state message => react_silent state .storage message receiver (.inl (by simp))
  rcases exists_all_drained (fun _ => rfl) alone (partiesOf events) config with
    ⟨first, middle, handles, ran, drained, still⟩
  rcases exists_drained (fun _ => rfl) (silent .storage) middle .recorder with
    ⟨count, final, later, empty, same⟩
  refine ⟨first ++ List.replicate count (.handle .storage .recorder ()), final, ?_, ?_, ?_, empty⟩
  · intro event member
    rcases List.mem_append.mp member with early | late
    · rcases handles event early with ⟨sender, equal⟩
      exact ⟨.recorder, sender, equal⟩
    · exact ⟨.storage, .recorder, List.eq_of_mem_replicate late⟩
  · rw [StepFunction.execute_append, ran, Option.bind_some, later]
  · intro party
    rw [same .recorder party (silent .recorder) (by simp)]
    by_cases active : party ∈ partiesOf events
    · exact drained party active
    · have unsent := kept.recorded party
      rw [recordedBy_of_not_mem active, List.map_nil] at unsent
      exact still party (by rw [Channel.pending, unsent, List.drop_nil])

/-- Every run can be carried on, by handling mail alone, to a state in which the stream holds what
the clients have recorded, each client's events in their order, and is read as that. -/
theorem records_arrive (sha256 : ByteString → ByteString) {server : KeySpace}
    {start : List (List (ByteString × ByteString))}
    (stream : recordsOf (server (text "events")) = some start) {events : Events}
    {config : Config}
    (reached : (system sha256).step.execute (opening server) events = some config) :
    ∃ more final order,
      (∀ event ∈ more, ∃ receiver sender, event = .handle receiver sender ()) ∧
      (system sha256).step.execute config more = some final ∧
      (∀ party, addressedTo order party = recordedBy sha256 events party) ∧
      recordsOf (final.state.server (text "events")) = some (recordsAfter start order) ∧
      (order ≠ [] → ∀ ids,
        constructStreamResponses (xread ids final.state.server (text "events")) =
          .ok [{ streamName := text "events", records := recordsRead ids start order }]) := by
  rcases (kept_of_run reached).exists_quiet with ⟨more, final, handles, ran, quiet⟩
  have whole : (system sha256).step.execute (opening server) (events ++ more) = some final := by
    rw [StepFunction.execute_append, reached, Option.bind_some, ran]
  rcases (kept_of_run whole).stored stream with ⟨order, count, stored⟩
  have complete := stored.complete quiet
  refine ⟨more, final, order, handles, ran, fun party => ?_, ?_, fun recorded ids =>
    stored.read quiet recorded ids⟩
  · rw [complete.2, recordedBy_handles handles]
  · have records := stored.stream
    rwa [complete.1, List.take_length] at records

theorem records_arrive_of_nickRun :
    ∃ config more final order,
      (system sampleSha256).step.execute (opening .empty) nickRun = some config ∧
      (∀ event ∈ more, ∃ receiver sender, event = .handle receiver sender ()) ∧
      (system sampleSha256).step.execute config more = some final ∧
      (∀ party, addressedTo order party = recordedBy sampleSha256 nickRun party) ∧
      recordsOf (final.state.server (text "events")) = some (recordsAfter [] order) ∧
      (order ≠ [] → ∀ ids,
        constructStreamResponses (xread ids final.state.server (text "events")) =
          .ok [{ streamName := text "events", records := recordsRead ids [] order }]) := by
  rcases Option.isSome_iff_exists.mp nickRun_runs with ⟨config, reached⟩
  rcases records_arrive sampleSha256 rfl reached with ⟨more, final, order, arrived⟩
  exact ⟨config, more, final, order, reached, arrived⟩

end Pmud.Event.Pipeline
