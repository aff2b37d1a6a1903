import Pmud.Foundation.Lists
import Pmud.Storage.RedisStreamInjestor
import Pmud.Storage.StorageActor

/-! # Recorded events

`event/event_recorder_actor.h`, and the way of a record through the storage
actor, the server and back through `construct_stream_responses`.
-/

namespace Pmud.Event

open Foundation Storage Storage.Redis

/-- The messages that an event recorder handles. -/
inductive EventMessage
  | eventUserCreate (username passphrase : ByteString)
  | eventUserLogin (username : ByteString)
  | eventUserLogout (username : ByteString)
  deriving DecidableEq, Repr

namespace EventMessage

/-- No string of the message is cut off on its way. -/
def IsNulFree : EventMessage → Prop
  | eventUserCreate username passphrase => NulFree username ∧ NulFree passphrase
  | eventUserLogin username => NulFree username
  | eventUserLogout username => NulFree username

/-- The record that should be found of the event. -/
def fields : EventMessage → StreamRecordFields
  | eventUserCreate username passphrase =>
      MapType.putAll ∅ [(text "event", text "EventUserCreate"), (text "username", username),
        (text "passphrase", passphrase)]
  | eventUserLogin username =>
      MapType.putAll ∅ [(text "event", text "EventUserLogin"), (text "username", username)]
  | eventUserLogout username =>
      MapType.putAll ∅ [(text "event", text "EventUserLogout"), (text "username", username)]

end EventMessage

/-- `make_behavior`: what is sent to the storage actor. -/
def EventRecorderActor.receive : EventMessage → StorageMessage
  | .eventUserCreate username passphrase =>
      .storageEventStore (text "EventUserCreate")
        (((∅ : StreamRecordFields).insert (text "username") username).insert (text "passphrase")
          passphrase)
  | .eventUserLogin username =>
      .storageEventStore (text "EventUserLogin")
        ((∅ : StreamRecordFields).insert (text "username") username)
  | .eventUserLogout username =>
      .storageEventStore (text "EventUserLogout")
        ((∅ : StreamRecordFields).insert (text "username") username)

/-- The event recorder's message, handled by a storage actor on Redis. -/
def record (server : KeySpace) (message : EventMessage) : KeySpace :=
  (StorageActor.receive (some redisStorage) server (EventRecorderActor.receive message)).1

/-! ## Reading a stream -/

/-- The records of a stream, which need not exist yet. -/
def recordsOf : Cell → Option (List (List (ByteString × ByteString)))
  | none => some []
  | some (.stream records) => some records
  | some _ => none

def fieldNodes (record : List (ByteString × ByteString)) : List RedisReply :=
  record.flatMap fun field => [.stringNode field.1, .stringNode field.2]

def recordsNode (records : List (ByteString × List (ByteString × ByteString))) : RedisReply :=
  .arrayNode (records.map fun record =>
    .arrayNode [.stringNode record.1, .arrayNode (fieldNodes record.2)])

/-- What `XREAD` answers for one stream. -/
def streamReply (name : ByteString)
    (records : List (ByteString × List (ByteString × ByteString))) : RedisReply :=
  .arrayNode [.arrayNode [.stringNode name, recordsNode records]]

/-- The records of a stream that does exist, with the ids that `XADD` gave them. -/
def xread (ids : Nat → ByteString) (server : KeySpace) (key : ByteString) : RedisReply :=
  match server key with
  | some (.stream records) =>
      streamReply key (records.zipIdx.map fun record => (ids record.2, record.1))
  | _ => .node .nil none []

/-- A record as it is found in the responses. -/
def found (id : ByteString) (record : List (ByteString × ByteString)) : StreamRecord where
  timestamp := cStr id
  fields := MapType.putAll ∅ (record.map fun field => (cStr field.1, cStr field.2))

theorem pairs_fieldNodes (record : List (ByteString × ByteString)) :
    pairs (fieldNodes record) = record.map fun field => (cStr field.1, cStr field.2) := by
  induction record with
  | nil => rfl
  | cons field rest induction => exact congrArg _ induction

theorem pairsFit_fieldNodes (record : List (ByteString × ByteString)) :
    PairsFit (fieldNodes record) := by
  induction record with
  | nil => exact ⟨rfl, by simp [fieldNodes]⟩
  | cons field rest induction => exact pairsFit_cons_cons.mpr ⟨rfl, rfl, induction⟩

/-- Entries with a name and a body are all decoded. -/
theorem decodeEntries_arrayNodes {α β : Type}
    {decode : ByteString → RedisReply → Except BadAccess β} {name : α → ByteString}
    {body : α → RedisReply} {result : α → β}
    (each : ∀ item, decode (cStr (name item)) (body item) = .ok (result item))
    (items : List α) :
    decodeEntries decode (items.map fun item => .arrayNode [.stringNode (name item), body item]) =
      .ok (items.map result) := by
  induction items with
  | nil => rfl
  | cons item rest induction =>
      rw [List.map_cons, decodeEntries_read rfl, RedisReply.string_eq rfl, induction]
      change (decode (cStr (name item)) (body item) >>= _) = _
      rw [each]
      rfl

theorem streamRecord_found (id : ByteString) (record : List (ByteString × ByteString)) :
    streamRecord (cStr id) (.arrayNode (fieldNodes record)) = .ok (found id record) := by
  rw [streamRecord, fillFrom_eq, List.drop_zero]
  change fillPairs ∅ (fieldNodes record) >>= _ = _
  rw [fillPairs_of_fit (pairsFit_fieldNodes record), pairs_fieldNodes]
  rfl

theorem streamResponse_found (name : ByteString)
    (records : List (ByteString × List (ByteString × ByteString))) :
    streamResponse (cStr name) (recordsNode records) =
      .ok { streamName := cStr name
            records := records.map fun record => found record.1 record.2 } := by
  have decoded := decodeEntries_arrayNodes
    (fun item : ByteString × List (ByteString × ByteString) => streamRecord_found item.1 item.2)
    records
  rw [streamResponse]
  change decodeEntries streamRecord (records.map _) >>= _ = _
  rw [decoded]
  rfl

theorem constructStreamResponses_streamReply (name : ByteString)
    (records : List (ByteString × List (ByteString × ByteString))) :
    constructStreamResponses (streamReply name records) =
      .ok [{ streamName := cStr name
             records := records.map fun record => found record.1 record.2 }] :=
  decodeEntries_arrayNodes (fun item => streamResponse_found item records) [name]

/-! ## Writing and reading back -/

theorem appendRecord_eq {cell : Cell} {records : List (List (ByteString × ByteString))}
    (stream : recordsOf cell = some records) (new : List (ByteString × ByteString)) :
    Command.appendRecord new cell = some (.stream (records ++ [new])) := by
  cases cell with
  | none =>
      cases stream
      rfl
  | some value =>
      cases value with
      | stream before =>
          cases stream
          rfl
      | _ => cases stream

/-- The records that were there, with a new one behind them. -/
def responsesAfter (ids : Nat → ByteString) (name : ByteString)
    (records : List (List (ByteString × ByteString))) (fields : StreamRecordFields) :
    List StreamResponse :=
  [{ streamName := name
     records := (records.zipIdx.map fun record => found (ids record.2) record.1) ++
       [{ timestamp := cStr (ids records.length), fields := fields }] }]

theorem construct_xread (ids : Nat → ByteString) {server : KeySpace} {key : ByteString}
    {records : List (List (ByteString × ByteString))} {new : List (ByteString × ByteString)}
    (held : server key = some (.stream (records ++ [new]))) :
    constructStreamResponses (xread ids server key) =
      .ok (responsesAfter ids (cStr key) records (found [] new).fields) := by
  rw [xread, held]
  change constructStreamResponses (streamReply key _) = _
  rw [constructStreamResponses_streamReply, List.zipIdx_append]
  simp [responsesAfter, found, Function.comp_def]

/-- The record that the server adds to the stream. -/
def EventMessage.stored : EventMessage → List (ByteString × ByteString)
  | eventUserCreate username passphrase =>
      [(text "event", text "EventUserCreate"), (text "passphrase", passphrase),
        (text "username", username)]
  | eventUserLogin username =>
      [(text "event", text "EventUserLogin"), (text "username", username)]
  | eventUserLogout username =>
      [(text "event", text "EventUserLogout"), (text "username", username)]

theorem execute_key (server : KeySpace) (command : Command) :
    (execute server command).1 command.key = command.effect (server command.key) :=
  Function.update_self ..

theorem record_events (server : KeySpace) {message : EventMessage}
    (free : message.IsNulFree) :
    record server message (text "events") =
      Command.appendRecord message.stored (server (text "events")) := by
  cases message with
  | eventUserCreate username passphrase =>
      have stored : record server (.eventUserCreate username passphrase) =
          (execute server (.fcall (text "EventUserCreate") (text "events")
            [text "passphrase", cStr passphrase, text "username", cStr username])).1 := rfl
      rw [stored, cStr_of_nulFree free.1, cStr_of_nulFree free.2]
      exact execute_key server (.fcall _ (text "events") _)
  | eventUserLogin username =>
      have stored : record server (.eventUserLogin username) =
          (execute server (.fcall (text "EventUserLogin") (text "events")
            [text "username", cStr username])).1 := rfl
      rw [stored, cStr_of_nulFree free]
      exact execute_key server (.fcall _ (text "events") _)
  | eventUserLogout username =>
      have stored : record server (.eventUserLogout username) =
          (execute server (.fcall (text "EventUserLogout") (text "events")
            [text "username", cStr username])).1 := rfl
      rw [stored, cStr_of_nulFree free]
      exact execute_key server (.fcall _ (text "events") _)

/-- The server keeps the fields in the order of the sorted map. -/
theorem EventMessage.found_stored {message : EventMessage} (free : message.IsNulFree) :
    (found [] message.stored).fields = message.fields := by
  cases message with
  | eventUserCreate username passphrase =>
      simp only [found, stored, fields, List.map_cons, List.map_nil, cStr_of_nulFree free.1,
        cStr_of_nulFree free.2]
      apply Std.ExtTreeMap.ext_toList
      exact .of_eq rfl
  | eventUserLogin username =>
      simp only [found, stored, fields, List.map_cons, List.map_nil,
        cStr_of_nulFree (show NulFree username from free)]
      rfl
  | eventUserLogout username =>
      simp only [found, stored, fields, List.map_cons, List.map_nil,
        cStr_of_nulFree (show NulFree username from free)]
      rfl

theorem event_decodes (ids : Nat → ByteString) {server : KeySpace} {message : EventMessage}
    (free : message.IsNulFree) {records : List (List (ByteString × ByteString))}
    (stream : recordsOf (server (text "events")) = some records) :
    constructStreamResponses (xread ids (record server message) (text "events")) =
      .ok (responsesAfter ids (text "events") records message.fields) := by
  have held := (record_events server free).trans (appendRecord_eq stream message.stored)
  rw [construct_xread ids held, EventMessage.found_stored free]
  rfl

/-- The map is given back by the pairs that it was flattened to. -/
theorem found_fields (fields : StreamRecordFields)
    (free : ∀ field ∈ fields.toList, NulFree field.1 ∧ NulFree field.2) :
    (found [] (fields.toList.map fun field => (cStr field.1, cStr field.2))).fields = fields := by
  have same : (fields.toList.map fun field => (cStr field.1, cStr field.2)) = fields.toList := by
    apply List.map_eq_self
    intro field member
    rw [cStr_of_nulFree (free field member).1, cStr_of_nulFree (free field member).2]
  have again : (fields.toList.map fun field => (cStr field.1, cStr field.2)).map
      (fun field => (cStr field.1, cStr field.2)) = fields.toList := by
    rw [same, same]
  rw [found, again]
  exact MapType.putAll_toList fields

theorem stream_decodes (ids : Nat → ByteString) {server : KeySpace} {name : ByteString}
    {fields : StreamRecordFields} (nonempty : fields ≠ ∅)
    (free : ∀ field ∈ fields.toList, NulFree field.1 ∧ NulFree field.2)
    {records : List (List (ByteString × ByteString))}
    (stream : recordsOf (server (cStr name)) = some records) :
    constructStreamResponses
        (xread ids (RedisStorage.streamStore server name fields).1 (cStr name)) =
      .ok (responsesAfter ids (cStr name) records fields) := by
  have filled : fields.toList ≠ [] := by
    rw [ne_eq, Std.ExtTreeMap.toList_eq_nil_iff]
    exact nonempty
  have held : (RedisStorage.streamStore server name fields).1 (cStr name) =
      Command.appendRecord (fields.toList.map fun field => (cStr field.1, cStr field.2))
        (server (cStr name)) := by
    have executed := execute_key server (.xadd (cStr name)
      (fields.toList.map fun field => (cStr field.1, cStr field.2)))
    refine executed.trans ?_
    cases shape : fields.toList with
    | nil => exact absurd shape filled
    | cons field rest => rfl
  rw [construct_xread ids (held.trans (appendRecord_eq stream _)), found_fields fields free,
    cStr_of_nulFree (nulFree_cStr name)]

/-- What was recorded is what is read: every event, and every record that is
stored under a name. -/
theorem storedRecords_decode (ids : Nat → ByteString) (server : KeySpace) :
    (∀ message : EventMessage, message.IsNulFree → ∀ records,
      recordsOf (server (text "events")) = some records →
        constructStreamResponses (xread ids (record server message) (text "events")) =
          .ok (responsesAfter ids (text "events") records message.fields)) ∧
    ∀ (name : ByteString) (fields : StreamRecordFields), fields ≠ ∅ →
      (∀ field ∈ fields.toList, NulFree field.1 ∧ NulFree field.2) → ∀ records,
        recordsOf (server (cStr name)) = some records →
          constructStreamResponses
              (xread ids (RedisStorage.streamStore server name fields).1 (cStr name)) =
            .ok (responsesAfter ids (cStr name) records fields) :=
  ⟨fun _ free _ stream => event_decodes ids free stream,
    fun _ _ nonempty free _ stream => stream_decodes ids nonempty free stream⟩

theorem storedRecords_decode_nick :
    constructStreamResponses
        (xread (fun _ => text "1-0")
          (record .empty (.eventUserCreate (text "nick") (text "secret"))) (text "events")) =
      .ok (responsesAfter (fun _ => text "1-0") (text "events") []
        (EventMessage.eventUserCreate (text "nick") (text "secret")).fields) ∧
    constructStreamResponses
        (xread (fun _ => text "1-0")
          (RedisStorage.streamStore .empty (text "log") ((∅ : MapType).insert (text "k") [])).1
          (cStr (text "log"))) =
      .ok (responsesAfter (fun _ => text "1-0") (cStr (text "log")) []
        ((∅ : MapType).insert (text "k") [])) := by
  have decodes := storedRecords_decode (fun _ => text "1-0") .empty
  have listed : ((∅ : MapType).insert (text "k") []).toList = [(text "k", [])] := rfl
  refine ⟨decodes.1 (.eventUserCreate (text "nick") (text "secret"))
    ⟨by decide, by decide⟩ [] rfl, decodes.2 _ _ ?_ ?_ [] rfl⟩
  · intro empty
    rw [← Std.ExtTreeMap.toList_eq_nil_iff, listed] at empty
    cases empty
  · rw [listed]
    simp only [List.mem_singleton, forall_eq]
    exact ⟨by decide, by decide⟩

end Pmud.Event
