import Mathlib.Data.List.Induction
import Pmud.Foundation.Lists
import Pmud.Storage.MockStorage
import Pmud.Storage.RedisStorage
import Pmud.Storage.StorageActor

/-! # The test double and the real store

As long as a name stands for one kind of value, the key of the server holds what
the test double holds. They differ in what they answer when it is nothing.
-/

namespace Pmud.Storage

open Foundation

inductive Kind
  | value
  | map
  | list
  | set
  | stream
  deriving DecidableEq

namespace StorageMessage

/-- The name a message is about and the kind of value it takes it for. Events are
records of the stream `events`. -/
def use : StorageMessage → Option (ByteString × Kind)
  | storageNoop => none
  | storageValueStore key _ => some (key, .value)
  | storageValueGet key => some (key, .value)
  | storageMapStore mapName _ _ => some (mapName, .map)
  | storageMapGet mapName => some (mapName, .map)
  | storageListStore listName _ => some (listName, .list)
  | storageListGet listName => some (listName, .list)
  | storageSetStore setName _ => some (setName, .set)
  | storageSetGet setName => some (setName, .set)
  | storageStreamStore streamName _ => some (streamName, .stream)
  | storageEventStore _ _ => some (text "events", .stream)

def stores : StorageMessage → Option (ByteString × Kind)
  | storageValueStore key _ => some (key, .value)
  | storageMapStore mapName _ _ => some (mapName, .map)
  | storageListStore listName _ => some (listName, .list)
  | storageSetStore setName _ => some (setName, .set)
  | _ => none

/-- The collection that is asked for. -/
def reads : StorageMessage → Option (ByteString × Kind)
  | storageMapGet mapName => some (mapName, .map)
  | storageListGet listName => some (listName, .list)
  | storageSetGet setName => some (setName, .set)
  | _ => none

/-- The strings that decide about an answer. -/
def strings : StorageMessage → List ByteString
  | storageNoop => []
  | storageValueStore key value => [key, value]
  | storageValueGet key => [key]
  | storageMapStore mapName key value => [mapName, key, value]
  | storageMapGet mapName => [mapName]
  | storageListStore listName value => [listName, value]
  | storageListGet listName => [listName]
  | storageSetStore setName value => [setName, value]
  | storageSetGet setName => [setName]
  | storageStreamStore streamName _ => [streamName]
  | storageEventStore _ _ => []

def NulFree (message : StorageMessage) : Prop :=
  ∀ string ∈ message.strings, Redis.NulFree string

instance (message : StorageMessage) : Decidable message.NulFree :=
  inferInstanceAs (Decidable (∀ string ∈ message.strings, Redis.NulFree string))

end StorageMessage

/-- Each name is used with only one kind of value. -/
def OneKind (messages : List StorageMessage) : Prop :=
  ∀ first ∈ messages, ∀ second ∈ messages, ∀ name kind other,
    first.use = some (name, kind) → second.use = some (name, other) → kind = other

/-- Every request is answered alike, whether the actor holds the one or the other. -/
def AnswersAlike (messages : List StorageMessage) : Prop :=
  (StorageActor.receive (some mockStorage)).outputs MockStorage.empty messages =
    (StorageActor.receive (some Redis.redisStorage)).outputs Redis.KeySpace.empty messages

/-- No collection is asked for before something has been stored in it. -/
def ReadsStored (messages : List StorageMessage) : Prop :=
  ∀ before message, before ++ [message] <+: messages →
    ∀ place, message.reads = some place → ∃ earlier ∈ before, earlier.stores = some place

namespace Redis

/-! ## The messages as commands -/

/-- The command that `RedisStorage` writes with. -/
def written : StorageMessage → Option Command
  | .storageValueStore key value => some (.set (cStr key) (cStr value))
  | .storageMapStore mapName key value => some (.hset (cStr mapName) (cStr key) (cStr value))
  | .storageListStore listName value => some (.rpush (cStr listName) (cStr value))
  | .storageSetStore setName value => some (.sadd (cStr setName) (cStr value))
  | .storageStreamStore streamName fields =>
      some (.xadd (cStr streamName) (fields.toList.map fun field => (cStr field.1, cStr field.2)))
  | .storageEventStore eventName fields =>
      some (.fcall (cStr eventName) (text "events")
        (fields.toList.flatMap fun field => [cStr field.1, cStr field.2]))
  | _ => none

theorem receive_redis (server : KeySpace) (message : StorageMessage) :
    (StorageActor.receive (some redisStorage) server message).1 =
      match written message with
      | some command => CellStore.execute Command.key Command.effect server command
      | none => server := by
  cases message with
  | _ => rfl

/-- What the test double holds, as the server would. -/
def mockCell (mock : MockStorage) (name : ByteString) : Kind → Cell
  | .value => mock.kv[name]?.map .string
  | .map => mock.map[name]?.map .hash
  | .list => mock.list[name]?.map .list
  | .set => mock.set[name]?.map .set
  | .stream => none

/-- A name without a NUL byte is the key of its commands. -/
theorem key_written {message : StorageMessage} (free : message.NulFree) {command : Command}
    (writes : written message = some command) :
    ∃ kind, message.use = some (command.key, kind) := by
  cases message with
  | storageEventStore eventName fields =>
      cases writes
      exact ⟨_, rfl⟩
  | storageNoop => cases writes
  | storageValueGet key => cases writes
  | storageMapGet mapName => cases writes
  | storageListGet listName => cases writes
  | storageSetGet setName => cases writes
  | _ =>
      cases writes
      have named := cStr_of_nulFree (free _ List.mem_cons_self)
      exact ⟨_, by rw [Command.key, named]; rfl⟩

theorem map_change {α : Type} (wrap : α → Value) (effect : Cell → Cell) (fresh : α) (add : α → α)
    (first : effect none = some (wrap (add fresh)))
    (later : ∀ old, effect (some (wrap old)) = some (wrap (add old)))
    (held : Std.ExtTreeMap ByteString α) (name other : ByteString) :
    (MockStorage.change held name fresh add)[other]?.map wrap =
      if name = other then effect (held[other]?.map wrap) else held[other]?.map wrap := by
  rw [MockStorage.getElem?_change]
  split
  · next same =>
    subst same
    cases held[name]? with
    | none => exact first.symm
    | some old => exact (later old).symm
  · rfl

/-- A message does to the test double what its command does to the server. -/
theorem mockCell_receive {message : StorageMessage} (free : message.NulFree)
    (mock : MockStorage) (name : ByteString) {kind : Kind} (notStream : kind ≠ .stream) :
    mockCell (StorageActor.receive (some mockStorage) mock message).1 name kind =
      match written message with
      | some command =>
          if message.use = some (name, kind) then command.effect (mockCell mock name kind)
          else mockCell mock name kind
      | none => mockCell mock name kind := by
  cases message with
  | storageValueStore key value =>
      simp only [StorageMessage.NulFree, StorageMessage.strings, List.forall_mem_cons] at free
      simp only [written, StorageMessage.use, cStr_of_nulFree free.2.1, Option.some.injEq,
        Prod.mk.injEq]
      cases kind with
      | value =>
          show ((mock.kv.insert key value)[name]?).map Value.string = _
          rw [getElem?_insert]
          by_cases same : key = name
          · simp [same, Command.effect]
          · simp [same, mockCell]
      | _ => exact (if_neg (by simp)).symm
  | storageMapStore mapName key value =>
      simp only [StorageMessage.NulFree, StorageMessage.strings, List.forall_mem_cons] at free
      simp only [written, StorageMessage.use, cStr_of_nulFree free.2.1,
        cStr_of_nulFree free.2.2.1, Option.some.injEq, Prod.mk.injEq]
      cases kind with
      | map =>
          simp only [and_true]
          exact map_change .hash (Command.hset (cStr mapName) key value).effect ∅
            (·.insert key value) rfl (fun old => rfl) mock.map mapName name
      | _ => exact (if_neg (by simp)).symm
  | storageListStore listName value =>
      simp only [StorageMessage.NulFree, StorageMessage.strings, List.forall_mem_cons] at free
      simp only [written, StorageMessage.use, cStr_of_nulFree free.2.1, Option.some.injEq,
        Prod.mk.injEq]
      cases kind with
      | list =>
          simp only [and_true]
          exact map_change .list (Command.rpush (cStr listName) value).effect []
            (· ++ [value]) rfl (fun old => rfl) mock.list listName name
      | _ => exact (if_neg (by simp)).symm
  | storageSetStore setName value =>
      simp only [StorageMessage.NulFree, StorageMessage.strings, List.forall_mem_cons] at free
      simp only [written, StorageMessage.use, cStr_of_nulFree free.2.1, Option.some.injEq,
        Prod.mk.injEq]
      cases kind with
      | set =>
          simp only [and_true]
          exact map_change .set (Command.sadd (cStr setName) value).effect ∅
            (·.insert value) rfl (fun old => rfl) mock.set setName name
      | _ => exact (if_neg (by simp)).symm
  | storageStreamStore streamName fields =>
      refine (if_neg ?_).symm
      intro same
      cases same
      exact notStream rfl
  | storageEventStore eventName fields =>
      refine (if_neg ?_).symm
      intro same
      cases same
      exact notStream rfl
  | _ => rfl

/-- After any messages that use the name for one kind of value only. -/
theorem cell_after {messages : List StorageMessage} {name : ByteString} {kind : Kind}
    (free : ∀ message ∈ messages, message.NulFree) (notStream : kind ≠ .stream)
    (one : ∀ message ∈ messages, ∀ other, message.use = some (name, other) → other = kind) :
    (StorageActor.receive (some redisStorage)).after KeySpace.empty messages name =
      mockCell ((StorageActor.receive (some mockStorage)).after MockStorage.empty messages)
        name kind := by
  induction messages using List.reverseRecOn with
  | nil =>
      cases kind with
      | stream => exact absurd rfl notStream
      | _ => simp [mockCell, MockStorage.empty, KeySpace.empty]
  | append_singleton before message induction =>
      rw [List.forall_mem_append, List.forall_mem_singleton] at free one
      have same := induction free.1 one.1
      rw [Machine.after_append, Machine.after_append]
      simp only [Machine.after_cons, Machine.after_nil]
      rw [mockCell_receive free.2 _ name notStream, receive_redis, ← same]
      cases writes : written message with
      | none => rfl
      | some command =>
          rcases key_written free.2 writes with ⟨other, used⟩
          simp only [CellStore.execute]
          by_cases here : command.key = name
          · have known := one.2 other (here ▸ used)
            rw [if_pos (by rw [used, here, known]), here, Function.update_self]
          · rw [Function.update_of_ne (Ne.symm here), if_neg]
            intro same
            rw [used, Option.some.injEq, Prod.mk.injEq] at same
            exact here same.1

/-! ## Reading back -/

/-- No string of the value has a NUL byte. -/
def Plain : Cell → Prop
  | some (.string value) => NulFree value
  | some (.hash fields) => ∀ key value, fields[key]? = some value → NulFree key ∧ NulFree value
  | some (.list items) => ∀ item ∈ items, NulFree item
  | some (.set members) => ∀ member ∈ members, NulFree member
  | _ => True

theorem plain_insert_field {fields : MapType} (plain : Plain (some (.hash fields)))
    (key value : ByteString) :
    Plain (some (.hash (fields.insert (cStr key) (cStr value)))) := by
  intro other content found
  rw [getElem?_insert] at found
  split at found
  · next same =>
    cases found
    rw [← same]
    exact ⟨nulFree_cStr key, nulFree_cStr value⟩
  · exact plain other content found

theorem plain_insert_member {members : SetType} (plain : Plain (some (.set members)))
    (value : ByteString) : Plain (some (.set (members.insert (cStr value)))) := by
  intro member found
  rw [Std.ExtTreeSet.mem_insert, Std.compare_eq_iff_eq] at found
  rcases found with same | old
  · rw [← same]
    exact nulFree_cStr value
  · exact plain member old

theorem plain_appendRecord (fields : List (ByteString × ByteString)) {cell : Cell}
    (plain : Plain cell) : Plain (Command.appendRecord fields cell) := by
  cases cell with
  | none => trivial
  | some held =>
      cases held with
      | stream records => trivial
      | _ => exact plain

/-- Strings are cut on the way to the server. -/
theorem plain_effect {message : StorageMessage} {command : Command}
    (writes : written message = some command) {cell : Cell} (plain : Plain cell) :
    Plain (command.effect cell) := by
  cases message with
  | storageValueStore key value =>
      cases writes
      exact nulFree_cStr value
  | storageMapStore mapName key value =>
      cases writes
      cases cell with
      | none => exact plain_insert_field (by simp [Plain]) key value
      | some held =>
          cases held with
          | hash fields => exact plain_insert_field plain key value
          | _ => exact plain
  | storageListStore listName value =>
      cases writes
      cases cell with
      | none => exact List.forall_mem_singleton.mpr (nulFree_cStr value)
      | some held =>
          cases held with
          | list items =>
              exact List.forall_mem_append.mpr
                ⟨plain, List.forall_mem_singleton.mpr (nulFree_cStr value)⟩
          | _ => exact plain
  | storageSetStore setName value =>
      cases writes
      cases cell with
      | none => exact plain_insert_member (by simp [Plain]) value
      | some held =>
          cases held with
          | set members => exact plain_insert_member plain value
          | _ => exact plain
  | storageStreamStore streamName fields =>
      cases writes
      cases fields.toList.map fun field => (cStr field.1, cStr field.2) with
      | nil => exact plain
      | cons field rest => exact plain_appendRecord (field :: rest) plain
  | storageEventStore eventName fields =>
      cases writes
      rw [Command.effect, if_pos rfl]
      split
      · exact plain_appendRecord _ plain
      · exact plain
  | _ => cases writes

theorem plain_after (messages : List StorageMessage) (name : ByteString) :
    Plain ((StorageActor.receive (some redisStorage)).after KeySpace.empty messages name) := by
  revert name
  apply Machine.after_invariant _ (fun server : KeySpace => ∀ name, Plain (server name))
  · intro server message plain name
    rw [receive_redis]
    cases writes : written message with
    | none => exact plain name
    | some command =>
        simp only [CellStore.execute]
        by_cases here : name = command.key
        · rw [here, Function.update_self]
          exact plain_effect writes (plain command.key)
        · rw [Function.update_of_ne here]
          exact plain name
  · exact fun name => trivial

theorem readMap_eq (result : MapType) (fields : List (ByteString × ByteString)) :
    RedisStorage.readMap result (fields.flatMap fun field => [field.1, field.2]) =
      result.putAll (fields.map fun field => (cStr field.1, cStr field.2)) := by
  induction fields generalizing result with
  | nil => rfl
  | cons field rest induction => exact induction _

section Reading

variable {server : KeySpace} {name : ByteString} (free : NulFree name)
  (plain : Plain (server name))
include free plain

theorem valueGet_eq {held : Option ByteString} (holds : server name = held.map .string) :
    RedisStorage.valueGet server name = held := by
  have answered : (execute server (.get name)).2 = Command.reply (.get name) (server name) := rfl
  unfold RedisStorage.valueGet
  rw [cStr_of_nulFree free, answered]
  rw [holds] at plain ⊢
  cases held with
  | none => rfl
  | some value => exact congrArg some (cStr_of_nulFree plain)

theorem mapGet_eq {held : Option MapType} (holds : server name = held.map .hash) :
    RedisStorage.mapGet server name = some (held.getD ∅) := by
  have answered :
    (execute server (.hgetall name)).2 = Command.reply (.hgetall name) (server name) := rfl
  unfold RedisStorage.mapGet
  rw [cStr_of_nulFree free, answered]
  rw [holds] at plain ⊢
  cases held with
  | none => rfl
  | some fields =>
      have whole : (fields.toList.map fun field => (cStr field.1, cStr field.2)) =
          fields.toList := by
        apply List.map_eq_self
        intro field member
        have found := Std.ExtTreeMap.mem_toList_iff_getElem?_eq_some.mp member
        rcases plain field.1 field.2 found with ⟨key, value⟩
        rw [cStr_of_nulFree key, cStr_of_nulFree value]
      show some (RedisStorage.readMap ∅ _) = some fields
      rw [readMap_eq, whole, MapType.putAll_toList]

theorem listGet_eq {held : Option ListType} (holds : server name = held.map .list) :
    RedisStorage.listGet server name = some (held.getD []) := by
  have answered :
    (execute server (.lrange name)).2 = Command.reply (.lrange name) (server name) := rfl
  unfold RedisStorage.listGet
  rw [cStr_of_nulFree free, answered]
  rw [holds] at plain ⊢
  cases held with
  | none => rfl
  | some items =>
      show some (items.map cStr) = some items
      rw [List.map_eq_self fun item member => cStr_of_nulFree (plain item member)]

theorem setGet_eq {held : Option SetType} (holds : server name = held.map .set) :
    RedisStorage.setGet server name = some (held.getD ∅) := by
  have answered :
    (execute server (.smembers name)).2 = Command.reply (.smembers name) (server name) := rfl
  unfold RedisStorage.setGet
  rw [cStr_of_nulFree free, answered]
  rw [holds] at plain ⊢
  cases held with
  | none => rfl
  | some members =>
      have whole : members.toList.map cStr = members.toList := by
        apply List.map_eq_self
        intro item member
        exact cStr_of_nulFree (plain item (Std.ExtTreeSet.mem_toList.mp member))
      show some (members.toList.foldl
        (fun (result : SetType) element => result.insert (cStr element)) ∅) = some members
      rw [← List.foldl_map (g := fun (result : SetType) element => result.insert element), whole]
      exact congrArg some (SetType.putAll_toList members)

end Reading

/-! ## The answers -/

theorem stores_iff {message : StorageMessage} {name : ByteString} {kind : Kind}
    (notStream : kind ≠ .stream) :
    message.stores = some (name, kind) ↔
      (∃ command, written message = some command) ∧ message.use = some (name, kind) := by
  cases message with
  | storageStreamStore streamName fields =>
      simp [StorageMessage.stores, StorageMessage.use, Ne.symm notStream]
  | storageEventStore eventName fields =>
      simp [StorageMessage.stores, StorageMessage.use, Ne.symm notStream]
  | _ => simp [StorageMessage.stores, StorageMessage.use, written]

/-- What has been stored is there, even when the key holds something else. -/
theorem effect_of_stores {message : StorageMessage} {place : ByteString × Kind}
    (stores : message.stores = some place) {command : Command}
    (writes : written message = some command) (cell : Cell) : command.effect cell ≠ none := by
  cases message with
  | storageValueStore key value =>
      cases writes
      simp [Command.effect]
  | storageMapStore mapName key value =>
      cases writes
      cases cell with
      | none => simp [Command.effect]
      | some held => cases held with
        | _ => simp [Command.effect]
  | storageListStore listName value =>
      cases writes
      cases cell with
      | none => simp [Command.effect]
      | some held => cases held with
        | _ => simp [Command.effect]
  | storageSetStore setName value =>
      cases writes
      cases cell with
      | none => simp [Command.effect]
      | some held => cases held with
        | _ => simp [Command.effect]
  | _ => cases stores

/-- The test double holds something under a name once it has been stored. -/
theorem mockCell_after {messages : List StorageMessage} {name : ByteString} {kind : Kind}
    (free : ∀ message ∈ messages, message.NulFree) (notStream : kind ≠ .stream) :
    mockCell ((StorageActor.receive (some mockStorage)).after MockStorage.empty messages)
        name kind ≠ none ↔
      ∃ message ∈ messages, message.stores = some (name, kind) := by
  induction messages using List.reverseRecOn with
  | nil =>
      cases kind with
      | stream => exact absurd rfl notStream
      | _ => simp [mockCell, MockStorage.empty]
  | append_singleton before message induction =>
      rw [List.forall_mem_append, List.forall_mem_singleton] at free
      rw [Machine.after_append]
      simp only [Machine.after_cons, Machine.after_nil, List.mem_append, List.mem_singleton,
        or_and_right, exists_or, exists_eq_left]
      rw [mockCell_receive free.2 _ name notStream, ← induction free.1]
      by_cases stores : message.stores = some (name, kind)
      · rcases (stores_iff notStream).mp stores with ⟨⟨command, writes⟩, used⟩
        have there := effect_of_stores stores writes
        simp only [writes, used, if_true]
        exact iff_of_true (there _) (.inr stores)
      · rw [or_iff_left stores]
        cases writes : written message with
        | none => rfl
        | some command =>
            have unused : message.use ≠ some (name, kind) := fun used =>
              stores ((stores_iff notStream).mpr ⟨⟨command, writes⟩, used⟩)
            simp only [if_neg unused]

/-- Absence and emptiness are told apart on one side only. -/
theorem respond_iff {α : Type} {respond : Option α → Response}
    (injective : Function.Injective respond) (wrap : α → Value) (held : Option α) (fresh : α) :
    [respond held] = [respond (some (held.getD fresh))] ↔ held.map wrap ≠ none := by
  rw [List.singleton_inj, injective.eq_iff]
  cases held with
  | none => simp
  | some content => simp

/-- The two agree on a message unless it asks for a collection that is not there. -/
theorem responses_iff {message : StorageMessage} (free : message.NulFree) {mock : MockStorage}
    {server : KeySpace}
    (same : ∀ name kind, kind ≠ .stream → message.use = some (name, kind) →
      server name = mockCell mock name kind)
    (plain : ∀ name, Plain (server name)) :
    (StorageActor.receive (some mockStorage) mock message).2 =
        (StorageActor.receive (some redisStorage) server message).2 ↔
      ∀ name kind, message.reads = some (name, kind) → mockCell mock name kind ≠ none := by
  have only : ∀ place kind, (∀ name other, some (place, kind) = some (name, other) →
      mockCell mock name other ≠ none) ↔ mockCell mock place kind ≠ none := by
    intro place kind
    constructor
    · exact fun all => all place kind rfl
    · intro there name other equal
      cases equal
      exact there
  cases message with
  | storageValueGet key =>
      have read := valueGet_eq (free key List.mem_cons_self) (plain key)
        (same key .value (by simp) rfl)
      apply iff_of_true
      · show [Response.value _] = [Response.value (RedisStorage.valueGet server key)]
        rw [read]
        rfl
      · exact fun name kind reads => nomatch reads
  | storageMapGet mapName =>
      have read := mapGet_eq (free mapName List.mem_cons_self) (plain mapName)
        (same mapName .map (by simp) rfl)
      have alike := respond_iff (fun _ _ => Response.map.inj) .hash mock.map[mapName]? ∅
      rw [StorageMessage.reads, only, mockCell, ← alike, ← read]
      rfl
  | storageListGet listName =>
      have read := listGet_eq (free listName List.mem_cons_self) (plain listName)
        (same listName .list (by simp) rfl)
      have alike := respond_iff (fun _ _ => Response.list.inj) .list mock.list[listName]? []
      rw [StorageMessage.reads, only, mockCell, ← alike, ← read]
      rfl
  | storageSetGet setName =>
      have read := setGet_eq (free setName List.mem_cons_self) (plain setName)
        (same setName .set (by simp) rfl)
      have alike := respond_iff (fun _ _ => Response.set.inj) .set mock.set[setName]? ∅
      rw [StorageMessage.reads, only, mockCell, ← alike, ← read]
      rfl
  | _ =>
      apply iff_of_true rfl
      exact fun name kind reads => nomatch reads

end Redis

theorem readsStored_concat (before : List StorageMessage) (message : StorageMessage) :
    ReadsStored (before ++ [message]) ↔
      ReadsStored before ∧ ∀ place, message.reads = some place →
        ∃ earlier ∈ before, earlier.stores = some place := by
  unfold ReadsStored
  simp only [List.prefix_concat_iff]
  constructor
  · intro stored
    exact ⟨fun earlier next inside => stored earlier next (.inr inside),
      stored before message (.inl rfl)⟩
  · intro both earlier next inside
    rcases inside with whole | shorter
    · rcases List.append_inj' whole rfl with ⟨rfl, last⟩
      cases last
      exact both.2
    · exact both.1 earlier next shorter

theorem answersAlike_concat (before : List StorageMessage) (message : StorageMessage) :
    AnswersAlike (before ++ [message]) ↔
      AnswersAlike before ∧
        (StorageActor.receive (some mockStorage)
          ((StorageActor.receive (some mockStorage)).after .empty before) message).2 =
        (StorageActor.receive (some Redis.redisStorage)
          ((StorageActor.receive (some Redis.redisStorage)).after .empty before) message).2 := by
  unfold AnswersAlike
  rw [Machine.outputs_append, Machine.outputs_append]
  simp only [Machine.outputs_cons, Machine.outputs_nil, List.append_nil]
  constructor
  · intro alike
    apply List.append_inj' alike
    rw [StorageActor.length_receive, StorageActor.length_receive]
  · intro both
    rw [both.1, both.2]

theorem reads_not_stream {message : StorageMessage} {name : ByteString} {kind : Kind}
    (reads : message.reads = some (name, kind)) : kind ≠ .stream := by
  cases message with
  | storageMapGet mapName => cases reads; simp
  | storageListGet listName => cases reads; simp
  | storageSetGet setName => cases reads; simp
  | _ => cases reads

/-- The test double stands in for the real store as long as no map, list or set is
asked for that has not been stored. -/
theorem answersAlike_iff {messages : List StorageMessage} (oneKind : OneKind messages)
    (free : ∀ message ∈ messages, message.NulFree) :
    AnswersAlike messages ↔ ReadsStored messages := by
  induction messages using List.reverseRecOn with
  | nil =>
      apply iff_of_true rfl
      intro before message inside
      simp at inside
  | append_singleton before message induction =>
      have earlierKind : OneKind before := fun first firstIn second secondIn =>
        oneKind first (List.mem_append_left _ firstIn) second (List.mem_append_left _ secondIn)
      rw [List.forall_mem_append, List.forall_mem_singleton] at free
      have same : ∀ name kind, kind ≠ .stream → message.use = some (name, kind) →
          (StorageActor.receive (some Redis.redisStorage)).after .empty before name =
            Redis.mockCell ((StorageActor.receive (some mockStorage)).after .empty before)
              name kind := by
        intro name kind notStream used
        apply Redis.cell_after free.1 notStream
        exact fun earlier member other uses => oneKind earlier (List.mem_append_left _ member)
          message (List.mem_append_right _ List.mem_cons_self) name other kind uses used
      rw [answersAlike_concat, readsStored_concat, induction earlierKind free.1,
        Redis.responses_iff free.2 same (Redis.plain_after before)]
      apply and_congr_right'
      constructor
      · intro there place reads
        exact (Redis.mockCell_after free.1 (reads_not_stream reads)).mp (there _ _ reads)
      · intro stored name kind reads
        exact (Redis.mockCell_after free.1 (reads_not_stream reads)).mpr (stored _ reads)

/-- A map that nobody has stored is `nullopt` here and empty there. -/
theorem not_answersAlike_of_unstored :
    OneKind [.storageMapGet (text "mymap")] ∧ ¬ AnswersAlike [.storageMapGet (text "mymap")] := by
  constructor
  · simp [OneKind, StorageMessage.use]
  · intro alike
    have answers : [Response.map none] = [Response.map (some ∅)] := alike
    simp at answers

/-- The messages of the test of maps. -/
def mapStoreTest : List StorageMessage :=
  [.storageMapStore (text "mymap") (text "foo") (text "bar"), .storageMapGet (text "mymap")]

theorem answersAlike_iff_of_mapStoreTest :
    AnswersAlike mapStoreTest ↔ ReadsStored mapStoreTest :=
  answersAlike_iff (by simp [OneKind, mapStoreTest, StorageMessage.use]) (by decide)

end Pmud.Storage
