import Pmud.Foundation.Machine
import Pmud.Storage.Storage

/-! # `StorageActor`

`storage/storage_actor.h`, with the storage it holds.
-/

namespace Pmud.Storage

open Foundation

/-- The messages of `common/global_type_id.h` that a storage actor handles. -/
inductive StorageMessage
  | storageNoop
  | storageValueStore (key value : ByteString)
  | storageValueGet (key : ByteString)
  | storageMapStore (mapName key value : ByteString)
  | storageMapGet (mapName : ByteString)
  | storageListStore (listName value : ByteString)
  | storageListGet (listName : ByteString)
  | storageSetStore (setName value : ByteString)
  | storageSetGet (setName : ByteString)
  | storageStreamStore (streamName : ByteString) (fields : StreamRecordFields)
  | storageEventStore (eventName : ByteString) (fields : StreamRecordFields)

/-- What a request is answered with; `done` carries nothing. -/
inductive Response
  | done
  | value (answer : Option ByteString)
  | map (answer : Option MapType)
  | list (answer : Option ListType)
  | set (answer : Option SetType)

namespace StorageActor

variable {State : Type}

/-- A handler that stores, with `m_storage` and its state. -/
def store (storage : Option (StorageOperations State)) (state : State)
    (change : StorageOperations State → State × Bool) : State × List Response :=
  match storage with
  | some storage => ((change storage).1, [.done])
  | none => (state, [.done])

/-- A handler that reads. -/
def get {α : Type} (storage : Option (StorageOperations State)) (state : State)
    (respond : Option α → Response) (read : StorageOperations State → Option α) :
    State × List Response :=
  match storage with
  | some storage => (state, [respond (read storage)])
  | none => (state, [respond none])

/-- `make_behavior`. -/
def receive (storage : Option (StorageOperations State)) :
    Machine State StorageMessage Response := fun state message =>
  match message with
  | .storageNoop => (state, [.done])
  | .storageValueStore key value => store storage state (·.valueStore state key value)
  | .storageValueGet key => get storage state .value (·.valueGet state key)
  | .storageMapStore mapName key value => store storage state (·.mapStore state mapName key value)
  | .storageMapGet mapName => get storage state .map (·.mapGet state mapName)
  | .storageListStore listName value => store storage state (·.listStore state listName value)
  | .storageListGet listName => get storage state .list (·.listGet state listName)
  | .storageSetStore setName value => store storage state (·.setStore state setName value)
  | .storageSetGet setName => get storage state .set (·.setGet state setName)
  | .storageStreamStore streamName fields =>
      store storage state (·.streamStore state streamName fields)
  | .storageEventStore eventName fields =>
      store storage state (·.eventStore state eventName fields)

/-- Every message is responded to once. -/
theorem length_receive (storage : Option (StorageOperations State)) (state : State)
    (message : StorageMessage) : (receive storage state message).2.length = 1 := by
  cases storage with
  | none => cases message with
    | _ => rfl
  | some storage => cases message with
    | _ => rfl

end StorageActor

end Pmud.Storage
