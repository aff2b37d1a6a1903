import Std.Data.ExtTreeMap
import Std.Data.ExtTreeSet
import Pmud.Common.ByteString

/-! # The storage interface

`common/storage_types.h` and `storage/storage.h`.
-/

namespace Pmud.Storage

abbrev MapType := Std.ExtTreeMap ByteString ByteString

abbrev ListType := List ByteString

abbrev SetType := Std.ExtTreeSet ByteString

abbrev StreamRecordFields := MapType

/-- An implementation of `Storage`. What changes the state also reports success. -/
structure StorageOperations (State : Type) where
  valueStore : State → (key value : ByteString) → State × Bool
  valueGet : State → (key : ByteString) → Option ByteString
  mapStore : State → (mapName key value : ByteString) → State × Bool
  mapGet : State → (mapName : ByteString) → Option MapType
  listStore : State → (listName value : ByteString) → State × Bool
  listGet : State → (listName : ByteString) → Option ListType
  setStore : State → (setName value : ByteString) → State × Bool
  setGet : State → (setName : ByteString) → Option SetType
  delKey : State → (key : ByteString) → State × Bool
  eventStore : State → (eventName : ByteString) → StreamRecordFields → State × Bool
  streamStore : State → (mapName : ByteString) → StreamRecordFields → State × Bool

/-- The calls by which a document is loaded. -/
inductive StorageCall
  | valueStore (key value : ByteString)
  | mapStore (mapName key value : ByteString)
  | setStore (setName value : ByteString)
  | delKey (key : ByteString)
  deriving DecidableEq, Repr

namespace StorageCall

def name : StorageCall → ByteString
  | valueStore key _ => key
  | mapStore mapName _ _ => mapName
  | setStore setName _ => setName
  | delKey key => key

def isStore : StorageCall → Bool
  | delKey _ => false
  | _ => true

end StorageCall

namespace StorageOperations

variable {State : Type} (storage : StorageOperations State)

/-- One call, without its report. -/
def perform (state : State) : StorageCall → State
  | .valueStore key value => (storage.valueStore state key value).1
  | .mapStore mapName key value => (storage.mapStore state mapName key value).1
  | .setStore setName value => (storage.setStore state setName value).1
  | .delKey key => (storage.delKey state key).1

def performAll (state : State) (calls : List StorageCall) : State :=
  calls.foldl storage.perform state

end StorageOperations

end Pmud.Storage
