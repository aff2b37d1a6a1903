import Pmud.Storage.Collections

/-! # `MockStorage`

The test double of `test/mocks/mock_storage.h`.
-/

namespace Pmud.Storage

/-- The members `m_kv`, `m_map`, `m_list` and `m_set`. -/
structure MockStorage where
  kv : MapType
  map : Std.ExtTreeMap ByteString MapType
  list : Std.ExtTreeMap ByteString ListType
  set : Std.ExtTreeMap ByteString SetType

namespace MockStorage

def empty : MockStorage where
  kv := ∅
  map := ∅
  list := ∅
  set := ∅

/-- What `map_store`, `list_store` and `set_store` do to the collection of a name. -/
def change {α : Type} (held : Std.ExtTreeMap ByteString α) (name : ByteString) (fresh : α)
    (add : α → α) : Std.ExtTreeMap ByteString α :=
  let held := if held.contains name then held else held.insert name fresh
  held.insert name (add (held.getD name fresh))

theorem getElem?_change {α : Type} (held : Std.ExtTreeMap ByteString α) (name : ByteString)
    (fresh : α) (add : α → α) (other : ByteString) :
    (change held name fresh add)[other]? =
      if name = other then some (add (held[name]?.getD fresh)) else held[other]? := by
  unfold change
  split
  · rw [getElem?_insert, Std.ExtTreeMap.getD_eq_getD_getElem?]
  · next absent =>
    have none : held[name]? = none := by simpa using absent
    rw [getElem?_insert, getElem?_insert, Std.ExtTreeMap.getD_eq_getD_getElem?, getElem?_insert,
      if_pos rfl, none]
    split
    · rfl
    · rfl

def valueStore (mock : MockStorage) (key value : ByteString) : MockStorage × Bool :=
  ({ mock with kv := mock.kv.insert key value }, true)

def valueGet (mock : MockStorage) (key : ByteString) : Option ByteString :=
  mock.kv[key]?

def mapStore (mock : MockStorage) (mapName key value : ByteString) : MockStorage × Bool :=
  ({ mock with map := change mock.map mapName ∅ (·.insert key value) }, true)

def mapGet (mock : MockStorage) (mapName : ByteString) : Option MapType :=
  mock.map[mapName]?

def listStore (mock : MockStorage) (listName value : ByteString) : MockStorage × Bool :=
  ({ mock with list := change mock.list listName [] (· ++ [value]) }, true)

def listGet (mock : MockStorage) (listName : ByteString) : Option ListType :=
  mock.list[listName]?

def setStore (mock : MockStorage) (setName value : ByteString) : MockStorage × Bool :=
  ({ mock with set := change mock.set setName ∅ (·.insert value) }, true)

def setGet (mock : MockStorage) (setName : ByteString) : Option SetType :=
  mock.set[setName]?

def delKey (mock : MockStorage) (key : ByteString) : MockStorage × Bool :=
  if mock.kv.contains key then ({ mock with kv := mock.kv.erase key }, true)
  else if mock.map.contains key then ({ mock with map := mock.map.erase key }, true)
  else if mock.list.contains key then ({ mock with list := mock.list.erase key }, true)
  else if mock.set.contains key then ({ mock with set := mock.set.erase key }, true)
  else (mock, false)

end MockStorage

def mockStorage : StorageOperations MockStorage where
  valueStore := MockStorage.valueStore
  valueGet := MockStorage.valueGet
  mapStore := MockStorage.mapStore
  mapGet := MockStorage.mapGet
  listStore := MockStorage.listStore
  listGet := MockStorage.listGet
  setStore := MockStorage.setStore
  setGet := MockStorage.setGet
  delKey := MockStorage.delKey
  eventStore := fun mock _ _ => (mock, true)
  streamStore := fun mock _ _ => (mock, true)

end Pmud.Storage
