import Mathlib.Data.List.TakeWhile
import Pmud.Storage.RedisServer

/-! # `RedisStorage`

`storage/redis_storage.h` on a server that answers every command.
-/

namespace Pmud.Storage.Redis

/-- What is left of a string behind `c_str()`, in a command as in a reply. -/
def cStr (string : ByteString) : ByteString := string.takeWhile (· ≠ 0)

/-- No byte of the string ends it early. -/
def NulFree (string : ByteString) : Prop := 0 ∉ string

instance (string : ByteString) : Decidable (NulFree string) :=
  inferInstanceAs (Decidable (0 ∉ string))

theorem nulFree_iff (string : ByteString) : NulFree string ↔ ∀ byte ∈ string, byte ≠ 0 := by
  constructor
  · exact fun free byte member zero => free (zero ▸ member)
  · exact fun others member => others 0 member rfl

theorem cStr_of_nulFree {string : ByteString} (free : NulFree string) :
    cStr string = string := by
  rw [nulFree_iff] at free
  rw [cStr, List.takeWhile_eq_self_iff]
  exact fun byte member => decide_eq_true (free byte member)

theorem nulFree_cStr (string : ByteString) : NulFree (cStr string) := by
  rw [nulFree_iff]
  intro byte member
  simpa using List.mem_takeWhile_imp member

namespace RedisStorage

/-- A reply is success, whatever it says. -/
def stored (answered : KeySpace × Reply) : KeySpace × Bool := (answered.1, true)

def valueStore (server : KeySpace) (key value : ByteString) : KeySpace × Bool :=
  stored (execute server (.set (cStr key) (cStr value)))

def valueGet (server : KeySpace) (key : ByteString) : Option ByteString :=
  match (execute server (.get (cStr key))).2 with
  | .string str => some (cStr str)
  | _ => none

def mapStore (server : KeySpace) (mapName key value : ByteString) : KeySpace × Bool :=
  stored (execute server (.hset (cStr mapName) (cStr key) (cStr value)))

/-- The loop of `map_get`, two elements at a time. -/
def readMap (result : MapType) : List ByteString → MapType
  | key :: value :: rest => readMap (result.insert (cStr key) (cStr value)) rest
  | _ => result

def mapGet (server : KeySpace) (mapName : ByteString) : Option MapType :=
  match (execute server (.hgetall (cStr mapName))).2 with
  | .array elements => some (readMap ∅ elements)
  | _ => none

def listStore (server : KeySpace) (listName value : ByteString) : KeySpace × Bool :=
  stored (execute server (.rpush (cStr listName) (cStr value)))

def listGet (server : KeySpace) (listName : ByteString) : Option ListType :=
  match (execute server (.lrange (cStr listName))).2 with
  | .array elements => some (elements.map cStr)
  | _ => none

def setStore (server : KeySpace) (setName value : ByteString) : KeySpace × Bool :=
  stored (execute server (.sadd (cStr setName) (cStr value)))

def setGet (server : KeySpace) (setName : ByteString) : Option SetType :=
  match (execute server (.smembers (cStr setName))).2 with
  | .array elements =>
      some (elements.foldl (fun result element => result.insert (cStr element)) ∅)
  | _ => none

def delKey (server : KeySpace) (key : ByteString) : KeySpace × Bool :=
  stored (execute server (.del (cStr key)))

def eventStore (server : KeySpace) (eventName : ByteString) (fields : StreamRecordFields) :
    KeySpace × Bool :=
  stored (execute server (.fcall (cStr eventName) (text "events")
    (fields.toList.flatMap fun field => [cStr field.1, cStr field.2])))

def streamStore (server : KeySpace) (mapName : ByteString) (fields : StreamRecordFields) :
    KeySpace × Bool :=
  stored (execute server (.xadd (cStr mapName)
    (fields.toList.map fun field => (cStr field.1, cStr field.2))))

end RedisStorage

def redisStorage : StorageOperations KeySpace where
  valueStore := RedisStorage.valueStore
  valueGet := RedisStorage.valueGet
  mapStore := RedisStorage.mapStore
  mapGet := RedisStorage.mapGet
  listStore := RedisStorage.listStore
  listGet := RedisStorage.listGet
  setStore := RedisStorage.setStore
  setGet := RedisStorage.setGet
  delKey := RedisStorage.delKey
  eventStore := RedisStorage.eventStore
  streamStore := RedisStorage.streamStore

end Pmud.Storage.Redis
