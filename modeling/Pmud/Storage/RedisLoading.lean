import Pmud.Storage.Collections
import Pmud.Storage.RedisStorage
import Pmud.Storage.YamlStorage

/-! # Loading into Redis

The calls of a load as commands for single keys. A second load finds every key
as the first has left it and leaves it so.
-/

namespace Pmud.Storage.Redis

open Foundation

/-- The command that `RedisStorage` sends for a call. -/
def commandOf : StorageCall → Command
  | .valueStore key value => .set (cStr key) (cStr value)
  | .mapStore mapName key value => .hset (cStr mapName) (cStr key) (cStr value)
  | .setStore setName value => .sadd (cStr setName) (cStr value)
  | .delKey key => .del (cStr key)

abbrev executeAll : KeySpace → List Command → KeySpace :=
  CellStore.executeAll Command.key Command.effect

abbrev effects : Cell → List Command → Cell := CellStore.effects Command.effect

theorem key_commandOf (made : StorageCall) : (commandOf made).key = cStr made.name := by
  cases made with
  | _ => rfl

theorem performAll_eq (server : KeySpace) (calls : List StorageCall) :
    redisStorage.performAll server calls = executeAll server (calls.map commandOf) := by
  unfold StorageOperations.performAll executeAll CellStore.executeAll
  rw [List.foldl_map]
  congr
  funext state made
  cases made with
  | _ => rfl

/-! ## What the commands of a load do to a key -/

def fieldOf : Command → Option (ByteString × ByteString)
  | .hset _ field value => some (field, value)
  | _ => none

def memberOf : Command → Option ByteString
  | .sadd _ member => some member
  | _ => none

/-- A field is set or a member added. -/
def isFilling : Command → Bool
  | .hset _ _ _ => true
  | .sadd _ _ => true
  | _ => false

/-- The key is given a new value or deleted. -/
def isReset : Command → Bool
  | .set _ _ => true
  | .del _ => true
  | _ => false

theorem effect_of_isReset {command : Command} (reset : isReset command = true)
    (cell other : Cell) : command.effect cell = command.effect other := by
  cases command with
  | set key value => rfl
  | del key => rfl
  | _ => cases reset

section Filling

variable {commands : List Command} (filling : ∀ command ∈ commands, isFilling command = true)
include filling

theorem effects_hash (fields : MapType) :
    effects (some (.hash fields)) commands =
      some (.hash (MapType.putAll fields (commands.filterMap fieldOf))) := by
  induction commands generalizing fields with
  | nil => rfl
  | cons command rest induction =>
      rw [List.forall_mem_cons] at filling
      cases command with
      | hset key field value => exact induction filling.2 _
      | sadd key member => exact induction filling.2 _
      | _ => cases filling.1

theorem effects_set (members : SetType) :
    effects (some (.set members)) commands =
      some (.set (SetType.putAll members (commands.filterMap memberOf))) := by
  induction commands generalizing members with
  | nil => rfl
  | cons command rest induction =>
      rw [List.forall_mem_cons] at filling
      cases command with
      | hset key field value => exact induction filling.2 _
      | sadd key member => exact induction filling.2 _
      | _ => cases filling.1

/-- A value of another type stays as it is. -/
theorem effects_other (value : Value) (notHash : ∀ fields, value ≠ .hash fields)
    (notSet : ∀ members, value ≠ .set members) :
    effects (some value) commands = some value := by
  induction commands with
  | nil => rfl
  | cons command rest induction =>
      rw [List.forall_mem_cons] at filling
      have unchanged : command.effect (some value) = some value := by
        cases command with
        | hset key field content => cases value with
          | hash fields => exact absurd rfl (notHash fields)
          | _ => rfl
        | sadd key member => cases value with
          | set members => exact absurd rfl (notSet members)
          | _ => rfl
        | _ => cases filling.1
      show effects (command.effect (some value)) rest = _
      rw [unchanged, induction filling.2]

theorem effects_filling_twice (value : Value) :
    effects (effects (some value) commands) commands = effects (some value) commands := by
  cases kind : value with
  | hash fields =>
      rw [effects_hash filling, effects_hash filling, MapType.putAll_putAll]
  | set members =>
      rw [effects_set filling, effects_set filling, SetType.putAll_putAll]
  | _ =>
      have same := effects_other filling value (by simp [kind]) (by simp [kind])
      rw [← kind, same, same]

end Filling

section First

/-! The first command decides about the type of a key that does not exist. -/

variable {command : Command} {rest : List Command}
  (filling : ∀ command ∈ rest, isFilling command = true)
include filling

theorem effects_none_hash {field : ByteString × ByteString}
    (first : fieldOf command = some field) :
    effects none (command :: rest) =
      some (.hash (MapType.putAll ∅ ((command :: rest).filterMap fieldOf))) := by
  cases command with
  | hset key field value => exact effects_hash filling _
  | _ => cases first

theorem effects_none_set {member : ByteString} (first : memberOf command = some member) :
    effects none (command :: rest) =
      some (.set (SetType.putAll ∅ ((command :: rest).filterMap memberOf))) := by
  cases command with
  | sadd key member => exact effects_set filling _
  | _ => cases first

end First

theorem effects_none_twice {commands : List Command}
    (filling : ∀ command ∈ commands, isFilling command = true) :
    effects (effects none commands) commands = effects none commands := by
  cases commands with
  | nil => rfl
  | cons command rest =>
      have later := (List.forall_mem_cons.mp filling).2
      have here := (List.forall_mem_cons.mp filling).1
      cases kind : command with
      | hset key field value =>
          subst kind
          rw [effects_none_hash later rfl, effects_hash filling, MapType.putAll_putAll]
      | sadd key member =>
          subst kind
          rw [effects_none_set later rfl, effects_set filling, SetType.putAll_putAll]
      | _ =>
          subst kind
          cases here

theorem effects_twice {commands : List Command}
    (loading : ∀ command ∈ commands, isFilling command = true ∨ isReset command = true)
    (cell : Cell) : effects (effects cell commands) commands = effects cell commands := by
  by_cases resets : ∃ command ∈ commands, isReset command = true
  · rcases resets with ⟨command, member, reset⟩
    exact CellStore.effects_of_reset _ (effect_of_isReset reset) member _ _
  · have filling : ∀ command ∈ commands, isFilling command = true := fun command member =>
      (loading command member).resolve_right fun reset => resets ⟨command, member, reset⟩
    cases cell with
    | none => exact effects_none_twice filling
    | some value => exact effects_filling_twice filling value

/-! ## Loading twice -/

theorem commandOf_loading (made : StorageCall) :
    isFilling (commandOf made) = true ∨ isReset (commandOf made) = true := by
  cases made with
  | mapStore mapName key value => exact .inl rfl
  | setStore setName value => exact .inl rfl
  | valueStore key value => exact .inr rfl
  | delKey key => exact .inr rfl

theorem performAll_twice (server : KeySpace) (calls : List StorageCall) :
    redisStorage.performAll (redisStorage.performAll server calls) calls =
      redisStorage.performAll server calls := by
  rw [performAll_eq, performAll_eq]
  apply CellStore.executeAll_twice
  intro place cell ours
  apply effects_twice
  intro command member
  rcases List.mem_map.mp (List.mem_filter.mp member).1 with ⟨made, -, rfl⟩
  exact commandOf_loading made

/-- A document that has been loaded can be loaded again. This takes nothing of the
document, not even that its keys are scalars. -/
theorem loadInto_twice (server : KeySpace) (path : ByteString) (node : Node) :
    loadInto redisStorage (loadInto redisStorage server path node) path node =
      loadInto redisStorage server path node :=
  performAll_twice server _

end Pmud.Storage.Redis
