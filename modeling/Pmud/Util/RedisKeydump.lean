import Pmud.Foundation.Lines
import Pmud.Storage.RawCommands
import Pmud.Storage.StorageDouble

/-! # Dumping a key

`util/redis-keydump.cpp` behind its options: the type of a key decides how it is
read and printed.
-/

namespace Pmud.Util.Keydump

open Foundation Storage Storage.Redis

def newline : UInt8 := 10

def equalsSign : UInt8 := '='.toUInt8

/-- What `TYPE` answers. -/
def typeName : Cell → ByteString
  | none => text "none"
  | some (.string _) => text "string"
  | some (.hash _) => text "hash"
  | some (.list _) => text "list"
  | some (.set _) => text "set"
  | some (.stream _) => text "stream"

/-- The text of the reply to a command: `TYPE` takes one argument. -/
def rawReply (server : KeySpace) : List ByteString → ByteString
  | [_, key] => typeName (server key)
  | _ => text "ERR wrong number of arguments for 'type' command"

/-- A key that cannot be read. -/
def failure (message key : ByteString) : Outcome := ⟨message ++ key ++ [newline], [], 1⟩

def printed (lines : List ByteString) : Outcome :=
  ⟨lines.flatMap fun line => line ++ [newline], [], 0⟩

/-- From `string key_type;` on. -/
def dump (server : KeySpace) (key : ByteString) : Outcome :=
  let keyType := cStr (rawReply server (arguments (text "TYPE " ++ key)))
  if keyType = text "string" then
    match RedisStorage.valueGet server key with
    | none => failure (text "Error, could not get key ") key
    | some result => printed [result]
  else if keyType = text "list" then
    match RedisStorage.listGet server key with
    | none => failure (text "Error, could not get key ") key
    | some result => printed result
  else if keyType = text "hash" then
    match RedisStorage.mapGet server key with
    | none => failure (text "Error, could not get hash key ") key
    | some result => printed (result.toList.map fun field => field.1 ++ equalsSign :: field.2)
  else if keyType = text "set" then
    match RedisStorage.setGet server key with
    | none => failure (text "Error, could not get key ") key
    | some result => printed result.toList
  else
    ⟨[], text "Error, unsupported type: " ++ keyType ++ [newline], 0⟩

/-- `RedisStorage::init`, when the server can be reached. -/
def connect (now : Nat) (server : KeySpace) : KeySpace :=
  (RedisStorage.valueStore server (text "server_last_connected") (text (toString now))).1

/-- `main` behind its options. Messages of the log are off. -/
def main (now : Nat) (server : Option KeySpace) (key : ByteString) : Outcome :=
  if key = [] then ⟨[], [], 1⟩
  else
    match server with
    | none => ⟨[], [], 1⟩
    | some server => dump (connect now server) key

/-! ## What is printed -/

/-- The lines that tell a value. -/
def linesOf : Value → List ByteString
  | .string value => [value]
  | .hash fields => fields.toList.map fun field => field.1 ++ equalsSign :: field.2
  | .list items => items
  | .set members => members.toList
  | .stream _ => []

def unsupported (type : ByteString) : Outcome :=
  ⟨[], text "Error, unsupported type: " ++ type ++ [newline], 0⟩

def expected : Cell → Outcome
  | none => unsupported (text "none")
  | some (.stream _) => unsupported (text "stream")
  | some value => printed (linesOf value)

variable {server : KeySpace} {key : ByteString}

theorem rawReply_type (word : IsWord key) :
    cStr (rawReply server (arguments (text "TYPE " ++ key))) = typeName (server key) := by
  have words : text "TYPE " ++ key = sentence [text "TYPE", key] := by
    rw [sentence, List.intercalate_cons_cons, List.intercalate_singleton,
      show text "TYPE " = text "TYPE" ++ [blank] by decide]
  have each : ∀ word ∈ [text "TYPE", key], IsWord word := by
    simp only [List.forall_mem_cons]
    exact ⟨by decide, word, by simp⟩
  rw [words, arguments_sentence each, rawReply, cStr_of_nulFree]
  rcases server key with _ | value
  · decide
  · cases value <;> exact show NulFree (text _) by decide

theorem nulFree_word (word : IsWord key) : NulFree key :=
  fun zero => (word.plain 0 zero).1 rfl

/-- Every type is read as what it is. -/
theorem dump_eq (word : IsWord key) (plain : Plain (server key)) :
    dump server key = expected (server key) := by
  have free := nulFree_word word
  rw [dump, rawReply_type word]
  cases held : server key with
  | none => rfl
  | some value =>
      cases value with
      | string value =>
          have read := @valueGet_eq server key free plain (some value) held
          rw [read]
          rfl
      | list items =>
          have read := @listGet_eq server key free plain (some items) held
          rw [read]
          rfl
      | hash fields =>
          have read := @mapGet_eq server key free plain (some fields) held
          rw [read]
          rfl
      | set members =>
          have read := @setGet_eq server key free plain (some members) held
          rw [read]
          rfl
      | stream records => rfl

/-! ## Reading the dump -/

/-- The value of a type that a dump tells. -/
def restore (type dumped : ByteString) : Option Value :=
  let lines := linesFrom newline [] dumped
  if type = text "string" then some (.string dumped.dropLast)
  else if type = text "list" then some (.list lines)
  else if type = text "hash" then
    some (.hash (MapType.putAll ∅ (lines.map (splitFirst equalsSign))))
  else if type = text "set" then some (.set (SetType.putAll ∅ lines))
  else none

/-- No newline is inside an item, and no `=` inside the name of a field. -/
def Legible : Value → Prop
  | .string _ => True
  | .hash fields => ∀ field ∈ fields.toList,
      newline ∉ field.1 ∧ newline ∉ field.2 ∧ equalsSign ∉ field.1
  | .list items => ∀ item ∈ items, newline ∉ item
  | .set members => ∀ member ∈ members.toList, newline ∉ member
  | .stream _ => False

theorem restore_printed {value : Value} (legible : Legible value) :
    restore (typeName (some value)) (printed (linesOf value)).cout = some value := by
  cases value with
  | string value =>
      have whole : (printed (linesOf (.string value))).cout = value ++ [newline] :=
        List.append_nil _
      rw [whole, restore, List.dropLast_concat]
      rfl
  | list items =>
      have lines : linesFrom newline [] (printed (linesOf (.list items))).cout = items :=
        linesFrom_flatMap newline legible
      rw [restore, lines]
      rfl
  | hash fields =>
      have single : ∀ line ∈ linesOf (.hash fields), newline ∉ line := by
        intro line member
        rcases List.mem_map.mp member with ⟨field, inside, rfl⟩
        have parts := legible field inside
        simp only [List.mem_append, List.mem_cons, not_or]
        exact ⟨parts.1, by decide, parts.2.1⟩
      have split : (linesOf (.hash fields)).map (splitFirst equalsSign) = fields.toList := by
        rw [linesOf, List.map_map]
        apply List.map_eq_self
        intro field inside
        exact splitFirst_append equalsSign (legible field inside).2.2 field.2
      have lines : linesFrom newline [] (printed (linesOf (.hash fields))).cout =
          linesOf (.hash fields) := linesFrom_flatMap newline single
      rw [restore, lines, split, MapType.putAll_toList]
      rfl
  | set members =>
      have lines : linesFrom newline [] (printed (linesOf (.set members))).cout =
          members.toList := linesFrom_flatMap newline legible
      rw [restore, lines, SetType.putAll_toList]
      rfl
  | stream records => exact absurd legible not_false

/-- The key of the time of connection apart, what is dumped is what the server holds, as far as a
dump can tell it. -/
theorem main_restores (now : Nat) (word : IsWord key)
    (other : key ≠ text "server_last_connected") (plain : Plain (server key)) :
    main now (some server) key = expected (server key) ∧
      ∀ value, server key = some value → Legible value →
        (main now (some server) key).code = 0 ∧
          restore (typeName (server key)) (main now (some server) key).cout = some value := by
  have kept : connect now server key = server key := Function.update_of_ne other _ _
  have dumped : main now (some server) key = expected (server key) := by
    rw [main, if_neg word.nonempty, dump_eq word (by rw [kept]; exact plain), kept]
  refine ⟨dumped, ?_⟩
  intro value held legible
  rw [dumped, held]
  have shown : expected (some value) = printed (linesOf value) := by
    cases value with
    | stream records => exact absurd legible not_false
    | _ => rfl
  rw [shown]
  exact ⟨rfl, restore_printed legible⟩

/-- A server with one list. -/
def twoSwords : KeySpace := fun key =>
  if key = text "swords" then some (.list [text "short", text "long"]) else none

theorem main_restores_of_twoSwords :
    main 7 (some twoSwords) (text "swords") = expected (twoSwords (text "swords")) ∧
      ∀ value, twoSwords (text "swords") = some value → Legible value →
        (main 7 (some twoSwords) (text "swords")).code = 0 ∧
          restore (typeName (twoSwords (text "swords")))
            (main 7 (some twoSwords) (text "swords")).cout = some value := by
  have plain : ∀ item ∈ [text "short", text "long"], NulFree item := by decide
  exact main_restores 7 (by decide) (by decide) plain

end Pmud.Util.Keydump
