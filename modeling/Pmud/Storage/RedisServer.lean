import Pmud.Foundation.CellStore
import Pmud.Storage.Storage

/-! # The Redis server

The key space and the commands that `storage/redis_storage.h` sends, with the
functions of `scripts/redis-functions/events.lua`.
-/

namespace Pmud.Storage.Redis

open Foundation

/-- What a key holds. The ids of the records of a stream are left out. -/
inductive Value
  | string (value : ByteString)
  | hash (fields : MapType)
  | list (items : ListType)
  | set (members : SetType)
  | stream (records : List (List (ByteString × ByteString)))

/-- `none` is a key that does not exist. -/
abbrev Cell := Option Value

abbrev KeySpace := ByteString → Cell

def KeySpace.empty : KeySpace := fun _ => none

inductive Command
  | set (key value : ByteString)
  | get (key : ByteString)
  | hset (key field value : ByteString)
  | hgetall (key : ByteString)
  | rpush (key value : ByteString)
  | lrange (key : ByteString)
  | sadd (key member : ByteString)
  | smembers (key : ByteString)
  | del (key : ByteString)
  | xadd (key : ByteString) (fields : List (ByteString × ByteString))
  | fcall (function key : ByteString) (args : List ByteString)
  deriving DecidableEq

/-- `redisReply`, as far as it is read. `written` is the status, the number or the
record id that answers a write. -/
inductive Reply
  | error
  | nil
  | string (str : ByteString)
  | array (elements : List ByteString)
  | written
  deriving DecidableEq

namespace Command

def key : Command → ByteString
  | set key _ => key
  | get key => key
  | hset key _ _ => key
  | hgetall key => key
  | rpush key _ => key
  | lrange key => key
  | sadd key _ => key
  | smembers key => key
  | del key => key
  | xadd key _ => key
  | fcall _ key _ => key

def appendRecord (fields : List (ByteString × ByteString)) : Cell → Cell
  | none => some (.stream [fields])
  | some (.stream records) => some (.stream (records ++ [fields]))
  | some other => some other

/-- The record that a function of `events.lua` adds to its stream. A missing
argument makes the function fail. -/
def eventRecord (function : ByteString) (args : List ByteString) :
    Option (List (ByteString × ByteString)) :=
  if function = text "EventUserCreate" then
    match args with
    | first :: second :: third :: fourth :: _ =>
        some [(text "event", text "EventUserCreate"), (first, second), (third, fourth)]
    | _ => none
  else if function = text "EventUserLogin" ∨ function = text "EventUserLogout" then
    match args with
    | first :: second :: _ => some [(text "event", function), (first, second)]
    | _ => none
  else none

/-- What a command does to its key. A command for a value of another type
answers with an error and does nothing. -/
def effect : Command → Cell → Cell
  | set _ value, _ => some (.string value)
  | hset _ field value, none => some (.hash ((∅ : MapType).insert field value))
  | hset _ field value, some (.hash fields) => some (.hash (fields.insert field value))
  | rpush _ value, none => some (.list [value])
  | rpush _ value, some (.list items) => some (.list (items ++ [value]))
  | sadd _ member, none => some (.set ((∅ : SetType).insert member))
  | sadd _ member, some (.set members) => some (.set (members.insert member))
  | del _, _ => none
  | xadd _ (field :: fields), cell => appendRecord (field :: fields) cell
  | fcall function key args, cell =>
      if key = text "events" then
        match eventRecord function args with
        | some record => appendRecord record cell
        | none => cell
      else cell
  | _, cell => cell

/-- The key does not exist or holds a value of the type the command is for. -/
def accepts : Command → Cell → Bool
  | set _ _, _ => true
  | del _, _ => true
  | get _, some (.string _) => true
  | hset _ _ _, some (.hash _) => true
  | hgetall _, some (.hash _) => true
  | rpush _ _, some (.list _) => true
  | lrange _, some (.list _) => true
  | sadd _ _, some (.set _) => true
  | smembers _, some (.set _) => true
  | xadd _ [], _ => false
  | xadd _ (_ :: _), some (.stream _) => true
  | fcall function key args, cell =>
      key = text "events" && (eventRecord function args).isSome &&
        match cell with
        | none => true
        | some (.stream _) => true
        | _ => false
  | _, none => true
  | _, some _ => false

/-- The reply to a command that is accepted. -/
def answer : Command → Cell → Reply
  | get _, none => .nil
  | get _, some (.string value) => .string value
  | hgetall _, some (.hash fields) =>
      .array (fields.toList.flatMap fun field => [field.1, field.2])
  | hgetall _, _ => .array []
  | lrange _, some (.list items) => .array items
  | lrange _, _ => .array []
  | smembers _, some (.set members) => .array members.toList
  | smembers _, _ => .array []
  | _, _ => .written

def reply (command : Command) (cell : Cell) : Reply :=
  if command.accepts cell then command.answer cell else .error

end Command

def execute (server : KeySpace) (command : Command) : KeySpace × Reply :=
  (CellStore.execute Command.key Command.effect server command,
    command.reply (server command.key))

end Pmud.Storage.Redis
