import Pmud.Storage.RedisStorage

/-! # What a write reports

The seven operations that answer `reply != nullptr`. The connection may fail, and
then there is no reply.
-/

namespace Pmud.Storage.Redis

/-- The calls that write. -/
inductive WriteCall
  | valueStore (key value : ByteString)
  | mapStore (mapName key value : ByteString)
  | listStore (listName value : ByteString)
  | setStore (setName value : ByteString)
  | delKey (key : ByteString)
  | streamStore (mapName : ByteString) (fields : StreamRecordFields)
  | eventStore (eventName : ByteString) (fields : StreamRecordFields)

/-- What becomes of a command: the server answers it, or the connection fails,
before or after the server has executed it. -/
inductive Connection
  | answers
  | fails (executed : Bool)
  deriving DecidableEq, Repr

/-- `redisCommand`, with `none` for a null pointer. -/
def redisCommand (connection : Connection) (server : KeySpace) (command : Command) :
    KeySpace × Option Reply :=
  match connection with
  | .answers => ((execute server command).1, some (execute server command).2)
  | .fails executed => (if executed then (execute server command).1 else server, none)

namespace WriteCall

def command : WriteCall → Command
  | valueStore key value => .set (cStr key) (cStr value)
  | mapStore mapName key value => .hset (cStr mapName) (cStr key) (cStr value)
  | listStore listName value => .rpush (cStr listName) (cStr value)
  | setStore setName value => .sadd (cStr setName) (cStr value)
  | delKey key => .del (cStr key)
  | streamStore mapName fields =>
      .xadd (cStr mapName) (fields.toList.map fun field => (cStr field.1, cStr field.2))
  | eventStore eventName fields =>
      .fcall (cStr eventName) (text "events")
        (fields.toList.flatMap fun field => [cStr field.1, cStr field.2])

/-- `return reply != nullptr` -/
def report (connection : Connection) (server : KeySpace) (call : WriteCall) : KeySpace × Bool :=
  let (after, reply) := redisCommand connection server call.command
  (after, reply.isSome)

/-- The operation of `RedisStorage` that a call is. -/
def operation (server : KeySpace) : WriteCall → KeySpace × Bool
  | valueStore key value => RedisStorage.valueStore server key value
  | mapStore mapName key value => RedisStorage.mapStore server mapName key value
  | listStore listName value => RedisStorage.listStore server listName value
  | setStore setName value => RedisStorage.setStore server setName value
  | delKey key => RedisStorage.delKey server key
  | streamStore mapName fields => RedisStorage.streamStore server mapName fields
  | eventStore eventName fields => RedisStorage.eventStore server eventName fields

/-- On a server that answers the calls are the operations of the storage. -/
theorem report_answers (server : KeySpace) (call : WriteCall) :
    call.report .answers server = call.operation server := by
  cases call with
  | _ => rfl

/-- A true report is given for a command that was executed. -/
def ReportsTruly (connection : Connection) (server : KeySpace) (call : WriteCall) : Prop :=
  (call.report connection server).2 = true →
    (redisCommand connection server call.command).2 ≠ some .error

end WriteCall

/-! ## Writes that the server executes -/

inductive ValueType
  | string
  | hash
  | list
  | set
  | stream
  deriving DecidableEq, Repr

def Value.type : Value → ValueType
  | string _ => .string
  | hash _ => .hash
  | list _ => .list
  | set _ => .set
  | stream _ => .stream

/-- There is no value, or one of this type. -/
def Admits (type : ValueType) (cell : Cell) : Prop :=
  ∀ value ∈ cell, value.type = type

/-- How many fields the function of this name hands on; there are three functions. -/
def fieldsRead (function : ByteString) : Option Nat :=
  if function = text "EventUserCreate" then some 2
  else if function = text "EventUserLogin" ∨ function = text "EventUserLogout" then some 1
  else none

/-- The key is free for the type of the write, and nothing is missing. -/
def WriteCall.Fits (server : KeySpace) : WriteCall → Prop
  | valueStore _ _ => True
  | mapStore mapName _ _ => Admits .hash (server (cStr mapName))
  | listStore listName _ => Admits .list (server (cStr listName))
  | setStore setName _ => Admits .set (server (cStr setName))
  | delKey _ => True
  | streamStore mapName fields => fields ≠ ∅ ∧ Admits .stream (server (cStr mapName))
  | eventStore eventName fields =>
      Admits .stream (server (text "events")) ∧
        ∃ count, fieldsRead (cStr eventName) = some count ∧ count ≤ fields.size

theorem eventRecord_isSome_iff (function : ByteString) (args : List ByteString) :
    (Command.eventRecord function args).isSome ↔
      ∃ count, fieldsRead function = some count ∧ 2 * count ≤ args.length := by
  unfold Command.eventRecord fieldsRead
  split
  · rcases args with _ | ⟨first, _ | ⟨second, _ | ⟨third, _ | ⟨fourth, rest⟩⟩⟩⟩
    all_goals simp
  · split
    · rcases args with _ | ⟨first, _ | ⟨second, rest⟩⟩
      all_goals simp
    · simp

theorem length_arguments (fields : StreamRecordFields) :
    (fields.toList.flatMap fun field => [cStr field.1, cStr field.2]).length =
      2 * fields.size := by
  rw [← Std.ExtTreeMap.length_toList]
  induction fields.toList with
  | nil => rfl
  | cons field rest induction =>
      rw [List.flatMap_cons, List.length_append, induction, List.length_cons]
      simp only [List.length_cons, List.length_nil]
      omega

theorem admits_none (type : ValueType) : Admits type none :=
  fun _ member => absurd member (Option.not_mem_none _)

theorem admits_some {type : ValueType} {value : Value} :
    Admits type (some value) ↔ value.type = type := by
  simp [Admits]

/-- The server accepts exactly the writes that fit. -/
theorem WriteCall.accepts_iff (server : KeySpace) (call : WriteCall) :
    call.command.accepts (server call.command.key) = true ↔ call.Fits server := by
  cases call with
  | valueStore key value => simp [command, Command.accepts, Fits]
  | delKey key => simp [command, Command.accepts, Fits]
  | mapStore mapName key value =>
      simp only [command, Command.key, Fits]
      cases server (cStr mapName) with
      | none => simp [Command.accepts, admits_none]
      | some held => cases held with
        | _ => simp [Command.accepts, admits_some, Value.type]
  | listStore listName value =>
      simp only [command, Command.key, Fits]
      cases server (cStr listName) with
      | none => simp [Command.accepts, admits_none]
      | some held => cases held with
        | _ => simp [Command.accepts, admits_some, Value.type]
  | setStore setName value =>
      simp only [command, Command.key, Fits]
      cases server (cStr setName) with
      | none => simp [Command.accepts, admits_none]
      | some held => cases held with
        | _ => simp [Command.accepts, admits_some, Value.type]
  | streamStore mapName fields =>
      simp only [command, Command.key, Fits]
      rw [ne_eq, ← Std.ExtTreeMap.toList_eq_nil_iff]
      cases fields.toList with
      | nil => simp [Command.accepts]
      | cons field rest =>
          cases server (cStr mapName) with
          | none => simp [Command.accepts, admits_none]
          | some held => cases held with
            | _ => simp [Command.accepts, admits_some, Value.type]
  | eventStore eventName fields =>
      simp only [command, Command.key, Fits]
      have enough := eventRecord_isSome_iff (cStr eventName)
        (fields.toList.flatMap fun field => [cStr field.1, cStr field.2])
      simp only [length_arguments, Nat.mul_le_mul_left_iff Nat.two_pos] at enough
      rw [← enough, and_comm]
      cases server (text "events") with
      | none => simp [Command.accepts, admits_none]
      | some held => cases held with
        | _ => simp [Command.accepts, admits_some, Value.type]

theorem answer_ne_error (command : Command) (cell : Cell) : command.answer cell ≠ .error := by
  intro failed
  cases command with
  | _ => cases cell with
    | none => cases failed
    | some value => cases value with
      | _ => cases failed

/-- A report is true of the server unless the server answers with an error, which
it does to a write that does not fit. -/
theorem reportsTruly_iff (connection : Connection) (server : KeySpace) (call : WriteCall) :
    call.ReportsTruly connection server ↔ (connection = .answers → call.Fits server) := by
  rw [← WriteCall.accepts_iff]
  cases connection with
  | fails executed => simp [WriteCall.ReportsTruly, WriteCall.report, redisCommand]
  | answers =>
      have replied : (redisCommand .answers server call.command).2 =
          some (call.command.reply (server call.command.key)) := rfl
      simp only [WriteCall.ReportsTruly, WriteCall.report, replied, Option.isSome_some,
        Option.some.injEq, forall_true_left, Command.reply, ne_eq]
      cases accepted : call.command.accepts (server call.command.key) with
      | true => simpa using answer_ne_error call.command (server call.command.key)
      | false => simp

/-- A key that holds a list is written to as a map. -/
theorem not_reportsTruly_of_list :
    let server := (WriteCall.report .answers .empty (.listStore (text "k") (text "x"))).1
    (WriteCall.report .answers server (.mapStore (text "k") (text "a") (text "b"))).2 = true ∧
      ¬ (WriteCall.mapStore (text "k") (text "a") (text "b")).ReportsTruly .answers server := by
  refine ⟨rfl, ?_⟩
  intro holds
  exact absurd rfl (holds rfl)

end Pmud.Storage.Redis
