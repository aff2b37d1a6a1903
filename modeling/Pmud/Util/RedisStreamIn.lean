import Mathlib.Algebra.Group.Nat.Defs
import Pmud.Foundation.Relay
import Pmud.Storage.RawCommands
import Pmud.Util.RedisStreamOut

/-! # Feeding a stream

The loop of `util/redis-stream-in.cpp`, any number of times, on the stream that
`util/redis-stream-out.cpp` follows.
-/

namespace Pmud.Util

open Foundation Storage Storage.Redis Event

/-- `fmt::format("XADD {} * sensor-id 1234 temperature {}", stream_name, counter)` -/
def xaddText (streamName : ByteString) (counter : BitVec 64) : ByteString :=
  text "XADD " ++ streamName ++ text " * sensor-id 1234 temperature " ++
    text (toString counter.toNat)

/-- Names and values take turns. -/
def fieldPairs : List ByteString → Option (List (ByteString × ByteString))
  | [] => some []
  | [_] => none
  | name :: value :: rest => (fieldPairs rest).map fun fields => (name, value) :: fields

/-- The key and the fields of an `XADD` that leaves the id to the server. -/
def xaddRequest : List ByteString → Option (ByteString × List (ByteString × ByteString))
  | command :: key :: id :: field :: rest =>
      if command = text "XADD" ∧ id = text "*" then
        (fieldPairs (field :: rest)).map fun fields => (key, fields)
      else none
  | _ => none

/-- The stream with its reader, and the counter of each program that feeds it. -/
structure Feed where
  run : Run
  counters : Nat → BitVec 64

inductive FeedAction
  /-- A turn of the loop. Without an id the server has stored nothing. -/
  | send (producer : Nat) (stored : Option EntryId)
  | read (answer : Answer)
  | turn

def feeding (options : Options) : StepFunction Feed FeedAction
  | feed, .send producer stored =>
      let counter := feed.counters producer
      let counters := Function.update feed.counters producer (counter + 1)
      match stored with
      | none => some { feed with counters }
      | some id =>
          (xaddRequest (arguments (xaddText options.streamName counter))).bind
            fun (key, fields) =>
              if key = options.streamName then
                (processing options feed.run (.add ⟨id, fields⟩)).map fun run => ⟨run, counters⟩
              else none
  | feed, .read answer =>
      (processing options feed.run (.read answer)).map fun run => { feed with run }
  | feed, .turn => (processing options feed.run .turn).map fun run => { feed with run }

def Feed.initial : Feed := ⟨.initial, fun _ => 1⟩

/-- `Sent {} records`, with the counter as it is behind the turn. -/
def sentLine (counter : BitVec 64) : Option Nat :=
  if counter.toNat % 1000 = 0 then some counter.toNat else none

/-- The number of records and the temperature of `Read latest batch of records until {}`, if the
next turn of the reader prints it. -/
def Reader.report (options : Options) (reader : Reader) : Option (Nat × ByteString) :=
  reader.record.bind fun record =>
    if (reader.counter + 1) % options.batchSize = 0 then
      some (reader.counter + 1, record.fields.getD (text "temperature") [])
    else none

/-! ## What is stored -/

/-- The fields of one record. -/
def reading (temperature : Nat) : List (ByteString × ByteString) :=
  [(text "sensor-id", text "1234"),
    (text "temperature", text (toString (temperature % 2 ^ 64)))]

theorem isWord_number (n : Nat) : IsWord (text (toString n)) where
  nonempty := by
    rw [text_number]
    simp [Nat.toDigits_ne_nil]
  plain byte member := by
    have bounds := byte_bounds member
    refine ⟨?_, ?_, ?_⟩ <;> rintro rfl <;> exact absurd bounds (by decide)

theorem xaddRequest_xaddText {streamName : ByteString} (word : IsWord streamName) (sent : Nat) :
    xaddRequest (arguments (xaddText streamName (BitVec.ofNat 64 sent))) =
      some (streamName, reading sent) := by
  have words : xaddText streamName (BitVec.ofNat 64 sent) =
      sentence [text "XADD", streamName, text "*", text "sensor-id", text "1234",
        text "temperature", text (toString (sent % 2 ^ 64))] := by
    have first : text "XADD " = text "XADD" ++ [blank] := by decide
    have middle : text " * sensor-id 1234 temperature " =
        [blank] ++ text "*" ++ [blank] ++ text "sensor-id" ++ [blank] ++ text "1234" ++ [blank] ++
          text "temperature" ++ [blank] := by decide
    rw [xaddText, first, middle, BitVec.toNat_ofNat]
    simp only [sentence, List.intercalate_cons_cons, List.intercalate_singleton,
      List.append_assoc]
  rw [words, arguments_sentence]
  · rfl
  · simp only [List.forall_mem_cons]
    exact ⟨by decide, word, by decide, by decide, by decide, by decide, isWord_number _, by simp⟩

/-! ## What a run keeps -/

/-- How often a program has sent a record. -/
def attempts (producer : Nat) (actions : List FeedAction) : Nat :=
  actions.countP fun
    | .send other _ => other = producer
    | _ => false

/-- Nothing that the program has sent was left out. -/
def AllStored (producer : Nat) (actions : List FeedAction) : Prop :=
  ∀ action ∈ actions, action ≠ .send producer none

/-- `order` tells for each entry of the stream whose it is, and which of the records of that
program. -/
structure Fed (actions : List FeedAction) (feed : Feed) (order : List (Nat × Nat)) : Prop where
  counters : ∀ producer, feed.counters producer = BitVec.ofNat 64 (attempts producer actions + 1)
  entries : feed.run.1.stream.entries.map Entry.fields = order.map fun sent => reading sent.2
  sublist : ∀ producer, (addressedTo order producer).Sublist
    (List.range' 1 (attempts producer actions))
  complete : ∀ producer, AllStored producer actions →
    addressedTo order producer = List.range' 1 (attempts producer actions)
  follows : ∃ seen pending later, Follows feed.run seen pending later

theorem Fed.opening : Fed [] .initial [] where
  counters _ := rfl
  entries := rfl
  sublist _ := List.nil_sublist _
  complete _ _ := rfl
  follows := ⟨[], [], [], .initial⟩

theorem attempts_send (producer other : Nat) (actions : List FeedAction)
    (stored : Option EntryId) :
    attempts producer (actions ++ [.send other stored]) =
      attempts producer actions + if other = producer then 1 else 0 := by
  by_cases same : other = producer <;> simp [attempts, same]

theorem AllStored.front {producer : Nat} {actions : List FeedAction} {action : FeedAction}
    (stored : AllStored producer (actions ++ [action])) : AllStored producer actions :=
  fun earlier member => stored earlier (List.mem_append_left _ member)

variable {options : Options} {actions : List FeedAction} {feed next : Feed}
  {order : List (Nat × Nat)}

/-- A step of the reader changes nothing in the stream. -/
theorem entries_of_step {run after : Run} {action : Action}
    (taken : processing options run action = some after)
    (reader : ∀ entry, action ≠ .add entry) : after.1.stream = run.1.stream := by
  rcases StepFunction.recording_eq_some _ |>.mp taken with ⟨taken, -⟩
  cases action with
  | add entry => exact absurd rfl (reader entry)
  | read answer =>
      simp only [step, Option.bind_eq_some_iff, Option.map_eq_some_iff] at taken
      rcases taken with ⟨reply, -, reader, -, equal⟩
      rw [← equal]
  | turn =>
      simp only [step, Option.map_eq_some_iff] at taken
      rcases taken with ⟨reader, -, equal⟩
      rw [← equal]

theorem entries_of_add {run after : Run} {entry : Entry}
    (taken : processing options run (.add entry) = some after) :
    after.1.stream.entries = run.1.stream.entries ++ [entry] := by
  rcases StepFunction.recording_eq_some _ |>.mp taken with ⟨taken, -⟩
  simp only [step, Option.map_eq_some_iff] at taken
  rcases taken with ⟨stream, added, equal⟩
  rw [← equal]
  unfold Stream.add at added
  split at added
  · cases added
    rfl
  · cases added

theorem Fed.moved (fed : Fed actions feed order) {action : Action} {chosen : FeedAction}
    {run : Run} (taken : processing options feed.run action = some run)
    (reader : ∀ entry, action ≠ .add entry)
    (silent : ∀ other stored, chosen ≠ .send other stored) :
    Fed (actions ++ [chosen]) { feed with run } order := by
  have same : ∀ producer,
      attempts producer (actions ++ [chosen]) = attempts producer actions := by
    intro producer
    cases chosen with
    | send other stored => exact absurd rfl (silent other stored)
    | _ => simp [attempts]
  rcases fed.follows with ⟨seen, pending, later, follows⟩
  refine ⟨fun producer => ?_, ?_, fun producer => ?_, fun producer stored => ?_,
    follows.step taken⟩
  · rw [same]
    exact fed.counters producer
  · rw [entries_of_step taken reader]
    exact fed.entries
  · rw [same]
    exact fed.sublist producer
  · rw [same]
    exact fed.complete producer stored.front

/-- The counter of a program behind another turn of a loop. -/
theorem Fed.count (fed : Fed actions feed order) (producer other : Nat)
    (stored : Option EntryId) :
    Function.update feed.counters other (feed.counters other + 1) producer =
      BitVec.ofNat 64 (attempts producer (actions ++ [.send other stored]) + 1) := by
  rw [attempts_send]
  by_cases same : other = producer
  · subst same
    rw [Function.update_self, fed.counters, if_pos rfl]
    exact (BitVec.ofNat_add _ 1).symm
  · rw [Function.update_of_ne (Ne.symm same), fed.counters, if_neg same, Nat.add_zero]

theorem Fed.send_nothing (fed : Fed actions feed order) (other : Nat) :
    Fed (actions ++ [.send other none])
      { feed with
        counters := Function.update feed.counters other (feed.counters other + 1) } order where
  counters producer := fed.count producer other none
  entries := fed.entries
  sublist producer := by
    rw [attempts_send]
    refine (fed.sublist producer).trans ?_
    rw [← List.range'_append_1]
    exact List.sublist_append_left _ _
  complete producer stored := by
    have others : other ≠ producer := by
      rintro rfl
      exact stored _ (List.mem_append_right _ (List.mem_singleton_self _)) rfl
    rw [attempts_send, if_neg others, Nat.add_zero]
    exact fed.complete producer stored.front
  follows := fed.follows

theorem Fed.send (fed : Fed actions feed order) {other : Nat} {id : EntryId} {run : Run}
    (taken : processing options feed.run (.add ⟨id, reading (attempts other actions + 1)⟩) =
      some run) :
    Fed (actions ++ [.send other (some id)])
      ⟨run, Function.update feed.counters other (feed.counters other + 1)⟩
      (order ++ [(other, attempts other actions + 1)]) where
  counters producer := fed.count producer other (some id)
  entries := by
    rw [entries_of_add taken, List.map_append, List.map_append, fed.entries]
    rfl
  sublist producer := by
    rw [addressedTo_append, addressedTo_singleton, attempts_send]
    by_cases same : other = producer
    · subst same
      rw [if_pos rfl, if_pos rfl, List.range'_1_concat, Nat.add_comm 1]
      exact (fed.sublist other).append (List.Sublist.refl _)
    · rw [if_neg same, if_neg same, List.append_nil, Nat.add_zero]
      exact fed.sublist producer
  complete producer stored := by
    rw [addressedTo_append, addressedTo_singleton, attempts_send,
      fed.complete producer stored.front]
    by_cases same : other = producer
    · subst same
      rw [if_pos rfl, if_pos rfl, List.range'_1_concat, Nat.add_comm 1]
    · rw [if_neg same, if_neg same, List.append_nil, Nat.add_zero]
  follows := by
    rcases fed.follows with ⟨seen, pending, later, follows⟩
    exact follows.step taken

theorem Fed.step (word : IsWord options.streamName) (fed : Fed actions feed order)
    {action : FeedAction} (taken : feeding options feed action = some next) :
    ∃ later, Fed (actions ++ [action]) next later := by
  cases action with
  | send other stored =>
      cases stored with
      | none =>
          simp only [feeding, Option.some.injEq] at taken
          subst taken
          exact ⟨order, fed.send_nothing other⟩
      | some id =>
          simp only [feeding, fed.counters other, xaddRequest_xaddText word, Option.bind_some,
            if_true, Option.map_eq_some_iff] at taken
          rcases taken with ⟨run, added, rfl⟩
          rw [← fed.counters other]
          exact ⟨_, fed.send added⟩
  | read answer =>
      simp only [feeding, Option.map_eq_some_iff] at taken
      rcases taken with ⟨run, made, rfl⟩
      exact ⟨order, fed.moved made (by simp) (by simp)⟩
  | turn =>
      simp only [feeding, Option.map_eq_some_iff] at taken
      rcases taken with ⟨run, made, rfl⟩
      exact ⟨order, fed.moved made (by simp) (by simp)⟩

/-! ## What the reader sees -/

theorem nulFree_reading (temperature : Nat) :
    ∀ field ∈ reading temperature, NulFree field.1 ∧ NulFree field.2 := by
  intro field member
  simp only [reading, List.mem_cons, List.not_mem_nil, or_false] at member
  rcases member with rfl | rfl
  · exact ⟨by decide, by decide⟩
  · exact ⟨show NulFree (text "temperature") by decide,
      fun zero => ((isWord_number _).plain 0 zero).1 rfl⟩

/-- A record arrives as it was sent. -/
theorem fields_record {entry : Entry} {temperature : Nat}
    (sent : entry.fields = reading temperature) :
    entry.record.fields = MapType.putAll ∅ (reading temperature) := by
  have same : (reading temperature).map (fun field => (cStr field.1, cStr field.2)) =
      reading temperature := by
    apply List.map_eq_self
    intro field member
    have free := nulFree_reading temperature field member
    rw [cStr_of_nulFree free.1, cStr_of_nulFree free.2]
  rw [Entry.record, found, sent, same]

/-- The stream is a merge of what the programs have sent, each in its order and nothing twice; the
reader has processed the first of its records, each with the temperature that was sent. -/
structure Merges (actions : List FeedAction) (feed : Feed) (order : List (Nat × Nat)) : Prop where
  sublist : ∀ producer, (addressedTo order producer).Sublist
    (List.range' 1 (attempts producer actions))
  complete : ∀ producer, AllStored producer actions →
    addressedTo order producer = List.range' 1 (attempts producer actions)
  stored : feed.run.1.stream.entries.map Entry.fields = order.map fun sent => reading sent.2
  processed : feed.run.2.map StreamRecord.fields =
    (order.take feed.run.2.length).map fun sent => MapType.putAll ∅ (reading sent.2)
  counter : feed.run.1.reader.counter = feed.run.2.length
  sentLines : ∀ producer line, sentLine (feed.counters producer) = some line →
    line = (attempts producer actions + 1) % 2 ^ 64

theorem Fed.merges (fed : Fed actions feed order) : Merges actions feed order where
  sublist := fed.sublist
  complete := fed.complete
  stored := fed.entries
  processed := by
    rcases fed.follows with ⟨seen, pending, later, follows⟩
    have length : feed.run.2.length = seen.length := by
      rw [follows.processed, List.length_map]
    have front : seen.map Entry.fields =
        (order.take seen.length).map fun sent => reading sent.2 := by
      rw [List.map_take, ← fed.entries, follows.entries, List.map_append]
      exact (List.take_left' (List.length_map _)).symm
    have each : ∀ {entries : List Entry} {sent : List (Nat × Nat)},
        entries.map Entry.fields = sent.map (fun sent => reading sent.2) →
          (entries.map Entry.record).map StreamRecord.fields =
            sent.map fun sent => MapType.putAll ∅ (reading sent.2) := by
      intro entries
      induction entries with
      | nil =>
          intro sent same
          rw [List.map_nil, eq_comm, List.map_eq_nil_iff] at same
          rw [same]
          rfl
      | cons entry rest induction =>
          intro sent same
          rw [List.map_cons, eq_comm, List.map_eq_cons_iff] at same
          rcases same with ⟨first, others, rfl, fields, same⟩
          rw [List.map_cons, List.map_cons, List.map_cons, fields_record fields.symm,
            induction same.symm]
    rw [follows.processed, each front, List.length_map]
  counter := by
    rcases fed.follows with ⟨seen, pending, later, follows⟩
    rw [follows.counter, follows.processed, List.length_map]
  sentLines producer line printed := by
    rw [sentLine, fed.counters, BitVec.toNat_ofNat, Option.ite_none_right_eq_some,
      Option.some.injEq] at printed
    exact printed.2.symm

theorem fed_of_run (word : IsWord options.streamName)
    (reached : (feeding options).execute .initial actions = some feed) :
    ∃ order, Fed actions feed order := by
  have preserved : ∀ before state action next, (∃ order, Fed before state order) →
      feeding options state action = some next →
        ∃ order, Fed (before ++ [action]) next order := by
    rintro before state action next ⟨order, fed⟩ taken
    exact fed.step word taken
  exact StepFunction.reached_of_preserved _ preserved ⟨[], .opening⟩ reached

/-- Three records are sent by one program, and the first two of them read. -/
def feedRun : List FeedAction :=
  [.send 0 (some (toLex (5, 0))), .send 0 (some (toLex (5, 1))), .read .entries, .turn,
    .send 0 (some (toLex (7, 0)))]

def feedOptions : Options := ⟨text "sensors", 2, by decide⟩

theorem feedRun_runs :
    ((feeding feedOptions).execute .initial feedRun).isSome = true ∧
      (((feeding feedOptions).execute .initial feedRun).bind fun feed =>
        feed.run.1.reader.report feedOptions) = some (2, text "2") := by
  decide +kernel

/-- Any number of programs feed the stream while it is followed, in any order of their steps. -/
theorem feeding_merges (word : IsWord options.streamName)
    (reached : (feeding options).execute .initial actions = some feed) :
    ∃ order, Merges actions feed order := by
  rcases fed_of_run word reached with ⟨order, fed⟩
  exact ⟨order, fed.merges⟩

theorem feeding_merges_of_feedRun :
    ∃ feed, (feeding feedOptions).execute .initial feedRun = some feed ∧
      ∃ order, Merges feedRun feed order := by
  rcases Option.isSome_iff_exists.mp feedRun_runs.1 with ⟨feed, reached⟩
  have word : IsWord feedOptions.streamName := by decide
  exact ⟨feed, reached, feeding_merges word reached⟩

/-- What a sole producer has stored are the numbers from one on. -/
theorem Fed.numbered (fed : Fed actions feed order) {producer : Nat}
    (sole : ∀ action ∈ actions, ∀ other stored, action = .send other stored →
      other = producer ∧ stored ≠ none) :
    order.map Prod.snd = List.range' 1 (attempts producer actions) := by
  have allStored : AllStored producer actions := by
    rintro action member rfl
    exact (sole _ member producer none rfl).2 rfl
  have nobody : ∀ other, other ≠ producer → addressedTo order other = [] := by
    intro other apart
    have none_sent : attempts other actions = 0 := by
      rw [attempts, List.countP_eq_zero]
      intro action member
      cases action with
      | send owner stored =>
          have known := (sole _ member owner stored rfl).1
          simpa [known] using Ne.symm apart
      | _ => simp
    have front := fed.sublist other
    rwa [none_sent, List.range'_zero, List.sublist_nil] at front
  have mine : order.filter (fun sent => sent.1 = producer) = order := by
    rw [List.filter_eq_self]
    intro sent member
    by_contra apart
    have other : sent.1 ≠ producer := by simpa using apart
    have found : sent.2 ∈ addressedTo order sent.1 := mem_addressedTo.mpr member
    rw [nobody sent.1 other] at found
    exact List.not_mem_nil found
  have whole := fed.complete producer allStored
  rwa [addressedTo, mine] at whole

theorem Reader.record_eq_some {reader : Reader} {record : StreamRecord}
    (read : reader.record = some record) :
    ∃ response others rest, reader.responses = .ok (response :: others) ∧
      response.records = record :: rest := by
  unfold Reader.record at read
  split at read
  · rename_i response others held
    rcases List.head?_eq_some_iff.mp read with ⟨rest, inner⟩
    exact ⟨response, others, rest, held, inner⟩
  · cases read

/-- While one program feeds the stream and loses nothing, the temperature in each line of the
reader is the number of records in that line. -/
theorem report_counts (word : IsWord options.streamName)
    (reached : (feeding options).execute .initial actions = some feed) {producer : Nat}
    (sole : ∀ action ∈ actions, ∀ other stored, action = .send other stored →
      other = producer ∧ stored ≠ none)
    {line : Nat × ByteString} (printed : feed.run.1.reader.report options = some line) :
    line.2 = text (toString (line.1 % 2 ^ 64)) := by
  rcases fed_of_run word reached with ⟨order, fed⟩
  rcases fed.follows with ⟨seen, pending, later, follows⟩
  rw [Reader.report, Option.bind_eq_some_iff] at printed
  rcases printed with ⟨record, read, printed⟩
  rw [Option.ite_none_right_eq_some, Option.some.injEq] at printed
  rcases printed with ⟨-, rfl⟩
  rcases Reader.record_eq_some read with ⟨response, others, rest, held, inner⟩
  rcases follows.turn_record held inner with ⟨entry, left, after⟩
  have same : record = entry.record := by
    have processed := after.processed
    rw [List.map_append, show feed.run.2 = seen.map Entry.record from follows.processed]
      at processed
    simpa using processed
  have fields : entry.fields = reading (seen.length + 1) := by
    have numbers := fed.entries
    rw [show (fun sent : Nat × Nat => reading sent.2) = reading ∘ Prod.snd from rfl,
      ← List.map_map, fed.numbered sole] at numbers
    have entries : feed.run.1.stream.entries = (seen ++ [entry]) ++ (left ++ later) :=
      after.entries
    have place := congrArg (fun list => list[seen.length]?) numbers
    rw [entries] at place
    have here : ((seen ++ [entry] ++ (left ++ later)).map Entry.fields)[seen.length]? =
        some entry.fields := by simp
    rw [here, List.getElem?_map, eq_comm, Option.map_eq_some_iff] at place
    rcases place with ⟨number, found, equal⟩
    rcases List.getElem?_eq_some_iff.mp found with ⟨_, value⟩
    rw [List.getElem_range', Nat.one_mul, Nat.add_comm] at value
    rw [← equal, value]
  have counter : feed.run.1.reader.counter = seen.length := follows.counter
  simp only [same, counter, fields_record fields]
  simp [reading, MapType.putAll]

theorem report_counts_of_feedRun :
    ∃ feed, (feeding feedOptions).execute .initial feedRun = some feed ∧
      ∃ line, feed.run.1.reader.report feedOptions = some line ∧
        line.2 = text (toString (line.1 % 2 ^ 64)) := by
  rcases Option.bind_eq_some_iff.mp feedRun_runs.2 with ⟨feed, reached, printed⟩
  have word : IsWord feedOptions.streamName := by decide
  have sole : ∀ action ∈ feedRun, ∀ other stored, action = .send other stored →
      other = 0 ∧ stored ≠ none := by
    intro action member other stored equal
    subst equal
    simp only [feedRun, List.mem_cons, FeedAction.send.injEq, reduceCtorEq, List.not_mem_nil,
      or_false, false_or] at member
    rcases member with ⟨rfl, rfl⟩ | ⟨rfl, rfl⟩ | ⟨rfl, rfl⟩ <;> exact ⟨rfl, by simp⟩
  exact ⟨feed, reached, _, printed, report_counts word reached sole printed⟩

end Pmud.Util
