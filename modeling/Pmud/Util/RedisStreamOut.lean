import Pmud.Foundation.Transition
import Pmud.Storage.RedisStreams

/-! # Following a stream

The loop of `util/redis-stream-out.cpp` over `read_stream_raw` of
`storage/redis_storage.h`. Between any two of its steps other programs add to the
stream.
-/

namespace Pmud.Util

open Foundation Storage.Redis Event

/-- The options `-s` and `-b`. -/
structure Options where
  streamName : ByteString
  batchSize : Nat
  positive : 1 ≤ batchSize

/-- `none` is a reply that is null. -/
def readStreamRaw : Option RedisReply → Except BadAccess (List StreamResponse)
  | none => .ok []
  | some reply => constructStreamResponses reply

/-- The variables of the loop, with the responses and records that its two inner
loops have not come to. -/
structure Reader where
  counter : Nat
  position : ByteString
  responses : Except BadAccess (List StreamResponse)

namespace Reader

def start : Reader where
  counter := 0
  position := text "0"
  responses := .ok []

/-- A read, which is made when the inner loops have ended. -/
def read (reader : Reader) (reply : Option RedisReply) : Option Reader :=
  match reader.responses with
  | .ok [] => some { reader with responses := readStreamRaw reply }
  | _ => none

/-- A turn of the inner loops: a record, or the end of a response. -/
def turn (reader : Reader) : Option Reader :=
  match reader.responses with
  | .ok (response :: others) =>
      match response.records with
      | [] => some { reader with responses := .ok others }
      | record :: rest =>
          some
            { counter := reader.counter + 1
              position := record.timestamp
              responses := .ok ({ response with records := rest } :: others) }
  | _ => none

/-- The record that is processed in the next turn. -/
def record (reader : Reader) : Option StreamRecord :=
  match reader.responses with
  | .ok (response :: _) => response.records.head?
  | _ => none

end Reader

/-- How a command ends: without a reply, with one that is no array, or with
entries of the stream. -/
inductive Answer
  | failed
  | other (reply : RedisReply)
  | entries

structure State where
  stream : Stream
  reader : Reader

inductive Action
  | add (entry : Entry)
  | read (answer : Answer)
  | turn

/-- The reply of an answer, when it is one that the server can give. -/
def State.reply (options : Options) (state : State) : Answer → Option (Option RedisReply)
  | .failed => some none
  | .other reply => if reply.type = .array then none else some (some reply)
  | .entries =>
      (state.stream.xread options.batchSize options.streamName state.reader.position).map some

def step (options : Options) : StepFunction State Action
  | state, .add entry =>
      (state.stream.add entry).map fun stream => { state with stream := stream }
  | state, .read answer =>
      (state.reply options answer).bind fun reply =>
        (state.reader.read reply).map fun reader => { state with reader := reader }
  | state, .turn => state.reader.turn.map fun reader => { state with reader := reader }

/-- A run with the records that have been processed. -/
abbrev Run := State × List StreamRecord

def processing (options : Options) : StepFunction Run Action :=
  (step options).recording fun state action =>
    match action with
    | .turn => state.reader.record.toList
    | _ => []

def Run.initial : Run := ({ stream := .empty, reader := .start }, [])

/-- The first entries of the stream, and no others, have been processed. -/
structure SeesFirst (run : Run) : Prop where
  processed : run.2 = (run.1.stream.entries.take run.2.length).map Entry.record
  counter : run.1.reader.counter = run.2.length
  defined : ∃ responses, run.1.reader.responses = .ok responses

/-! ## The invariant -/

/-- The stream consists of entries that have been processed, entries that have
been read, and others behind them. -/
structure Follows (run : Run) (seen pending later : List Entry) : Prop where
  entries : run.1.stream.entries = seen ++ (pending ++ later)
  processed : run.2 = seen.map Entry.record
  counter : run.1.reader.counter = seen.length
  position : EntryId.parse run.1.reader.position = some (lastId seen)
  responses : ∃ responses, run.1.reader.responses = .ok responses ∧
    responses.flatMap StreamResponse.records = pending.map Entry.record

/-- The turns that the inner loops need for some responses. -/
def turnsFor (responses : List StreamResponse) : Nat :=
  responses.length + (responses.flatMap StreamResponse.records).length

theorem Follows.initial : Follows .initial [] [] [] where
  entries := rfl
  processed := rfl
  counter := rfl
  position := EntryId.parse_start
  responses := ⟨[], rfl, rfl⟩

theorem readStreamRaw_other {reply : RedisReply} (other : reply.type ≠ .array) :
    readStreamRaw (some reply) = .ok [] :=
  if_pos other

/-- The reader decodes what the server has answered. -/
theorem readStreamRaw_entries (name : ByteString) (entries : List Entry) :
    readStreamRaw (some (streamReply name (entries.map fun entry =>
      (entry.id.toText, entry.fields)))) =
      .ok [{ streamName := cStr name, records := entries.map Entry.record }] := by
  rw [readStreamRaw, constructStreamResponses_streamReply, List.map_map]
  rfl

section Step

variable {options : Options} {state : State} {records : List StreamRecord}
  {seen pending later : List Entry} (follows : Follows (state, records) seen pending later)
include follows

theorem Follows.add {entry : Entry} {stream : Stream}
    (added : state.stream.add entry = some stream) :
    Follows ({ state with stream := stream }, records) seen pending (later ++ [entry]) where
  entries := by
    unfold Stream.add at added
    split at added
    · cases added
      have entries : state.stream.entries = seen ++ (pending ++ later) := follows.entries
      simp only [entries, List.append_assoc]
    · cases added
  processed := follows.processed
  counter := follows.counter
  position := follows.position
  responses := follows.responses

/-- A read is made when nothing is pending. -/
theorem Follows.read_eq {reply : Option RedisReply} {reader : Reader}
    (made : state.reader.read reply = some reader) :
    pending = [] ∧ reader = { state.reader with responses := readStreamRaw reply } := by
  rcases follows.responses with ⟨responses, ok, flattened⟩
  have ok : state.reader.responses = .ok responses := ok
  unfold Reader.read at made
  rw [ok] at made
  cases responses with
  | nil =>
      cases made
      refine ⟨?_, rfl⟩
      simpa using flattened.symm
  | cons response others => cases made

/-- A read without a result leaves everything as it was. -/
theorem Follows.read_nothing {reply : Option RedisReply} {reader : Reader}
    (made : state.reader.read reply = some reader) (nothing : readStreamRaw reply = .ok []) :
    Follows ({ state with reader := reader }, records) seen [] later := by
  rcases follows.read_eq made with ⟨rfl, rfl⟩
  exact
    { entries := follows.entries
      processed := follows.processed
      counter := follows.counter
      position := follows.position
      responses := ⟨[], nothing, rfl⟩ }

/-- The entries of an answer are the next ones of the stream. -/
theorem Follows.read_entries {reply : RedisReply} {reader : Reader}
    (answered : state.stream.xread options.batchSize options.streamName state.reader.position =
      some reply)
    (made : state.reader.read (some reply) = some reader) :
    Follows ({ state with reader := reader }, records) seen
      (later.take options.batchSize) (later.drop options.batchSize) := by
  rcases follows.read_eq made with ⟨rfl, rfl⟩
  have entries : state.stream.entries = seen ++ later := follows.entries
  have position : EntryId.parse state.reader.position = some (lastId seen) := follows.position
  rw [Stream.xread, position, Option.bind_some, state.stream.behind_lastId entries,
    Option.ite_none_left_eq_some, Option.some.injEq] at answered
  rcases answered with ⟨-, rfl⟩
  exact
    { entries := by rw [List.take_append_drop]; exact entries
      processed := follows.processed
      counter := follows.counter
      position := position
      responses := ⟨_, readStreamRaw_entries _ _, by simp⟩ }

/-- What is pending are the records of the responses that are held. -/
theorem Follows.flattened {responses : List StreamResponse}
    (held : state.reader.responses = .ok responses) :
    responses.flatMap StreamResponse.records = pending.map Entry.record := by
  rcases follows.responses with ⟨others, ok, flattened⟩
  have same : others = responses := Except.ok.inj (ok.symm.trans held)
  rwa [same] at flattened

/-- The end of a response takes nothing away. -/
theorem Follows.turn_end {response : StreamResponse} {others : List StreamResponse}
    (held : state.reader.responses = .ok (response :: others))
    (through : response.records = []) :
    Follows ({ state with reader := { state.reader with responses := .ok others } }, records)
      seen pending later where
  entries := follows.entries
  processed := follows.processed
  counter := follows.counter
  position := follows.position
  responses := by
    have flattened := follows.flattened held
    rw [List.flatMap_cons, through, List.nil_append] at flattened
    exact ⟨others, rfl, flattened⟩

/-- The next record is the one of the first entry that is pending. -/
theorem Follows.turn_record {response : StreamResponse} {others : List StreamResponse}
    {record : StreamRecord} {rest : List StreamRecord}
    (held : state.reader.responses = .ok (response :: others))
    (some : response.records = record :: rest) :
    ∃ entry left,
      Follows
        ({ state with
            reader :=
              { counter := state.reader.counter + 1
                position := record.timestamp
                responses := .ok ({ response with records := rest } :: others) } },
          records ++ [record])
        (seen ++ [entry]) left later := by
  have flattened := follows.flattened held
  rw [List.flatMap_cons, some, List.cons_append, eq_comm, List.map_eq_cons_iff] at flattened
  rcases flattened with ⟨entry, left, rfl, rfl, flattened⟩
  have processed : records = seen.map Entry.record := follows.processed
  have counter : state.reader.counter = seen.length := follows.counter
  refine ⟨entry, left, ?_⟩
  exact {
    entries := by simpa using follows.entries
    processed := by simp [processed]
    counter := by simp [counter]
    position := by rw [lastId_concat, ← EntryId.parse_toText, entry.record_timestamp]
    responses := ⟨_, rfl, by rw [List.flatMap_cons, ← flattened]⟩ }

/-- A turn processes the first entry that is pending, or ends a response. -/
theorem Follows.turn {response : StreamResponse} {others : List StreamResponse}
    (held : state.reader.responses = .ok (response :: others)) :
    ∃ reader nextSeen nextPending left,
      state.reader.turn = some reader ∧
      Follows ({ state with reader := reader }, records ++ state.reader.record.toList)
        nextSeen nextPending later ∧
      reader.responses = .ok left ∧ turnsFor left < turnsFor (response :: others) := by
  unfold Reader.turn Reader.record
  rw [held]
  cases inner : response.records with
  | nil =>
      have ended := follows.turn_end held inner
      rw [← List.append_nil records] at ended
      refine ⟨{ state.reader with responses := .ok others }, seen, pending, others,
        by simp only [inner], ?_, rfl, ?_⟩
      · simpa [inner] using ended
      · simp [turnsFor, inner]
  | cons record rest =>
      rcases follows.turn_record held inner with ⟨entry, left, next⟩
      refine
        ⟨{ counter := state.reader.counter + 1
           position := record.timestamp
           responses := .ok ({ response with records := rest } :: others) },
        seen ++ [entry], left, _, by simp only [inner], ?_, rfl, ?_⟩
      · simpa [inner] using next
      · simp [turnsFor, inner]

/-- Whatever happens next, the split of the stream moves on. -/
theorem Follows.step {action : Action} {next : Run}
    (taken : processing options (state, records) action = some next) :
    ∃ nextSeen nextPending nextLater, Follows next nextSeen nextPending nextLater := by
  rcases next with ⟨after, processed⟩
  rcases StepFunction.recording_eq_some _ |>.mp taken with ⟨taken, kept⟩
  simp only at taken kept
  cases action with
  | add entry =>
      simp only [Util.step, Option.map_eq_some_iff] at taken
      rcases taken with ⟨stream, added, rfl⟩
      rw [List.append_nil] at kept
      exact kept ▸ ⟨_, _, _, follows.add added⟩
  | read answer =>
      simp only [Util.step, Option.bind_eq_some_iff, Option.map_eq_some_iff] at taken
      rcases taken with ⟨reply, answered, reader, made, rfl⟩
      rw [List.append_nil] at kept
      subst kept
      cases answer with
      | failed =>
          cases answered
          exact ⟨_, _, _, follows.read_nothing made rfl⟩
      | other node =>
          simp only [State.reply, Option.ite_none_left_eq_some, Option.some.injEq] at answered
          rcases answered with ⟨other, rfl⟩
          exact ⟨_, _, _, follows.read_nothing made (readStreamRaw_other other)⟩
      | entries =>
          simp only [State.reply, Option.map_eq_some_iff] at answered
          rcases answered with ⟨node, answered, rfl⟩
          exact ⟨_, _, _, follows.read_entries answered made⟩
  | turn =>
      simp only [Util.step, Option.map_eq_some_iff] at taken
      rcases taken with ⟨reader, turned, rfl⟩
      rcases follows.responses with ⟨responses, ok, -⟩
      cases responses with
      | nil => simp [Reader.turn, show state.reader.responses = .ok [] from ok] at turned
      | cons response others =>
          rcases follows.turn ok with ⟨other, nextSeen, nextPending, left, made, holds, -⟩
          rw [made, Option.some.injEq] at turned
          exact kept ▸ turned ▸ ⟨nextSeen, nextPending, later, holds⟩

end Step

/-! ## Catching up -/

section CatchUp

variable {options : Options} {run : Run} {seen pending later : List Entry}

/-- The inner loops end, and everything that was read is processed. -/
theorem Follows.drains (follows : Follows run seen pending later) :
    ∃ actions final seen, (processing options).execute run actions = some final ∧
      Follows final seen [] later ∧ final.1.reader.responses = .ok [] ∧
      final.1.stream = run.1.stream := by
  rcases follows.responses with ⟨responses, ok, -⟩
  induction count : turnsFor responses using Nat.strong_induction_on
    generalizing run seen pending responses with
  | _ n induction =>
      cases responses with
      | nil =>
          refine ⟨[], run, seen, rfl, ?_, ok, rfl⟩
          rcases follows.responses with ⟨responses, same, flattened⟩
          rw [ok, Except.ok.injEq] at same
          have none : pending = [] := by simpa [← same] using flattened
          exact none ▸ follows
      | cons response others =>
          rcases follows.turn ok with
            ⟨reader, nextSeen, nextPending, left, made, next, held, fewer⟩
          have taken : processing options run .turn =
              some ({ run.1 with reader := reader }, run.2 ++ run.1.reader.record.toList) := by
            rw [processing, StepFunction.recording, Util.step, made]
            rfl
          rcases induction _ (count ▸ fewer) next left held rfl with
            ⟨actions, final, finalSeen, ends, follow, done, kept⟩
          exact ⟨.turn :: actions, final, finalSeen,
            (StepFunction.execute_cons _).mpr ⟨_, taken, ends⟩, follow, done, kept⟩

/-- A read is answered when there are entries behind what was processed. -/
theorem Follows.reads (follows : Follows run seen [] later)
    (done : run.1.reader.responses = .ok []) (some : later.take options.batchSize ≠ []) :
    ∃ next, processing options run (.read .entries) = Option.some next ∧
      Follows next seen (later.take options.batchSize) (later.drop options.batchSize) ∧
      next.1.stream = run.1.stream := by
  let reply := streamReply options.streamName
    ((later.take options.batchSize).map fun entry => (entry.id.toText, entry.fields))
  have answered : run.1.stream.xread options.batchSize options.streamName
      run.1.reader.position = Option.some reply := by
    rw [Stream.xread, follows.position, Option.bind_some,
      run.1.stream.behind_lastId follows.entries, List.nil_append, if_neg some]
  have made : run.1.reader.read (Option.some reply) =
      Option.some { run.1.reader with responses := readStreamRaw (Option.some reply) } := by
    rw [Reader.read, done]
  have taken : processing options run (.read .entries) =
      Option.some ({ run.1 with reader :=
        { run.1.reader with responses := readStreamRaw (Option.some reply) } }, run.2 ++ []) := by
    rw [processing, StepFunction.recording, Util.step, State.reply, answered, Option.map_some,
      Option.bind_some, made]
    rfl
  rw [List.append_nil] at taken
  exact ⟨_, taken, follows.read_entries answered made, rfl⟩

/-- Reads and turns are enough to process the rest of the stream. -/
theorem Follows.catches_up (follows : Follows run seen pending later) :
    ∃ actions final, (processing options).execute run actions = some final ∧
      final.1.stream = run.1.stream ∧ final.2 = run.1.stream.entries.map Entry.record := by
  induction count : later.length using Nat.strong_induction_on
    generalizing run seen pending later with
  | _ n induction =>
      rcases @Follows.drains options _ _ _ _ follows with
        ⟨actions, drained, drainedSeen, ends, drainedFollows, done, kept⟩
      by_cases all : later = []
      · subst all
        refine ⟨actions, drained, ends, kept, ?_⟩
        rw [drainedFollows.processed, ← kept, drainedFollows.entries]
        simp
      · have size := options.positive
        have some : later.take options.batchSize ≠ [] := by
          simp only [ne_eq, List.take_eq_nil_iff, all, or_false]
          omega
        rcases drainedFollows.reads done some with ⟨next, taken, nextFollows, same⟩
        have fewer : (later.drop options.batchSize).length < n := by
          have length := List.length_pos_iff.mpr all
          rw [List.length_drop]
          omega
        rcases induction _ fewer nextFollows rfl with ⟨more, final, caught, still, processed⟩
        refine ⟨actions ++ .read .entries :: more, final, ?_, ?_, ?_⟩
        · rw [StepFunction.execute_append, ends, Option.bind_some, StepFunction.execute_cons]
          exact ⟨next, taken, caught⟩
        · rw [still, same, kept]
        · rw [processed, same, kept]

end CatchUp

theorem Follows.seesFirst {run : Run} {seen pending later : List Entry}
    (follows : Follows run seen pending later) : SeesFirst run where
  processed := by
    rw [follows.processed, List.length_map, follows.entries, List.take_left]
  counter := by rw [follows.counter, follows.processed, List.length_map]
  defined := by
    rcases follows.responses with ⟨responses, ok, -⟩
    exact ⟨responses, ok⟩

theorem processing_follows (options : Options) (actions : List Action) :
    (processing options).Throughout
      (fun run => ∃ seen pending later, Follows run seen pending later) .initial actions := by
  apply StepFunction.throughout_of_preserved
  · rintro ⟨state, records⟩ action next ⟨seen, pending, later, follows⟩ taken
    exact follows.step taken
  · exact ⟨[], [], [], .initial⟩

/-- Every record of the stream is seen once and in order. -/
theorem processing_seesFirst (options : Options) (actions : List Action) :
    (processing options).Throughout SeesFirst .initial actions := by
  refine StepFunction.Throughout.mono _ ?_ (processing_follows options actions)
  rintro run ⟨seen, pending, later, follows⟩
  exact follows.seesFirst

/-- Nothing that is in the stream is out of reach for ever. -/
theorem processing_catchesUp {options : Options} {actions : List Action} {run : Run}
    (reached : (processing options).execute .initial actions = some run) :
    ∃ more final, (processing options).execute run more = some final ∧
      final.1.stream = run.1.stream ∧ final.2 = run.1.stream.entries.map Entry.record := by
  rcases (processing_follows options actions).final _ reached with ⟨seen, pending, later, follows⟩
  exact follows.catches_up

end Pmud.Util
