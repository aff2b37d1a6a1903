import Mathlib.Data.List.Basic
import Mathlib.Data.List.Induction

/-! # Runs of a transition system

A step function says which events are enabled in a state and where they lead.
Runs are lists of events, so a statement about every list of events is a
statement about every interleaving.
-/

namespace Pmud.Foundation

/-- `none` marks an event that is not enabled. -/
abbrev StepFunction (State Event : Type) := State → Event → Option State

namespace StepFunction

variable {State Event : Type} (step : StepFunction State Event)

/-- The state at the end of a run, when every event is enabled in its turn. -/
def execute : State → List Event → Option State
  | state, [] => some state
  | state, event :: rest => (step state event).bind fun next => execute next rest

/-- The property holds in every state the run reaches, the first one included. -/
def Throughout (property : State → Prop) : State → List Event → Prop
  | state, [] => property state
  | state, event :: rest =>
      property state ∧
        ∀ next, step state event = some next → Throughout property next rest

/-- Every step the run takes is taken in a state that permits its event. -/
def Guarded (permitted : State → Event → Prop) : State → List Event → Prop
  | _, [] => True
  | state, event :: rest =>
      ∀ next, step state event = some next →
        permitted state event ∧ Guarded permitted next rest

@[simp] theorem execute_nil (state : State) : step.execute state [] = some state := rfl

theorem execute_cons {state : State} {event : Event} {rest : List Event} {final : State} :
    step.execute state (event :: rest) = some final ↔
      ∃ next, step state event = some next ∧ step.execute next rest = some final := by
  simp [execute, Option.bind_eq_some_iff]

theorem execute_append (state : State) (first later : List Event) :
    step.execute state (first ++ later) =
      (step.execute state first).bind fun next => step.execute next later := by
  induction first generalizing state with
  | nil => rfl
  | cons event rest induction =>
      rw [List.cons_append, execute, execute, Option.bind_assoc]
      simp only [induction]

/-- Blocks of events for some items, each of which keeps an invariant that knows the
items so far. -/
theorem execute_flatMap {α : Type} {block : α → List Event} (invariant : List α → State → Prop)
    (each : ∀ seen item state, invariant seen state →
      ∃ next, step.execute state (block item) = some next ∧ invariant (seen ++ [item]) next)
    (items : List α) {state : State} (initial : invariant [] state) :
    ∃ final, step.execute state (items.flatMap block) = some final ∧ invariant items final := by
  have general : ∀ seen state, invariant seen state →
      ∃ final, step.execute state (items.flatMap block) = some final ∧
        invariant (seen ++ items) final := by
    induction items with
    | nil => exact fun seen state holds => ⟨state, rfl, by simpa using holds⟩
    | cons item rest induction =>
        intro seen state holds
        rcases each seen item state holds with ⟨next, taken, here⟩
        rcases induction _ _ here with ⟨final, ends, there⟩
        refine ⟨final, ?_, by simpa using there⟩
        rw [List.flatMap_cons, execute_append, taken, Option.bind_some, ends]
  exact general [] state initial

theorem Throughout.head {property : State → Prop} {state : State} {events : List Event}
    (holds : step.Throughout property state events) : property state := by
  cases events with
  | nil => exact holds
  | cons event rest => exact holds.1

/-- What holds throughout a run holds where the run ends. -/
theorem Throughout.final {property : State → Prop} {state final : State}
    {events : List Event} (holds : step.Throughout property state events)
    (reached : step.execute state events = some final) : property final := by
  induction events generalizing state with
  | nil =>
      simp only [execute_nil, Option.some.injEq] at reached
      exact reached ▸ holds
  | cons event rest induction =>
      rcases step.execute_cons.mp reached with ⟨next, taken, later⟩
      exact induction (holds.2 next taken) later

theorem Throughout.mono {property weaker : State → Prop}
    (implies : ∀ state, property state → weaker state) {state : State}
    {events : List Event} (holds : step.Throughout property state events) :
    step.Throughout weaker state events := by
  induction events generalizing state with
  | nil => exact implies state holds
  | cons event rest induction =>
      exact ⟨implies state holds.1, fun next taken => induction (holds.2 next taken)⟩

/-- The induction principle of guarded runs: a property that every permitted
step keeps holds in every state a guarded run reaches. -/
theorem Guarded.throughout {permitted : State → Event → Prop} {property : State → Prop}
    (preserved : ∀ state event next, property state → permitted state event →
      step state event = some next → property next)
    {state : State} {events : List Event} (initial : property state)
    (guarded : step.Guarded permitted state events) :
    step.Throughout property state events := by
  induction events generalizing state with
  | nil => exact initial
  | cons event rest induction =>
      refine ⟨initial, fun next taken => ?_⟩
      have allowed := guarded next taken
      exact induction (preserved state event next initial allowed.1 taken) allowed.2

/-- A single run is guarded or not, since it is walked through step by step. -/
instance decidableGuarded {permitted : State → Event → Prop}
    [∀ state event, Decidable (permitted state event)] :
    ∀ state events, Decidable (step.Guarded permitted state events)
  | _, [] => .isTrue trivial
  | state, event :: rest =>
      match taken : step state event with
      | none => .isTrue fun next equal => by rw [taken] at equal; cases equal
      | some next =>
          have later : Decidable (step.Guarded permitted next rest) :=
            decidableGuarded next rest
          decidable_of_iff (permitted state event ∧ step.Guarded permitted next rest)
            ⟨fun holds other equal => by
              rw [taken] at equal
              cases equal
              exact holds,
            fun guarded => guarded next taken⟩

instance decidableThroughout {property : State → Prop} [∀ state, Decidable (property state)] :
    ∀ state events, Decidable (step.Throughout property state events)
  | state, [] => inferInstanceAs (Decidable (property state))
  | state, event :: rest =>
      match taken : step state event with
      | none => decidable_of_iff (property state)
          ⟨fun holds => ⟨holds, fun next equal => by rw [taken] at equal; cases equal⟩, And.left⟩
      | some next =>
          have later : Decidable (step.Throughout property next rest) :=
            decidableThroughout next rest
          decidable_of_iff (property state ∧ step.Throughout property next rest)
            ⟨fun holds => ⟨holds.1, fun other equal => by
              rw [taken] at equal
              cases equal
              exact holds.2⟩,
            fun throughout => ⟨throughout.1, throughout.2 next taken⟩⟩

/-- The unguarded form: a property kept by every step holds throughout. -/
theorem throughout_of_preserved {property : State → Prop}
    (preserved : ∀ state event next, property state →
      step state event = some next → property next)
    {state : State} (initial : property state) (events : List Event) :
    step.Throughout property state events := by
  induction events generalizing state with
  | nil => exact initial
  | cons event rest induction =>
      exact ⟨initial, fun next taken => induction (preserved state event next initial taken)⟩

/-- A property of a state and of the run that led to it. -/
theorem reached_of_preserved {property : List Event → State → Prop}
    (preserved : ∀ events state event next, property events state →
      step state event = some next → property (events ++ [event]) next)
    {state final : State} {events : List Event} (initial : property [] state)
    (reached : step.execute state events = some final) : property events final := by
  induction events using List.reverseRecOn generalizing final with
  | nil =>
      simp only [execute_nil, Option.some.injEq] at reached
      exact reached ▸ initial
  | append_singleton before event induction =>
      rw [execute_append, Option.bind_eq_some_iff] at reached
      rcases reached with ⟨last, here, taken⟩
      rcases step.execute_cons.mp taken with ⟨next, taken, ended⟩
      simp only [execute_nil, Option.some.injEq] at ended
      exact ended ▸ preserved before last event next (induction here) taken

/-- Where a step that is not permitted always breaks the property, a run that
keeps the property is guarded. -/
theorem Throughout.guarded {permitted : State → Event → Prop} {property : State → Prop}
    (necessary : ∀ state event next, step state event = some next →
      property next → permitted state event)
    {state : State} {events : List Event}
    (holds : step.Throughout property state events) :
    step.Guarded permitted state events := by
  induction events generalizing state with
  | nil => trivial
  | cons event rest induction =>
      intro next taken
      have later := holds.2 next taken
      exact ⟨necessary state event next taken (Throughout.head step later), induction later⟩

/-- Where each step that is expected keeps the property exactly when it is permitted, the
property holds throughout exactly the guarded ones of the expected runs. -/
theorem throughout_iff_guarded {expected permitted : State → Event → Prop}
    {invariant property : State → Prop}
    (kept : ∀ state event next, invariant state → expected state event →
      step state event = some next → invariant next)
    (exact : ∀ state event next, invariant state → property state → expected state event →
      step state event = some next → (property next ↔ permitted state event))
    {state : State} {events : List Event} (initial : invariant state) (holds : property state)
    (runs : step.Guarded expected state events) :
    step.Throughout property state events ↔ step.Guarded permitted state events := by
  induction events generalizing state with
  | nil => exact iff_of_true holds trivial
  | cons event rest induction =>
      constructor
      · intro throughout next taken
        have foreseen := runs next taken
        have still := kept state event next initial foreseen.1 taken
        have later := throughout.2 next taken
        have here := later.head step
        refine ⟨(exact state event next initial holds foreseen.1 taken).mp here, ?_⟩
        exact (induction still here foreseen.2).mp later
      · intro guarded
        refine ⟨holds, fun next taken => ?_⟩
        have foreseen := runs next taken
        have still := kept state event next initial foreseen.1 taken
        have allowed := guarded next taken
        have here := (exact state event next initial holds foreseen.1 taken).mpr allowed.1
        exact (induction still here foreseen.2).mpr allowed.2

/-! ## Recording a run -/

/-- The same system with a record of what was observed at each step. The record
has no influence on the steps. -/
def recording {Record : Type} (observe : State → Event → List Record) :
    StepFunction (State × List Record) Event :=
  fun run event => (step run.1 event).map fun next => (next, run.2 ++ observe run.1 event)

theorem recording_eq_some {Record : Type} {observe : State → Event → List Record}
    {run next : State × List Record} {event : Event} :
    step.recording observe run event = some next ↔
      step run.1 event = some next.1 ∧ next.2 = run.2 ++ observe run.1 event := by
  unfold recording
  rw [Option.map_eq_some_iff]
  constructor
  · intro found
    rcases found with ⟨state, taken, rfl⟩
    exact ⟨taken, rfl⟩
  · intro parts
    rcases parts with ⟨taken, record⟩
    exact ⟨next.1, taken, by rw [← record]⟩

end StepFunction

end Pmud.Foundation
