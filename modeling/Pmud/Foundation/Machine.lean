import Mathlib.Data.List.Basic

/-! # Reactive machines

A machine answers every input with a next state and a list of outputs. This
file runs machines over input histories and compares histories that share
their beginning. It is independent of what the machines do.
-/

namespace Pmud.Foundation

/-- One answer of a deterministic machine. -/
abbrev Machine (State Input Output : Type) := State → Input → State × List Output

namespace Machine

variable {State Input Output : Type} (machine : Machine State Input Output)

/-- The state once all inputs have been answered. -/
def after : State → List Input → State
  | state, [] => state
  | state, input :: rest => after (machine state input).1 rest

/-- Everything put out while the inputs are answered, oldest first. -/
def outputs : State → List Input → List Output
  | _, [] => []
  | state, input :: rest =>
      (machine state input).2 ++ outputs (machine state input).1 rest

@[simp] theorem after_nil (state : State) : machine.after state [] = state := rfl

@[simp] theorem after_cons (state : State) (input : Input) (rest : List Input) :
    machine.after state (input :: rest) =
      machine.after (machine state input).1 rest := rfl

@[simp] theorem outputs_nil (state : State) : machine.outputs state [] = [] := rfl

@[simp] theorem outputs_cons (state : State) (input : Input) (rest : List Input) :
    machine.outputs state (input :: rest) =
      (machine state input).2 ++ machine.outputs (machine state input).1 rest := rfl

theorem after_append (state : State) (first second : List Input) :
    machine.after state (first ++ second) =
      machine.after (machine.after state first) second := by
  induction first generalizing state with
  | nil => rfl
  | cons input rest induction => exact induction (machine state input).1

theorem outputs_append (state : State) (first second : List Input) :
    machine.outputs state (first ++ second) =
      machine.outputs state first ++
        machine.outputs (machine.after state first) second := by
  induction first generalizing state with
  | nil => rfl
  | cons input rest induction =>
      simp only [List.cons_append, outputs_cons, after_cons, List.append_assoc]
      rw [induction]

/-- Inputs may carry more than the machine looks at. -/
theorem outputs_map {Given : Type} (part : Given → Input) (state : State)
    (inputs : List Given) :
    Machine.outputs (fun state input => machine state (part input)) state inputs =
      machine.outputs state (inputs.map part) := by
  induction inputs generalizing state with
  | nil => rfl
  | cons input rest induction => simp only [outputs_cons, List.map_cons, induction]

/-- A machine that answers like another one from related states does so for ever. -/
theorem outputs_of_related {Other : Type} {other : Machine Other Input Output}
    (related : State → Other → Prop)
    (each : ∀ state place input, related state place →
      (machine state input).2 = (other place input).2 ∧
        related (machine state input).1 (other place input).1)
    {state : State} {place : Other} (initial : related state place) (inputs : List Input) :
    machine.outputs state inputs = other.outputs place inputs := by
  induction inputs generalizing state place with
  | nil => rfl
  | cons input rest induction =>
      rcases each state place input initial with ⟨same, next⟩
      rw [outputs_cons, outputs_cons, same, induction next]

/-- A property kept by every answer holds after every history. -/
theorem after_invariant (property : State → Prop)
    (preserved : ∀ state input, property state → property (machine state input).1)
    {state : State} (initial : property state) (inputs : List Input) :
    property (machine.after state inputs) := by
  induction inputs generalizing state with
  | nil => exact initial
  | cons input rest induction => exact induction (preserved state input initial)

/-- A machine that stays where it is and answers each input by `answer` puts
out the answers in order. -/
theorem outputs_of_stationary {state : State} {answer : Input → List Output}
    {inputs : List Input}
    (stays : ∀ input ∈ inputs, machine state input = (state, answer input)) :
    machine.outputs state inputs = inputs.flatMap answer ∧
      machine.after state inputs = state := by
  induction inputs with
  | nil => exact ⟨rfl, rfl⟩
  | cons input rest induction =>
      have first := stays input (by simp)
      have later := induction fun item member => stays item (by simp [member])
      simp only [outputs_cons, after_cons, first, List.flatMap_cons]
      exact ⟨by rw [later.1], later.2⟩

end Machine

end Pmud.Foundation
