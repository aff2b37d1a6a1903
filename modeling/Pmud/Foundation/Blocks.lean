import Mathlib.Data.List.Basic

/-! # Block-wise processing

A sequence is cut into blocks of a fixed size, and a state takes one block
after the other. What is left behind the last full block waits for more input,
so the input may come in any pieces.
-/

namespace Pmud.Foundation.Blocks

variable {State Symbol : Type} (size : Nat) (compress : State → List Symbol → State)

/-- The given number of blocks from the front of the input. -/
def consume : Nat → State → List Symbol → State × List Symbol
  | 0, state, input => (state, input)
  | count + 1, state, input =>
      consume count (compress state (input.take size)) (input.drop size)

/-- All full blocks of the input; the second part is what they leave. -/
def absorb (state : State) (input : List Symbol) : State × List Symbol :=
  consume size compress (input.length / size) state input

variable {size compress}

theorem absorb_of_short {state : State} {input : List Symbol} (short : input.length < size) :
    absorb size compress state input = (state, input) := by
  rw [absorb, Nat.div_eq_of_lt short, consume]

theorem absorb_block {state : State} {block rest : List Symbol} (positive : 0 < size)
    (full : block.length = size) :
    absorb size compress state (block ++ rest) =
      absorb size compress (compress state block) rest := by
  have count : (block ++ rest).length / size = rest.length / size + 1 := by
    rw [List.length_append, full, Nat.add_comm, Nat.add_div_right _ positive]
  rw [absorb, count, consume, List.take_left' full, List.drop_left' full, absorb]

theorem absorb_full {state : State} {block : List Symbol} (positive : 0 < size)
    (full : block.length = size) :
    absorb size compress state block = (compress state block, []) := by
  have one := @absorb_block _ _ size compress state block [] positive full
  rw [List.append_nil] at one
  rw [one, absorb_of_short positive]

/-- Induction over the blocks of an input. -/
theorem block_induction (positive : 0 < size) {motive : List Symbol → Prop}
    (short : ∀ input, input.length < size → motive input)
    (block : ∀ block rest, block.length = size → motive rest → motive (block ++ rest))
    (input : List Symbol) : motive input := by
  induction length : input.length using Nat.strongRecOn generalizing input with
  | ind count induction =>
      by_cases small : input.length < size
      · exact short input small
      · rw [← List.take_append_drop size input]
        apply block
        · rw [List.length_take]
          omega
        · apply induction (input.drop size).length _ _ rfl
          rw [List.length_drop]
          omega

theorem absorb_rest_length (compress : State → List Symbol → State) (positive : 0 < size)
    (state : State) (input : List Symbol) :
    (absorb size compress state input).2.length = input.length % size := by
  induction input using block_induction positive generalizing state with
  | short input small => rw [absorb_of_short small, Nat.mod_eq_of_lt small]
  | block block rest full induction =>
      rw [absorb_block positive full, induction, List.length_append, full, Nat.add_mod_left]

theorem absorb_rest_lt (compress : State → List Symbol → State) (positive : 0 < size)
    (state : State) (input : List Symbol) :
    (absorb size compress state input).2.length < size := by
  rw [absorb_rest_length compress positive]
  exact Nat.mod_lt _ positive

/-- Input may come in pieces: the second piece is put behind the rest of the first. -/
theorem absorb_append (positive : 0 < size) (state : State) (first second : List Symbol) :
    absorb size compress state (first ++ second) =
      absorb size compress (absorb size compress state first).1
        ((absorb size compress state first).2 ++ second) := by
  induction first using block_induction positive generalizing state with
  | short input small => rw [absorb_of_short small]
  | block block rest full induction =>
      rw [List.append_assoc, absorb_block positive full, induction, absorb_block positive full]

/-- States that are seen in another way, and blocks that act alike on both. -/
theorem absorb_map {Other : Type} (view : State → Other) {act : Other → List Symbol → Other}
    (positive : 0 < size)
    (agree : ∀ state block, block.length = size →
      view (compress state block) = act (view state) block)
    (state : State) (input : List Symbol) :
    absorb size act (view state) input =
      (view (absorb size compress state input).1, (absorb size compress state input).2) := by
  induction input using block_induction positive generalizing state with
  | short input small => rw [absorb_of_short small, absorb_of_short small]
  | block block rest full induction =>
      rw [absorb_block positive full, absorb_block positive full, ← agree _ _ full, induction]

/-- Another way to take blocks gives the same when it agrees on full blocks. -/
theorem absorb_congr (positive : 0 < size) {other : State → List Symbol → State}
    (agree : ∀ state block, block.length = size → compress state block = other state block)
    (state : State) (input : List Symbol) :
    absorb size compress state input = absorb size other state input :=
  (absorb_map id positive agree state input).symm

end Pmud.Foundation.Blocks
