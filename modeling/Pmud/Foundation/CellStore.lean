import Mathlib.Data.List.Basic
import Mathlib.Logic.Function.Basic

/-! # Stores of independent cells

Every command acts on the cell of one key, so what a list of commands does to a
cell depends on the commands for its key only.
-/

namespace Pmud.Foundation.CellStore

variable {Key Cell Command : Type} [DecidableEq Key] (key : Command → Key)
  (effect : Command → Cell → Cell)

def execute (store : Key → Cell) (command : Command) : Key → Cell :=
  Function.update store (key command) (effect command (store (key command)))

def executeAll (store : Key → Cell) (commands : List Command) : Key → Cell :=
  commands.foldl (execute key effect) store

/-- What commands for one cell do to it. -/
def effects (cell : Cell) (commands : List Command) : Cell :=
  commands.foldl (fun cell command => effect command cell) cell

@[simp]
theorem effects_nil (cell : Cell) : effects effect cell [] = cell := rfl

@[simp]
theorem effects_cons (cell : Cell) (command : Command) (rest : List Command) :
    effects effect cell (command :: rest) = effects effect (effect command cell) rest := rfl

theorem effects_append (cell : Cell) (first later : List Command) :
    effects effect cell (first ++ later) = effects effect (effects effect cell first) later :=
  List.foldl_append

/-- The cells are independent. -/
theorem executeAll_apply (store : Key → Cell) (commands : List Command) (place : Key) :
    executeAll key effect store commands place =
      effects effect (store place) (commands.filter fun command => key command = place) := by
  induction commands generalizing store with
  | nil => rfl
  | cons command rest induction =>
      have step : executeAll key effect store (command :: rest) =
          executeAll key effect (execute key effect store command) rest := rfl
      rw [step, induction]
      by_cases same : key command = place
      · simp [execute, ← same]
      · simp [execute, same, Function.update_of_ne (Ne.symm same)]

/-- A command whose effect does not depend on the cell wipes out what was done
before. -/
theorem effects_of_reset {reset : Command} (constant : ∀ cell cell',
    effect reset cell = effect reset cell') {commands : List Command}
    (member : reset ∈ commands) (cell cell' : Cell) :
    effects effect cell commands = effects effect cell' commands := by
  rcases List.append_of_mem member with ⟨before, after, rfl⟩
  rw [effects_append, effects_append, effects_cons, effects_cons, constant]

/-- Commands that can be repeated for each cell can be repeated for the store. -/
theorem executeAll_twice {commands : List Command}
    (repeatable : ∀ place cell,
      let ours := commands.filter fun command => key command = place
      effects effect (effects effect cell ours) ours = effects effect cell ours)
    (store : Key → Cell) :
    executeAll key effect (executeAll key effect store commands) commands =
      executeAll key effect store commands := by
  funext place
  rw [executeAll_apply, executeAll_apply]
  exact repeatable place (store place)

end Pmud.Foundation.CellStore
