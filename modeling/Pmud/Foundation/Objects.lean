import Pmud.Foundation.Machine

/-! # Objects and what they stand for

An object keeps its state in memory and answers calls; a call that goes wrong
(a write out of bounds, a loop that does not end) has no answer. A machine says
what the object is for. When each call from a state that represents a state of
the machine answers as the machine does and represents it again, no sequence of
calls goes wrong, and the object answers all of them as the machine does.
-/

namespace Pmud.Foundation

abbrev Object (State Call Result : Type) := State → Call → Option (State × List Result)

namespace Object

variable {State Abstract Call Result : Type} (object : Object State Call Result)

/-- All results of the calls, oldest first, and the state behind them. -/
def run : State → List Call → Option (State × List Result)
  | state, [] => some (state, [])
  | state, call :: rest =>
      (object state call).bind fun first =>
        (run first.1 rest).map fun later => (later.1, first.2 ++ later.2)

variable {object}

theorem run_of_represents {machine : Machine Abstract Call Result}
    {represents : State → Abstract → Prop}
    (each : ∀ state abstract call, represents state abstract →
      ∃ next, object state call = some (next, (machine abstract call).2) ∧
        represents next (machine abstract call).1)
    {state : State} {abstract : Abstract} (initial : represents state abstract)
    (calls : List Call) :
    ∃ final, object.run state calls = some (final, machine.outputs abstract calls) ∧
      represents final (machine.after abstract calls) := by
  induction calls generalizing state abstract with
  | nil => exact ⟨state, rfl, initial⟩
  | cons call rest induction =>
      rcases each state abstract call initial with ⟨next, answered, here⟩
      rcases induction here with ⟨final, ran, there⟩
      refine ⟨final, ?_, there⟩
      rw [run, answered, Option.bind_some, ran, Option.map_some, Machine.outputs_cons]

end Object

end Pmud.Foundation
