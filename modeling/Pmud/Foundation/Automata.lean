import Mathlib.Data.Finset.Prod

/-! # Automata of live cells

A cell lives on or comes to life by the number of live cells around it. Only the
cells of a board are ever alive.
-/

namespace Pmud.Foundation

/-- For how many live neighbours a cell is born, and for how many it survives. -/
structure LifeRule where
  born : Set Nat
  survives : Set Nat

namespace LifeRule

variable {Cell : Type} (rule : LifeRule) (neighbours : Cell → Finset Cell) (board : Set Cell)

open Classical in
noncomputable def liveAround (live : Set Cell) (cell : Cell) : Nat :=
  ((neighbours cell).filter fun other => other ∈ live).card

def next (live : Set Cell) : Set Cell :=
  {cell | cell ∈ board ∧
    ((cell ∈ live ∧ liveAround neighbours live cell ∈ rule.survives) ∨
      (cell ∉ live ∧ liveAround neighbours live cell ∈ rule.born))}

/-- The generations that follow the cells that are alive first. -/
def generation (live : Set Cell) (n : Nat) : Set Cell :=
  (rule.next neighbours board)^[n] live

theorem mem_next {live : Set Cell} {cell : Cell} :
    cell ∈ rule.next neighbours board live ↔ cell ∈ board ∧
      ((cell ∈ live ∧ liveAround neighbours live cell ∈ rule.survives) ∨
        (cell ∉ live ∧ liveAround neighbours live cell ∈ rule.born)) :=
  Iff.rfl

theorem generation_succ (live : Set Cell) (n : Nat) :
    rule.generation neighbours board live (n + 1) =
      rule.next neighbours board (rule.generation neighbours board live n) :=
  Function.iterate_succ_apply' ..

/-- Counting in any order that names each neighbour once. -/
theorem liveAround_eq_length [DecidableEq Cell] (live : Set Cell) [DecidablePred (· ∈ live)]
    {cell : Cell} {listed : List Cell} (nodup : listed.Nodup)
    (all : ∀ other, other ∈ listed ↔ other ∈ neighbours cell) :
    liveAround neighbours live cell = (listed.filter fun other => other ∈ live).length := by
  rw [liveAround, ← List.toFinset_card_of_nodup (nodup.filter _)]
  congr 1
  ext other
  simp [all]

end LifeRule

/-! ## The plane -/

/-- The eight cells around a cell of the plane. -/
def moore (cell : Int × Int) : Finset (Int × Int) :=
  (({-1, 0, 1} ×ˢ {-1, 0, 1} : Finset (Int × Int)).image fun step =>
    (cell.1 + step.1, cell.2 + step.2)).erase cell

theorem mem_moore {cell other : Int × Int} :
    other ∈ moore cell ↔ other ≠ cell ∧
      (cell.1 - 1 ≤ other.1 ∧ other.1 ≤ cell.1 + 1) ∧
      (cell.2 - 1 ≤ other.2 ∧ other.2 ≤ cell.2 + 1) := by
  rw [moore, Finset.mem_erase, Finset.mem_image]
  apply and_congr_right
  intro _
  constructor
  · rintro ⟨⟨vertical, horizontal⟩, member, rfl⟩
    simp only [Finset.mem_product, Finset.mem_insert, Finset.mem_singleton] at member
    omega
  · rintro ⟨rows, columns⟩
    refine ⟨(other.1 - cell.1, other.2 - cell.2), ?_, ?_⟩
    · simp only [Finset.mem_product, Finset.mem_insert, Finset.mem_singleton]
      omega
    · ext
      · exact add_sub_cancel cell.1 other.1
      · exact add_sub_cancel cell.2 other.2

/-- Conway's rule. -/
def LifeRule.conway : LifeRule where
  born := {3}
  survives := {2, 3}

theorem LifeRule.mem_conway_born {n : Nat} : n ∈ conway.born ↔ n = 3 := Iff.rfl

theorem LifeRule.mem_conway_survives {n : Nat} : n ∈ conway.survives ↔ n = 2 ∨ n = 3 := Iff.rfl

end Pmud.Foundation
