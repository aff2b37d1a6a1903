import Pmud.Foundation.Automata
import Pmud.Foundation.Lists
import Pmud.Life.Board

/-! # Generations

The rules of `life/life.c`, and a generation that is written from one buffer
into another.
-/

namespace Pmud.Life

open Foundation

variable {settings : Settings}

/-- The places that `num_neighbors` reads, in its order. -/
def around (row col : Int) : List (Int × Int) :=
  [(row - 1, col - 1), (row - 1, col), (row - 1, col + 1), (row, col - 1), (row, col + 1),
    (row + 1, col - 1), (row + 1, col), (row + 1, col + 1)]

namespace Board

def numNeighbors (board : Board settings) (row col : Int) : Int :=
  (around row col).foldl
    (fun count place => if board.getCell place.1 place.2 = alive then count + 1 else count) 0

def cellNext (board : Board settings) (row col : Int) : UInt8 :=
  let n := board.numNeighbors row col
  let cell := board.getCell row col
  if cell = alive then
    if n = 2 ∨ n = 3 then alive else dead
  else if cell = dead then
    if n = 3 then alive else dead
  else
    outside

/-- The board that `calc_next_generation` should write. -/
def next (board : Board settings) : Board settings :=
  fun cell => board.cellNext cell.row cell.col

def Proper (board : Board settings) : Prop :=
  ∀ cell, board cell = alive ∨ board cell = dead

def live (board : Board settings) : Set (Int × Int) :=
  {place | board.getCell place.1 place.2 = alive}

theorem mem_live {board : Board settings} {row col : Int} :
    (row, col) ∈ board.live ↔ board.getCell row col = alive :=
  Iff.rfl

instance (board : Board settings) : DecidablePred (· ∈ board.live) :=
  fun place => inferInstanceAs (Decidable (board.getCell place.1 place.2 = alive))

end Board

def Settings.plane (settings : Settings) : Set (Int × Int) :=
  {place | settings.Within place.1 place.2}

/-- What `malloc` has given out: each board a buffer of its own. -/
structure Heap (settings : Settings) where
  boards : Nat → Board settings
  allocated : Nat

namespace Heap

def set (heap : Heap settings) (pointer : Nat) (board : Board settings) : Heap settings :=
  { heap with boards := Function.update heap.boards pointer board }

def allocateBoard (heap : Heap settings) : Nat × Heap settings :=
  (heap.allocated,
    { heap.set heap.allocated ((heap.boards heap.allocated).clearBoard dead) with
      allocated := heap.allocated + 1 })

/-- Each cell is read from the one buffer and written to the other at once. -/
def calcNextGeneration (heap : Heap settings) (currentGen nextGen : Nat) : Heap settings :=
  settings.cells.foldl
    (fun heap cell =>
      heap.set nextGen
        (Function.update (heap.boards nextGen) cell
          ((heap.boards currentGen).cellNext cell.row cell.col)))
    heap

@[simp]
theorem set_boards_self (heap : Heap settings) (pointer : Nat) (board : Board settings) :
    (heap.set pointer board).boards pointer = board :=
  Function.update_self ..

theorem set_boards_of_ne (heap : Heap settings) {pointer other : Nat}
    (different : other ≠ pointer) (board : Board settings) :
    (heap.set pointer board).boards other = heap.boards other :=
  Function.update_of_ne different ..

theorem set_set (heap : Heap settings) (pointer : Nat) (first second : Board settings) :
    (heap.set pointer first).set pointer second = heap.set pointer second := by
  simp [set]

theorem set_boards_eq (heap : Heap settings) (pointer : Nat) :
    heap.set pointer (heap.boards pointer) = heap := by
  simp [set]

/-- Whatever the order of the cells, the buffer that is read stays as it is. -/
theorem calcCells (heap : Heap settings) {currentGen nextGen : Nat}
    (different : currentGen ≠ nextGen) (cells : List (Cell settings)) :
    cells.foldl
        (fun heap cell =>
          heap.set nextGen
            (Function.update (heap.boards nextGen) cell
              ((heap.boards currentGen).cellNext cell.row cell.col)))
        heap =
      heap.set nextGen
        (cells.foldl
          (fun board cell => Function.update board cell ((heap.boards currentGen).next cell))
          (heap.boards nextGen)) := by
  induction cells generalizing heap with
  | nil => exact (heap.set_boards_eq nextGen).symm
  | cons cell rest induction =>
      rw [List.foldl_cons, induction, set_set, set_boards_self,
        set_boards_of_ne heap different]
      rfl

theorem calcNextGeneration_eq (heap : Heap settings) {currentGen nextGen : Nat}
    (different : currentGen ≠ nextGen) :
    heap.calcNextGeneration currentGen nextGen =
      heap.set nextGen (heap.boards currentGen).next := by
  rw [calcNextGeneration, heap.calcCells different]
  congr 1
  funext cell
  rw [List.foldl_update, if_pos (mem_cells cell)]

end Heap

/-! ## Conway's rules -/

namespace Board

theorem numNeighbors_eq (board : Board settings) (row col : Int) :
    board.numNeighbors row col = LifeRule.liveAround moore board.live (row, col) := by
  have nodup : (around row col).Nodup := by
    simp [around]
    omega
  have all : ∀ other, other ∈ around row col ↔ other ∈ moore (row, col) := by
    rintro ⟨i, j⟩
    simp only [around, List.mem_cons, List.not_mem_nil, or_false, Prod.mk.injEq, mem_moore,
      ne_eq]
    omega
  rw [LifeRule.liveAround_eq_length moore board.live nodup all, numNeighbors,
    List.foldl_count (fun place : Int × Int => board.getCell place.1 place.2 = alive),
    Int.zero_add]
  rfl

theorem getCell_proper {board : Board settings} (proper : board.Proper) (row col : Int) :
    board.getCell row col = alive ∨ board.getCell row col = dead := by
  by_cases within : settings.Within row col
  · rw [board.getCell_of_within within]
    exact proper _
  · exact .inr (board.getCell_of_not_within within)

theorem Proper.next {board : Board settings} (proper : board.Proper) : board.next.Proper := by
  intro cell
  simp only [Board.next, cellNext]
  rcases getCell_proper proper cell.row cell.col with isAlive | isDead
  · rw [if_pos isAlive]
    exact ite_eq_or_eq _ _ _
  · rw [if_neg (by rw [isDead]; decide), if_pos isDead]
    exact ite_eq_or_eq _ _ _

theorem ite_eq_alive {holds : Prop} [Decidable holds] :
    (if holds then alive else dead) = alive ↔ holds := by
  split
  · next yes => exact iff_of_true rfl yes
  · next no => exact iff_of_false (by decide) no

/-- On a board of live and dead cells the next one follows Conway's rules. -/
theorem Proper.live_next {board : Board settings} (proper : board.Proper) :
    board.next.live = LifeRule.conway.next moore settings.plane board.live := by
  ext ⟨row, col⟩
  rw [LifeRule.mem_next, mem_live]
  by_cases within : settings.Within row col
  · have onBoard : (row, col) ∈ settings.plane := within
    have counted := board.numNeighbors_eq row col
    rw [board.next.getCell_of_within within, LifeRule.mem_conway_born,
      LifeRule.mem_conway_survives, mem_live]
    simp only [Board.next, cellNext, counted, onBoard, true_and]
    rcases getCell_proper proper row col with isAlive | isDead
    · simp only [isAlive, if_true, ite_eq_alive, true_and, not_true, false_and, or_false]
      omega
    · have notAlive : board.getCell row col ≠ alive := by
        rw [isDead]
        decide
      rw [if_neg notAlive, if_pos isDead, ite_eq_alive]
      simp only [notAlive, false_and, not_false_eq_true, true_and, false_or]
      omega
  · rw [board.next.getCell_of_not_within within]
    exact iff_of_false (by decide) fun there => within there.1

/-- After any number of generations the board is the one of that number. -/
theorem Proper.live_iterate {board : Board settings} (proper : board.Proper) (n : Nat) :
    (Board.next^[n] board).Proper ∧
      (Board.next^[n] board).live =
        LifeRule.conway.generation moore settings.plane board.live n := by
  induction n with
  | zero => exact ⟨proper, rfl⟩
  | succ n induction =>
      rcases induction with ⟨before, same⟩
      rw [Function.iterate_succ_apply']
      refine ⟨before.next, ?_⟩
      rw [before.live_next, same, LifeRule.generation_succ]

end Board

end Pmud.Life
