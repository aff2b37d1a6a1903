import Mathlib.Data.List.FinRange

/-! # Boards

The board of `life/life.c` and the functions that read and write single cells.
-/

namespace Pmud.Life

def alive : UInt8 := 'X'.toUInt8

def dead : UInt8 := '.'.toUInt8

/-- What `cell_next` returns for a cell that holds anything else. -/
def outside : UInt8 := '-'.toUInt8

/-- The constant of `limits.h`, for an `int` of 32 bits. -/
def intMax : Int := 2147483647

/-- The global variables of the program. -/
structure Settings where
  numRows : Int := 15
  numCols : Int := 15
  maxGenerations : Int := 10000
  bounded : maxGenerations ≤ intMax := by decide
  deriving DecidableEq

/-- The program is left with `exit(1)`, or what it does is undefined. -/
inductive Stop
  | exit (output : String)
  | outOfBounds
  | overflow
  deriving DecidableEq, Repr

abbrev Outcome (α : Type) := Except Stop α

section Exits

variable {α : Type} {outcome : Outcome α} (exits : ∃ output, outcome = .error (.exit output))
include exits

theorem ne_ok_of_exits (value : α) : outcome ≠ .ok value := by
  rcases exits with ⟨output, rfl⟩
  intro same
  cases same

theorem ne_outOfBounds_of_exits : outcome ≠ .error .outOfBounds := by
  rcases exits with ⟨output, rfl⟩
  intro same
  cases same

end Exits

def Settings.Within (settings : Settings) (row col : Int) : Prop :=
  0 ≤ row ∧ row < settings.numRows ∧ 0 ≤ col ∧ col < settings.numCols

instance (settings : Settings) (row col : Int) : Decidable (settings.Within row col) :=
  inferInstanceAs (Decidable (_ ∧ _ ∧ _ ∧ _))

theorem Settings.within_iff {settings : Settings} {row col : Int} :
    settings.Within row col ↔
      0 ≤ row ∧ row < settings.numRows ∧ 0 ≤ col ∧ col < settings.numCols :=
  Iff.rfl

/-- A place that `allocate_board` has allocated. -/
@[ext]
structure Cell (settings : Settings) where
  row : Int
  col : Int
  within : settings.Within row col
  deriving DecidableEq

variable {settings : Settings}

theorem Cell.bounds (cell : Cell settings) :
    0 ≤ cell.row ∧ cell.row < settings.numRows ∧ 0 ≤ cell.col ∧ cell.col < settings.numCols :=
  cell.within

/-- The cells in the order of the loops over rows and columns. -/
def Settings.cells (settings : Settings) : List (Cell settings) :=
  (List.finRange settings.numRows.toNat).flatMap fun row =>
    (List.finRange settings.numCols.toNat).map fun col =>
      { row := row.val
        col := col.val
        within := by
          have rowBound := row.isLt
          have colBound := col.isLt
          unfold Settings.Within
          omega }

theorem mem_cells (cell : Cell settings) : cell ∈ settings.cells := by
  rcases cell with ⟨row, col, within⟩
  have bounds := Settings.within_iff.mp within
  rw [Settings.cells, List.mem_flatMap]
  refine ⟨⟨row.toNat, by omega⟩, List.mem_finRange _, List.mem_map.mpr ?_⟩
  refine ⟨⟨col.toNat, by omega⟩, List.mem_finRange _, ?_⟩
  ext
  · exact Int.toNat_of_nonneg bounds.1
  · exact Int.toNat_of_nonneg bounds.2.2.1

abbrev Board (settings : Settings) := Cell settings → UInt8

namespace Board

/-- `board[row][col] = value` -/
def write (board : Board settings) (row col : Int) (value : UInt8) : Outcome (Board settings) :=
  if within : settings.Within row col then
    .ok (Function.update board ⟨row, col, within⟩ value)
  else
    .error .outOfBounds

def getCell (board : Board settings) (row col : Int) : UInt8 :=
  if invalid : row < 0 ∨ row ≥ settings.numRows ∨ col < 0 ∨ col ≥ settings.numCols then dead
  else board ⟨row, col, by unfold Settings.Within; omega⟩

def setCell (board : Board settings) (setchar : UInt8) (row col : Int) :
    Outcome (Board settings) :=
  if row < 0 ∨ row ≥ settings.numRows ∨ col < 0 ∨ col > settings.numCols then
    .error (.exit s!"Error: invalid coordinate specified ({row},{col})")
  else
    board.write row col setchar

def clearBoard (board : Board settings) (clearchar : UInt8) : Board settings :=
  settings.cells.foldl (fun board cell => Function.update board cell clearchar) board

def checkBoard (board : Board settings) : Int :=
  if settings.cells.any fun cell => board cell = alive then 1 else 0

def compareBoards (a b : Board settings) : Int :=
  if settings.cells.any fun cell => a cell ≠ b cell then 1 else 0

/-! ## Reading cells -/

theorem getCell_of_within (board : Board settings) {row col : Int}
    (within : settings.Within row col) : board.getCell row col = board ⟨row, col, within⟩ := by
  have bounds := Settings.within_iff.mp within
  exact dif_neg (by omega)

theorem getCell_of_not_within (board : Board settings) {row col : Int}
    (beyond : ¬ settings.Within row col) : board.getCell row col = dead := by
  rw [Settings.within_iff] at beyond
  exact dif_pos (by omega)

theorem checkBoard_eq_zero {board : Board settings} :
    board.checkBoard = 0 ↔ ∀ cell, board cell ≠ alive := by
  simp [checkBoard, mem_cells]

theorem compareBoards_eq_zero {a b : Board settings} : a.compareBoards b = 0 ↔ a = b := by
  rw [funext_iff]
  simp [compareBoards, mem_cells]

theorem getCell_update (board : Board settings) {row col : Int}
    (within : settings.Within row col) (value : UInt8) (i j : Int) :
    getCell (Function.update board ⟨row, col, within⟩ value) i j =
      if i = row ∧ j = col then value else board.getCell i j := by
  by_cases here : settings.Within i j
  · rw [getCell_of_within _ here, getCell_of_within _ here, Function.update_apply]
    simp only [Cell.mk.injEq]
  · rw [getCell_of_not_within _ here, getCell_of_not_within _ here]
    split
    · next same => exact absurd (same.1 ▸ same.2 ▸ within) here
    · rfl

/-! ## Writing cells -/

/-- The call either exits, and the place is not on the board, or writes it and
nothing else. -/
structure SetsCell (board : Board settings) (setchar : UInt8) (row col : Int) : Prop where
  ends : (∃ output, board.setCell setchar row col = .error (.exit output)) ∨
    ∃ after, board.setCell setchar row col = .ok after
  exits : (∃ output, board.setCell setchar row col = .error (.exit output)) ↔
    ¬ settings.Within row col
  sets : ∀ after, board.setCell setchar row col = .ok after →
    after.getCell row col = setchar ∧
      ∀ i j, (i, j) ≠ (row, col) → after.getCell i j = board.getCell i j

theorem setCell_of_within (board : Board settings) (setchar : UInt8) {row col : Int}
    (within : settings.Within row col) :
    board.setCell setchar row col =
      .ok (Function.update board ⟨row, col, within⟩ setchar) := by
  have bounds := Settings.within_iff.mp within
  rw [setCell, if_neg (by omega), write, dif_pos within]

/-- The column behind the last one gets past the test. -/
theorem setCell_of_last (board : Board settings) (setchar : UInt8) {row col : Int}
    (rowWithin : 0 ≤ row ∧ row < settings.numRows) (last : 0 ≤ col ∧ col = settings.numCols) :
    board.setCell setchar row col = .error .outOfBounds := by
  have beyond : ¬ settings.Within row col := by
    rw [Settings.within_iff]
    omega
  rw [setCell, if_neg (by omega), write, dif_neg beyond]

theorem not_setsCell_of_outOfBounds {board : Board settings} {setchar : UInt8} {row col : Int}
    (undefined : board.setCell setchar row col = .error .outOfBounds) :
    ¬ board.SetsCell setchar row col := by
  intro sets
  rcases sets.ends with exits | ⟨after, returns⟩
  · exact ne_outOfBounds_of_exits exits undefined
  · rw [undefined] at returns
    cases returns

theorem setsCell_of_within (board : Board settings) (setchar : UInt8) {row col : Int}
    (within : settings.Within row col) : board.SetsCell setchar row col where
  ends := .inr ⟨_, board.setCell_of_within setchar within⟩
  exits := by
    constructor
    · exact fun exits => absurd (board.setCell_of_within setchar within) (ne_ok_of_exits exits _)
    · exact fun beyond => absurd within beyond
  sets := by
    rw [board.setCell_of_within setchar within]
    intro after ok
    cases ok
    refine ⟨?_, fun i j other => ?_⟩
    · rw [getCell_update, if_pos ⟨rfl, rfl⟩]
    · rw [getCell_update, if_neg]
      intro same
      exact other (Prod.ext same.1 same.2)

/-- Only the column behind the last one is taken for a part of the board. -/
theorem setsCell_iff (board : Board settings) (setchar : UInt8) (row col : Int) :
    board.SetsCell setchar row col ↔
      ¬ (0 ≤ row ∧ row < settings.numRows ∧ 0 ≤ col ∧ col = settings.numCols) := by
  constructor
  · intro sets last
    have undefined := board.setCell_of_last setchar ⟨last.1, last.2.1⟩ last.2.2
    exact not_setsCell_of_outOfBounds undefined sets
  · intro elsewhere
    by_cases within : settings.Within row col
    · exact board.setsCell_of_within setchar within
    · have exits : board.setCell setchar row col =
          .error (.exit s!"Error: invalid coordinate specified ({row},{col})") := by
        have beyond := Settings.within_iff.not.mp within
        exact if_pos (by omega)
      exact {
        ends := .inl ⟨_, exits⟩
        exits := ⟨fun _ => within, fun _ => ⟨_, exits⟩⟩
        sets := fun after ok => absurd ok (ne_ok_of_exits ⟨_, exits⟩ after) }

/-- The default board, written to in row 0 and column 15. -/
theorem not_setsCell_of_last : ¬ SetsCell (fun _ : Cell {} => dead) alive 0 15 :=
  not_setsCell_of_outOfBounds
    (setCell_of_last _ alive ⟨by decide, by decide⟩ ⟨by decide, rfl⟩)

end Board

end Pmud.Life
