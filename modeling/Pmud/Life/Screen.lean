import Pmud.Life.Play

/-! # The screen

What `play` of `life/life.c` prints on the screen, on boards that hold any
characters.
-/

namespace Pmud.Life

open Foundation

variable {settings : Settings}

def outAlive : Char := '⬤'

def outDead : Char := '·'

namespace Board

def printBoard (board : Board settings) : List Char :=
  (List.range settings.numRows.toNat).flatMap fun row : Nat =>
    ((List.range settings.numCols.toNat).flatMap fun col : Nat =>
      (if board.getCell row col = alive then [outAlive] else [outDead]) ++ [' ']) ++ ['\n']

/-- The board is written cell by cell with what `rand` gives for each. -/
def randomizeBoard (board : Board settings) (rand : Nat → Nat) : Board settings :=
  settings.cells.zipIdx.foldl
    (fun board entry =>
      Function.update board entry.1 (if rand entry.2 % 2 = 0 then alive else dead))
    board

/-- The cells that hold one of the two characters. -/
def ground (board : Board settings) : Set (Int × Int) :=
  {place | settings.Within place.1 place.2 ∧
    (board.getCell place.1 place.2 = alive ∨ board.getCell place.1 place.2 = dead)}

end Board

/-- The calls that put something on the screen. -/
inductive ScreenCall
  | move (row col : Int)
  | print (text : List Char)
  | refresh
  deriving DecidableEq, Repr

def generationTitle (i : Int) : List Char := s!"Generation {i}\n".toList

def identicalMessage : List Char := "Next generation identical, aborting!\n".toList

def allDeadMessage : List Char := "All dead, aborting!\n".toList

/-- What an iteration shows. -/
def iterationShows (state : PlayState settings) : List ScreenCall :=
  let heap := state.heap.calcNextGeneration state.currentGen state.nextGen
  [.move 0 0, .print (generationTitle state.i),
    .print (heap.boards state.nextGen).printBoard] ++
    if (heap.boards state.currentGen).compareBoards (heap.boards state.nextGen) = 0 then
      [.print identicalMessage]
    else if (heap.boards state.nextGen).checkBoard = 0 then
      [.print allDeadMessage]
    else
      [.refresh]

/-- What the loop shows, which goes on as `playLoop` does. -/
def loopShows (getch : Nat → Int) (state : PlayState settings) : List ScreenCall :=
  if state.i ≤ settings.maxGenerations then
    iterationShows state ++
      match iteration getch state with
      | .left _ => []
      | .completed after =>
          if state.i = intMax then [] else loopShows getch { after with i := state.i + 1 }
  else
    []
termination_by (settings.maxGenerations + 1 - state.i).toNat

/-- What is shown from the filled board on. -/
def playShows (getch : Nat → Int) (heap : Heap settings) (initial : Board settings) :
    List ScreenCall :=
  [.print "Initial generation\n".toList, .print initial.printBoard, .refresh] ++
    loopShows getch (opening getch heap initial)

/-! ## Boards with other characters -/

namespace Board

theorem mem_ground {board : Board settings} {row col : Int} :
    (row, col) ∈ board.ground ↔ settings.Within row col ∧
      (board.getCell row col = alive ∨ board.getCell row col = dead) :=
  Iff.rfl

/-- Every cell is written to. -/
theorem randomizeBoard_proper (board : Board settings) (rand : Nat → Nat) :
    (board.randomizeBoard rand).Proper := by
  intro cell
  have filled : ∀ (entries : List (Cell settings × Nat)) (board : Board settings),
      cell ∈ entries.map Prod.fst ∨ board cell = alive ∨ board cell = dead →
      let after := entries.foldl
        (fun board entry =>
          Function.update board entry.1 (if rand entry.2 % 2 = 0 then alive else dead)) board
      after cell = alive ∨ after cell = dead := by
    intro entries
    induction entries with
    | nil => exact fun board before => before.resolve_left List.not_mem_nil
    | cons entry rest induction =>
        intro board before
        apply induction
        dsimp only
        by_cases here : cell = entry.1
        · rw [here, Function.update_self]
          exact .inr (ite_eq_or_eq _ _ _)
        · rw [Function.update_of_ne here]
          rcases before with member | before
          · exact .inl ((List.mem_cons.mp member).resolve_left here)
          · exact .inr before
  refine filled settings.cells.zipIdx board (.inl ?_)
  rw [List.zipIdx_map_fst]
  exact mem_cells cell

/-- A cell with any other character is never alive again, and it stands for a dead one. -/
theorem live_next (board : Board settings) :
    board.next.live = LifeRule.conway.next moore board.ground board.live := by
  ext ⟨row, col⟩
  rw [LifeRule.mem_next, mem_live]
  by_cases within : settings.Within row col
  · have counted := board.numNeighbors_eq row col
    rw [board.next.getCell_of_within within, LifeRule.mem_conway_born,
      LifeRule.mem_conway_survives, mem_live]
    simp only [Board.next, cellNext, counted, mem_ground, within, true_and]
    by_cases isAlive : board.getCell row col = alive
    · simp only [isAlive, if_true, ite_eq_alive, true_and, true_or, not_true, false_and, or_false]
      omega
    · by_cases isDead : board.getCell row col = dead
      · have different : ¬ dead = alive := by decide
        rw [if_neg isAlive, if_pos isDead, ite_eq_alive]
        simp only [isDead, different, or_true, false_and, not_false_eq_true, true_and, false_or]
        omega
      · rw [if_neg isAlive, if_neg isDead]
        simp only [isAlive, isDead, or_self, false_and, iff_false]
        decide
  · rw [board.next.getCell_of_not_within within]
    exact iff_of_false (by decide) fun there => within there.1.1

theorem ground_next (board : Board settings) : board.next.ground = board.ground := by
  ext ⟨row, col⟩
  rw [mem_ground, mem_ground]
  refine and_congr_right fun within => ?_
  rw [board.next.getCell_of_within within]
  simp only [Board.next, cellNext]
  split
  · next isAlive => exact iff_of_true (ite_eq_or_eq _ _ _) (.inl isAlive)
  · next notAlive =>
    split
    · next isDead => exact iff_of_true (ite_eq_or_eq _ _ _) (.inr isDead)
    · next notDead => exact iff_of_false (by decide) (not_or.mpr ⟨notAlive, notDead⟩)

theorem live_iterate (board : Board settings) (n : Nat) :
    (Board.next^[n] board).ground = board.ground ∧
      (Board.next^[n] board).live =
        LifeRule.conway.generation moore board.ground board.live n := by
  induction n with
  | zero => exact ⟨rfl, rfl⟩
  | succ n induction =>
      rcases induction with ⟨kept, same⟩
      rw [Function.iterate_succ_apply', ground_next, kept, live_next, kept, same,
        LifeRule.generation_succ]
      exact ⟨rfl, rfl⟩

/-- Two boards look the same if the same cells are alive. -/
theorem printBoard_eq_iff {a b : Board settings} :
    a.printBoard = b.printBoard ↔ a.live = b.live := by
  have signLength (board : Board settings) (row col : Int) :
      ((if board.getCell row col = alive then [outAlive] else [outDead]) ++ [' ']).length =
        2 := by
    split <;> rfl
  have signs {row col : Int} (same : (if a.getCell row col = alive then [outAlive]
      else [outDead]) = if b.getCell row col = alive then [outAlive] else [outDead]) :
      a.getCell row col = alive ↔ b.getCell row col = alive := by
    split at same <;> split at same <;> simp_all [outAlive, outDead]
  constructor
  · intro same
    ext ⟨row, col⟩
    rw [mem_live, mem_live]
    by_cases within : settings.Within row col
    · have bounds := Settings.within_iff.mp within
      rw [printBoard, printBoard] at same
      have rows := (List.flatMap_eq_iff (fun _ => by simp [signLength])
        (List.range settings.numRows.toNat)).mp same row.toNat
          (List.mem_range.mpr (by omega))
      have columns := (List.flatMap_eq_iff (fun _ => by simp only [signLength])
        (List.range settings.numCols.toNat)).mp (List.append_cancel_right rows) col.toNat
          (List.mem_range.mpr (by omega))
      have sign := signs (List.append_cancel_right columns)
      simpa only [Int.toNat_of_nonneg bounds.1, Int.toNat_of_nonneg bounds.2.2.1] using sign
    · rw [a.getCell_of_not_within within, b.getCell_of_not_within within]
  · intro same
    have cells (row col : Int) : a.getCell row col = alive ↔ b.getCell row col = alive :=
      Set.ext_iff.mp same (row, col)
    simp only [printBoard, cells]

end Board

/-! ## The run -/

section Run

variable (getch : Nat → Int) (heap : Heap settings) (initial : Board settings)

/-- What follows the picture of generation `n + 1`. -/
def ending (n : Nat) : List ScreenCall :=
  if (Board.next^[n] initial).compareBoards (Board.next^[n + 1] initial) = 0 then
    [.print identicalMessage]
  else if (Board.next^[n + 1] initial).checkBoard = 0 then
    [.print allDeadMessage]
  else
    [.refresh]

/-- What is shown of generation `n + 1`. -/
def frame (n : Nat) : List ScreenCall :=
  [.move 0 0, .print (generationTitle (n + 1)),
    .print (Board.next^[n + 1] initial).printBoard] ++ ending initial n

variable {getch heap initial} {n : Nat} {state : PlayState settings}

theorem Reached.shows (reached : Reached initial n state) :
    iterationShows state = frame initial n := by
  rcases reached.boards with ⟨current, next⟩
  simp only [iterationShows, current, next, reached.i]
  rfl

theorem ending_of_stays (stays : ¬ Breaks getch initial n) : ending initial n = [.refresh] := by
  rw [Breaks, not_or, not_or] at stays
  rw [ending, if_neg stays.1, if_neg stays.2.1]

theorem Reached.loopShows (reached : Reached initial n state) {final : PlayState settings}
    (ends : playLoop getch state = .ok final) :
    ∃ rounds, final.calls = n + rounds ∧
      loopShows getch state = (List.range' n rounds).flatMap (frame initial) ∧
      ∀ k, n ≤ k → k + 1 < final.calls → ending initial k = [.refresh] := by
  generalize left : (settings.maxGenerations + 1 - state.i).toNat = remaining
  induction remaining generalizing n state with
  | zero =>
      have past : ¬ state.i ≤ settings.maxGenerations := by omega
      rw [playLoop, if_neg past] at ends
      cases ends
      refine ⟨0, reached.calls, ?_, fun k above below => absurd below ?_⟩
      · rw [Life.loopShows, if_neg past]
        rfl
      · rw [reached.calls]
        omega
  | succ remaining induction =>
      have enters : state.i ≤ settings.maxGenerations := by omega
      rw [Life.loopShows, if_pos enters, reached.shows]
      by_cases breaks : Breaks getch initial n
      · rcases reached.left breaks with ⟨after, gone, -, calls⟩
        rw [playLoop_of_left enters gone] at ends
        cases ends
        refine ⟨1, calls, by simp [gone], fun k above below => absurd below ?_⟩
        rw [calls]
        omega
      · rcases reached.completed breaks with ⟨after, completed, next⟩
        rw [playLoop_of_completed enters completed] at ends
        split at ends
        · cases ends
        · next small =>
          have less : (settings.maxGenerations + 1 - (state.i + 1)).toNat = remaining := by omega
          rcases induction next ends less with ⟨rounds, calls, shown, refreshed⟩
          refine ⟨rounds + 1, by omega, ?_, ?_⟩
          · simp only [completed, if_neg small, shown]
            rw [List.range'_succ, List.flatMap_cons]
          · intro k above below
            rcases Nat.eq_or_lt_of_le above with rfl | later
            · exact ending_of_stays breaks
            · exact refreshed k later below

/-- While the limit is below the greatest number the loop comes to an end. -/
theorem Reached.playLoop_ends (reached : Reached initial n state)
    (small : settings.maxGenerations < intMax) : ∃ final, playLoop getch state = .ok final := by
  generalize left : (settings.maxGenerations + 1 - state.i).toNat = remaining
  induction remaining generalizing n state with
  | zero => exact ⟨state, by rw [playLoop, if_neg (by omega)]⟩
  | succ remaining induction =>
      have enters : state.i ≤ settings.maxGenerations := by omega
      by_cases breaks : Breaks getch initial n
      · rcases reached.left breaks with ⟨after, gone, -⟩
        exact ⟨after, playLoop_of_left enters gone⟩
      · rcases reached.completed breaks with ⟨after, completed, next⟩
        rw [playLoop_of_completed enters completed, if_neg (by omega)]
        have less : (settings.maxGenerations + 1 - (state.i + 1)).toNat = remaining := by omega
        exact induction next less

variable (getch heap initial) in
/-- The pictures show Conway's generations, on the cells that hold one of the two characters at
the start, and all but the last are followed by the next. -/
def ShowsConway (calls : Nat) : Prop :=
  ∃ pictures : Nat → List Char,
    (∀ (n : Nat) (board : Board settings), board.printBoard = pictures n ↔
      board.live = LifeRule.conway.generation moore initial.ground initial.live n) ∧
    playShows getch heap initial =
      [.print "Initial generation\n".toList, .print (pictures 0), .refresh] ++
        (List.range calls).flatMap (fun n =>
          [.move 0 0, .print (generationTitle (n + 1)), .print (pictures (n + 1))] ++
            ending initial n) ∧
    ∀ n, n + 1 < calls → ending initial n = [.refresh]

theorem showsConway_of_ends {final : PlayState settings}
    (ends : playLoop getch (opening getch heap initial) = .ok final) :
    ShowsConway getch heap initial final.calls := by
  rcases (reached_opening getch heap initial).loopShows ends with
    ⟨rounds, calls, shown, refreshed⟩
  rw [Nat.zero_add] at calls
  refine ⟨fun n => (Board.next^[n] initial).printBoard, ?_, ?_,
    fun n below => refreshed n (Nat.zero_le n) below⟩
  · intro n board
    rw [Board.printBoard_eq_iff, (initial.live_iterate n).2]
  · rw [playShows, shown, calls, List.range_eq_range']
    rfl

variable (getch heap initial) in
/-- A run shows Conway's generations when it ends, and below the greatest number it ends. -/
theorem playShows_conway :
    (∀ final, playLoop getch (opening getch heap initial) = .ok final →
      ShowsConway getch heap initial final.calls) ∧
    (settings.maxGenerations < intMax →
      ∃ final, playLoop getch (opening getch heap initial) = .ok final) :=
  ⟨fun _ => showsConway_of_ends, (reached_opening getch heap initial).playLoop_ends⟩

end Run

/-- Three live cells in a row, and none that could come to life. -/
def marred : Board smallSettings := fun cell => if cell.row = 1 then alive else 'O'.toUInt8

theorem playShows_conway_marred :
    ∃ final, playLoop (fun _ => err)
        (opening (fun _ => err) { boards := fun _ _ => 0, allocated := 0 } marred) = .ok final ∧
      ShowsConway (fun _ => err) { boards := fun _ _ => 0, allocated := 0 } marred
        final.calls := by
  have run := playShows_conway (fun _ => err) { boards := fun _ _ => 0, allocated := 0 } marred
  rcases run.2 (by decide) with ⟨final, ends⟩
  exact ⟨final, ends, run.1 final ends⟩

end Pmud.Life
