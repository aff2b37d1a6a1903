import Pmud.Life.Generations

/-! # Playing

`play` of `life/life.c`: the loop over the generations with its four ends.
-/

namespace Pmud.Life

open Foundation

variable {settings : Settings}

/-- What `getch` returns when no key was pressed. -/
def err : Int := -1

def keyResize : Int := 410

structure Results where
  generations : Int
  keyPressed : Int
  deriving DecidableEq, Repr

/-- The variables of `play`, with the number of keys that were asked for and of
calls of `calc_next_generation`. -/
structure PlayState (settings : Settings) where
  heap : Heap settings
  currentGen : Nat
  nextGen : Nat
  i : Int
  key : Int
  keysRead : Nat
  calls : Nat

/-- An iteration is completed or left by a `break`. -/
inductive Iteration (settings : Settings)
  | left (state : PlayState settings)
  | completed (state : PlayState settings)

def iteration (getch : Nat → Int) (state : PlayState settings) : Iteration settings :=
  let heap := state.heap.calcNextGeneration state.currentGen state.nextGen
  let called := { state with heap := heap, calls := state.calls + 1 }
  if (heap.boards state.currentGen).compareBoards (heap.boards state.nextGen) = 0 then
    .left called
  else if (heap.boards state.nextGen).checkBoard = 0 then
    .left called
  else
    let key := getch state.keysRead
    let swapped :=
      { called with
        currentGen := state.nextGen
        nextGen := state.currentGen
        key := key
        keysRead := state.keysRead + 1 }
    if key ≠ err ∧ key ≠ keyResize then .left swapped else .completed swapped

/-- The `for` loop. The iteration does not change `i`, which is counted behind it. -/
def playLoop (getch : Nat → Int) (state : PlayState settings) : Outcome (PlayState settings) :=
  if state.i ≤ settings.maxGenerations then
    match iteration getch state with
    | .left after => .ok after
    | .completed after =>
        if state.i = intMax then .error .overflow
        else playLoop getch { after with i := state.i + 1 }
  else
    .ok state
termination_by (settings.maxGenerations + 1 - state.i).toNat

/-- What `play` starts the loop with, once the first board is filled. -/
def opening (getch : Nat → Int) (heap : Heap settings) (initial : Board settings) :
    PlayState settings :=
  let board1 := heap.allocateBoard
  let board2 := board1.2.allocateBoard
  { heap := board2.2.set board1.1 initial
    currentGen := board1.1
    nextGen := board2.1
    i := 1
    key := getch 0
    keysRead := 1
    calls := 0 }

def PlayState.results (state : PlayState settings) : Results where
  generations := state.i
  keyPressed := state.key

/-- `load` fills the board from a file or at random. -/
def play (getch : Nat → Int) (heap : Heap settings)
    (load : Board settings → Outcome (Board settings)) : Outcome Results := do
  let initial ← load (heap.allocateBoard.2.boards heap.allocated)
  let final ← playLoop getch (opening getch heap initial)
  return final.results

/-! ## A round of the loop -/

/-- After generation `n + 1` the loop is left by a `break`. -/
def Breaks (getch : Nat → Int) (initial : Board settings) (n : Nat) : Prop :=
  (Board.next^[n] initial).compareBoards (Board.next^[n + 1] initial) = 0 ∨
    (Board.next^[n + 1] initial).checkBoard = 0 ∨
    (getch (n + 1) ≠ err ∧ getch (n + 1) ≠ keyResize)

instance (getch : Nat → Int) (initial : Board settings) (n : Nat) :
    Decidable (Breaks getch initial n) :=
  inferInstanceAs (Decidable (_ ∨ _ ∨ _))

/-- The loop is left when a generation repeats, when all cells are dead or with a key. -/
theorem breaks_iff {getch : Nat → Int} {initial : Board settings} {n : Nat} :
    Breaks getch initial n ↔
      Board.next^[n] initial = Board.next^[n + 1] initial ∨
        (∀ cell, (Board.next^[n + 1] initial) cell ≠ alive) ∨
        (getch (n + 1) ≠ err ∧ getch (n + 1) ≠ keyResize) := by
  rw [Breaks, Board.compareBoards_eq_zero, Board.checkBoard_eq_zero]

/-- The state in front of the generation after the `n`-th. -/
structure Reached (initial : Board settings) (n : Nat) (state : PlayState settings) :
    Prop where
  i : state.i = n + 1
  calls : state.calls = n
  keysRead : state.keysRead = n + 1
  board : state.heap.boards state.currentGen = Board.next^[n] initial
  apart : state.currentGen ≠ state.nextGen

theorem reached_opening (getch : Nat → Int) (heap : Heap settings) (initial : Board settings) :
    Reached initial 0 (opening getch heap initial) where
  i := rfl
  calls := rfl
  keysRead := rfl
  board := Heap.set_boards_self ..
  apart := Nat.ne_of_lt (Nat.lt_succ_self heap.allocated)

section Reached

variable {getch : Nat → Int} {initial : Board settings} {n : Nat} {state : PlayState settings}
  (reached : Reached initial n state)
include reached

theorem Reached.boards :
    let heap := state.heap.calcNextGeneration state.currentGen state.nextGen
    heap.boards state.currentGen = Board.next^[n] initial ∧
      heap.boards state.nextGen = Board.next^[n + 1] initial := by
  have written := state.heap.calcNextGeneration_eq reached.apart
  simp only [written]
  constructor
  · rw [Heap.set_boards_of_ne _ reached.apart, reached.board]
  · rw [Heap.set_boards_self, reached.board, Function.iterate_succ_apply']

theorem Reached.left (breaks : Breaks getch initial n) :
    ∃ after, iteration getch state = .left after ∧ after.i = n + 1 ∧ after.calls = n + 1 := by
  rcases reached.boards with ⟨current, next⟩
  simp only [iteration, current, next, reached.keysRead]
  have count : state.calls + 1 = n + 1 := by rw [reached.calls]
  by_cases identical : (Board.next^[n] initial).compareBoards (Board.next^[n + 1] initial) = 0
  · exact ⟨_, if_pos identical, reached.i, count⟩
  · rw [if_neg identical]
    by_cases allDead : (Board.next^[n + 1] initial).checkBoard = 0
    · exact ⟨_, if_pos allDead, reached.i, count⟩
    · rw [if_neg allDead]
      exact ⟨_, if_pos ((breaks.resolve_left identical).resolve_left allDead), reached.i, count⟩

theorem Reached.completed (stays : ¬ Breaks getch initial n) :
    ∃ after, iteration getch state = .completed after ∧
      Reached initial (n + 1) { after with i := state.i + 1 } := by
  rcases reached.boards with ⟨current, next⟩
  unfold Breaks at stays
  rw [not_or, not_or] at stays
  simp only [iteration, current, next, reached.keysRead]
  rw [if_neg stays.1, if_neg stays.2.1, if_neg stays.2.2]
  refine ⟨_, rfl, ?_⟩
  exact {
    i := by rw [reached.i]; rfl
    calls := by simp only [reached.calls]
    keysRead := rfl
    board := next
    apart := reached.apart.symm }

end Reached

/-! ## The number of generations -/

theorem playLoop_of_left {getch : Nat → Int} {state after : PlayState settings}
    (enters : state.i ≤ settings.maxGenerations) (left : iteration getch state = .left after) :
    playLoop getch state = .ok after := by
  rw [playLoop, if_pos enters, left]

theorem playLoop_of_completed {getch : Nat → Int} {state after : PlayState settings}
    (enters : state.i ≤ settings.maxGenerations)
    (completed : iteration getch state = .completed after) :
    playLoop getch state =
      if state.i = intMax then .error .overflow
      else playLoop getch { after with i := state.i + 1 } := by
  rw [playLoop, if_pos enters, completed]

/-- A loop that is left by a `break` has counted right. -/
theorem Reached.playLoop_of_breaks {getch : Nat → Int} {initial : Board settings}
    {n rounds : Nat} {state : PlayState settings} (reached : Reached initial n state)
    (stays : ∀ k < rounds, ¬ Breaks getch initial (n + k))
    (breaks : Breaks getch initial (n + rounds))
    (inTime : ((n + rounds : Nat) : Int) + 1 ≤ settings.maxGenerations) :
    ∃ final, playLoop getch state = .ok final ∧ final.i = final.calls := by
  have bounded := settings.bounded
  have count := reached.i
  have enters : state.i ≤ settings.maxGenerations := by omega
  induction rounds generalizing n state with
  | zero =>
      rcases reached.left breaks with ⟨after, left, i, calls⟩
      refine ⟨after, playLoop_of_left enters left, ?_⟩
      rw [i, calls]
      rfl
  | succ rounds induction =>
      rcases reached.completed (stays 0 (Nat.zero_lt_succ rounds)) with ⟨after, completed, next⟩
      have later : n + (rounds + 1) = n + 1 + rounds := by omega
      rw [playLoop_of_completed enters completed, if_neg (by omega)]
      have entersNext : state.i + 1 ≤ settings.maxGenerations := by omega
      refine induction next (fun k below => ?_) (later ▸ breaks) (by omega) next.i entersNext
      have goes := stays (k + 1) (Nat.succ_lt_succ below)
      rwa [show n + (k + 1) = n + 1 + k by omega] at goes

/-- A loop that ends with its condition has counted one too many. -/
theorem Reached.playLoop_of_stays {getch : Nat → Int} {initial : Board settings} {n : Nat}
    {state : PlayState settings} (reached : Reached initial n state)
    (stays : ∀ k, n ≤ k → (k : Int) + 1 ≤ settings.maxGenerations → ¬ Breaks getch initial k)
    {final : PlayState settings} (ends : playLoop getch state = .ok final) :
    final.i = final.calls + 1 := by
  generalize left : (settings.maxGenerations - n).toNat = rounds
  have count := reached.i
  induction rounds generalizing n state with
  | zero =>
      rw [playLoop, if_neg (by omega)] at ends
      cases ends
      rw [count, reached.calls]
  | succ rounds induction =>
      have enters : state.i ≤ settings.maxGenerations := by omega
      rcases reached.completed (stays n (Nat.le_refl n) (by omega)) with ⟨after, completed, next⟩
      rw [playLoop_of_completed enters completed] at ends
      split at ends
      · cases ends
      · refine induction next (fun k above => stays k (by omega)) ends (by omega) next.i

/-- What `play` returns is what the loop leaves, when the first board could be filled. -/
theorem play_of_load (getch : Nat → Int) (heap : Heap settings) {initial : Board settings}
    {load : Board settings → Outcome (Board settings)}
    (loads : load (heap.allocateBoard.2.boards heap.allocated) = .ok initial) :
    play getch heap load =
      (playLoop getch (opening getch heap initial)).map PlayState.results := by
  rw [play, loads]
  change (playLoop getch (opening getch heap initial) >>= fun final =>
    Except.ok final.results) = _
  cases playLoop getch (opening getch heap initial) with
  | error stop => rfl
  | ok final => rfl

/-- What `play` reports is the number of generations it has calculated. -/
def ReportsGenerations (getch : Nat → Int) (heap : Heap settings) (initial : Board settings) :
    Prop :=
  ∃ final, playLoop getch (opening getch heap initial) = .ok final ∧
    final.results.generations = final.calls

theorem not_reportsGenerations_of_stays {getch : Nat → Int} (heap : Heap settings)
    {initial : Board settings}
    (stays : ∀ n : Nat, (n : Int) + 1 ≤ settings.maxGenerations → ¬ Breaks getch initial n) :
    ¬ ReportsGenerations getch heap initial := by
  intro reports
  rcases reports with ⟨final, ends, same⟩
  have count := (reached_opening getch heap initial).playLoop_of_stays
    (fun k _ inTime => stays k inTime) ends
  have reported : final.i = final.calls := same
  omega

/-- The report is true if and only if a `break` comes before the limit. -/
theorem reportsGenerations_iff (getch : Nat → Int) (heap : Heap settings)
    (initial : Board settings) :
    ReportsGenerations getch heap initial ↔
      ∃ n : Nat, (n : Int) + 1 ≤ settings.maxGenerations ∧ Breaks getch initial n := by
  constructor
  · intro reports
    by_contra none
    refine not_reportsGenerations_of_stays heap (fun n inTime breaks => ?_) reports
    exact none ⟨n, inTime, breaks⟩
  · intro found
    obtain ⟨n, inTime, breaks, first⟩ : ∃ n : Nat, (n : Int) + 1 ≤ settings.maxGenerations ∧
        Breaks getch initial n ∧ ∀ k < n, ¬ Breaks getch initial k := by
      refine ⟨Nat.find found, (Nat.find_spec found).1, (Nat.find_spec found).2, ?_⟩
      intro k below breaks
      have bound := (Nat.find_spec found).1
      exact Nat.find_min found below ⟨by omega, breaks⟩
    refine (reached_opening getch heap initial).playLoop_of_breaks (fun k below => ?_)
      (by simpa using breaks) (by simpa using inTime)
    rw [Nat.zero_add]
    exact first k below

def smallSettings : Settings where
  numRows := 3
  numCols := 3
  maxGenerations := 1

/-- Three live cells in a row. -/
def blinker : Board smallSettings :=
  fun cell => if cell.row = 1 then alive else dead

/-- One generation of the blinker is reported as two. -/
theorem not_reportsGenerations_of_blinker :
    ¬ ReportsGenerations (fun _ => err) { boards := fun _ _ => 0, allocated := 0 } blinker := by
  apply not_reportsGenerations_of_stays
  intro n inTime
  have first : n = 0 := by
    have limit : ((n : Int) + 1) ≤ 1 := inTime
    omega
  rw [first]
  decide

/-! ## Conway's generations -/

/-- What the loop makes of a state when it does not end in this round. -/
def round (getch : Nat → Int) (state : PlayState settings) : Option (PlayState settings) :=
  if state.i ≤ settings.maxGenerations then
    match iteration getch state with
    | .left _ => none
    | .completed after =>
        if state.i = intMax then none else some { after with i := state.i + 1 }
  else
    none

/-- The state after so many completed iterations, if there are so many. -/
def afterRounds (getch : Nat → Int) : Nat → PlayState settings → Option (PlayState settings)
  | 0, state => some state
  | n + 1, state => (afterRounds getch n state).bind (round getch)

theorem playLoop_of_round {getch : Nat → Int} {state next : PlayState settings}
    (taken : round getch state = some next) : playLoop getch state = playLoop getch next := by
  unfold round at taken
  split at taken
  · next enters =>
    cases ran : iteration getch state with
    | left after => simp [ran] at taken
    | completed after =>
        simp only [ran, Option.ite_none_left_eq_some, Option.some.injEq] at taken
        rw [playLoop_of_completed enters ran, if_neg taken.1, taken.2]
  · cases taken

/-- The rounds are those that the loop goes through. -/
theorem playLoop_of_afterRounds {getch : Nat → Int} {n : Nat} {state after : PlayState settings}
    (completed : afterRounds getch n state = some after) :
    playLoop getch state = playLoop getch after := by
  induction n generalizing after with
  | zero =>
      cases completed
      rfl
  | succ n induction =>
      rcases Option.bind_eq_some_iff.mp completed with ⟨before, earlier, taken⟩
      rw [induction earlier, playLoop_of_round taken]

theorem Reached.round {getch : Nat → Int} {initial : Board settings} {n : Nat}
    {state next : PlayState settings} (reached : Reached initial n state)
    (taken : round getch state = some next) : Reached initial (n + 1) next := by
  unfold Life.round at taken
  split at taken
  · by_cases breaks : Breaks getch initial n
    · rcases reached.left breaks with ⟨after, left, -⟩
      simp [left] at taken
    · rcases reached.completed breaks with ⟨after, completed, holds⟩
      simp only [completed, Option.ite_none_left_eq_some, Option.some.injEq] at taken
      exact taken.2 ▸ holds
  · cases taken

theorem reached_afterRounds {getch : Nat → Int} {heap : Heap settings} {initial : Board settings}
    {n : Nat} {state : PlayState settings}
    (completed : afterRounds getch n (opening getch heap initial) = some state) :
    Reached initial n state := by
  induction n generalizing state with
  | zero =>
      cases completed
      exact reached_opening getch heap initial
  | succ n induction =>
      rcases Option.bind_eq_some_iff.mp completed with ⟨before, earlier, taken⟩
      exact (induction earlier).round taken

/-- After `n` completed iterations the current board is Conway's `n`-th generation. -/
theorem afterRounds_conway {getch : Nat → Int} {heap : Heap settings} {initial : Board settings}
    (proper : initial.Proper) {n : Nat} {state : PlayState settings}
    (completed : afterRounds getch n (opening getch heap initial) = some state) :
    (state.heap.boards state.currentGen).live =
        LifeRule.conway.generation moore settings.plane initial.live n ∧
      (∀ cell, state.heap.boards state.currentGen cell = alive ∨
        state.heap.boards state.currentGen cell = dead) ∧
      (∀ cell, state.heap.boards state.currentGen cell ≠ outside) ∧
      state.currentGen ≠ state.nextGen := by
  have reached := reached_afterRounds completed
  rcases proper.live_iterate n with ⟨generation, live⟩
  rw [reached.board]
  refine ⟨live, generation, fun cell out => ?_, reached.apart⟩
  rcases generation cell with isAlive | isDead
  · rw [out] at isAlive
    cases isAlive
  · rw [out] at isDead
    cases isDead

/-- A round with the blinker. -/
theorem afterRounds_conway_blinker :
    ∃ state, afterRounds (fun _ => err) 1
        (opening (fun _ => err) { boards := fun _ _ => 0, allocated := 0 } blinker) = some state ∧
      (state.heap.boards state.currentGen).live =
        LifeRule.conway.generation moore smallSettings.plane blinker.live 1 := by
  have proper : blinker.Proper := fun cell => ite_eq_or_eq _ _ _
  have completed : (afterRounds (fun _ => err) 1
      (opening (fun _ => err) { boards := fun _ _ => 0, allocated := 0 } blinker)).isSome := by
    decide
  rcases Option.isSome_iff_exists.mp completed with ⟨state, found⟩
  exact ⟨state, found, (afterRounds_conway proper found).1⟩

end Pmud.Life
