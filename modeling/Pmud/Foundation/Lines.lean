import Mathlib.Data.List.TakeWhile

/-! # Terminated lines of a stream

The lines of a stream and its unterminated tail, computed from left to right
with the beginning of the current line as an accumulator.
-/

namespace Pmud.Foundation

variable {Symbol : Type} [DecidableEq Symbol] (terminator : Symbol)

/-- The terminated lines of a stream that continues a line begun with `carry`. -/
def linesFrom : List Symbol → List Symbol → List (List Symbol)
  | _, [] => []
  | carry, symbol :: rest =>
      if symbol = terminator then carry :: linesFrom [] rest
      else linesFrom (carry ++ [symbol]) rest

/-- What follows the last terminator. -/
def tailFrom : List Symbol → List Symbol → List Symbol
  | carry, [] => carry
  | carry, symbol :: rest =>
      if symbol = terminator then tailFrom [] rest else tailFrom (carry ++ [symbol]) rest

theorem linesFrom_append (carry first second : List Symbol) :
    linesFrom terminator carry (first ++ second) =
      linesFrom terminator carry first ++
        linesFrom terminator (tailFrom terminator carry first) second := by
  induction first generalizing carry with
  | nil => rfl
  | cons symbol rest induction =>
      by_cases ends : symbol = terminator
      · simp [linesFrom, tailFrom, ends, induction]
      · simp [linesFrom, tailFrom, ends, induction]

theorem tailFrom_append (carry first second : List Symbol) :
    tailFrom terminator carry (first ++ second) =
      tailFrom terminator (tailFrom terminator carry first) second := by
  induction first generalizing carry with
  | nil => rfl
  | cons symbol rest induction =>
      by_cases ends : symbol = terminator
      · simp [tailFrom, ends, induction]
      · simp [tailFrom, ends, induction]

/-- Symbols without a terminator only prolong the current line. -/
theorem lines_of_unterminated (carry : List Symbol) {symbols : List Symbol}
    (unterminated : terminator ∉ symbols) :
    linesFrom terminator carry symbols = [] ∧
      tailFrom terminator carry symbols = carry ++ symbols := by
  induction symbols generalizing carry with
  | nil => simp [linesFrom, tailFrom]
  | cons symbol rest induction =>
      have different : symbol ≠ terminator := fun equal =>
        unterminated (equal ▸ List.mem_cons_self)
      have later := induction (carry ++ [symbol]) fun member =>
        unterminated (List.mem_cons_of_mem symbol member)
      simp [linesFrom, tailFrom, different, later.1, later.2]

/-- The first terminator closes the current line. -/
theorem lines_of_terminated (carry : List Symbol) {body : List Symbol}
    (unterminated : terminator ∉ body) (behind : List Symbol) :
    linesFrom terminator carry (body ++ terminator :: behind) =
        (carry ++ body) :: linesFrom terminator [] behind ∧
      tailFrom terminator carry (body ++ terminator :: behind) =
        tailFrom terminator [] behind := by
  have parts := lines_of_unterminated terminator carry unterminated
  rw [linesFrom_append, tailFrom_append, parts.1, parts.2]
  simp [linesFrom, tailFrom]

/-- Lines that are written with a terminator each, in front of more. -/
theorem linesFrom_terminated {lines : List (List Symbol)}
    (single : ∀ line ∈ lines, terminator ∉ line) (behind : List Symbol) :
    linesFrom terminator [] (lines.flatMap (· ++ [terminator]) ++ behind) =
      lines ++ linesFrom terminator [] behind := by
  induction lines with
  | nil => rfl
  | cons line rest induction =>
      rw [List.forall_mem_cons] at single
      rw [List.flatMap_cons, List.append_assoc, List.append_assoc, List.singleton_append,
        (lines_of_terminated terminator [] single.1 _).1, induction single.2]
      rfl

theorem linesFrom_flatMap {lines : List (List Symbol)}
    (single : ∀ line ∈ lines, terminator ∉ line) :
    linesFrom terminator [] (lines.flatMap (· ++ [terminator])) = lines := by
  have all := linesFrom_terminated terminator single []
  rwa [List.append_nil, linesFrom, List.append_nil] at all

/-- Terminators alone are empty lines. -/
theorem lines_of_terminators (count : Nat) :
    linesFrom terminator [] (List.replicate count terminator) =
        List.replicate count [] ∧
      tailFrom terminator [] (List.replicate count terminator) = [] := by
  induction count with
  | zero => exact ⟨rfl, rfl⟩
  | succ count induction =>
      simp [List.replicate_succ, linesFrom, tailFrom, induction.1, induction.2]

/-- A stream with a terminator splits at the first one. -/
theorem exists_split_at_terminator {symbols : List Symbol} (member : terminator ∈ symbols) :
    terminator ∉ symbols.takeWhile (fun symbol => symbol ≠ terminator) ∧
      symbols = symbols.takeWhile (fun symbol => symbol ≠ terminator) ++
        terminator :: (symbols.dropWhile (fun symbol => symbol ≠ terminator)).tail := by
  refine ⟨fun inside => ?_, ?_⟩
  · simpa using List.mem_takeWhile_imp inside
  · induction symbols with
    | nil => cases member
    | cons symbol rest induction =>
        by_cases ends : symbol = terminator
        · simp [ends]
        · have later : terminator ∈ rest :=
            (List.mem_cons.mp member).resolve_left fun equal => ends equal.symm
          simpa [ends] using induction later

/-- Lines and tail hold symbols of the stream only, and no terminator. -/
theorem mem_of_mem_lines {carry symbols line : List Symbol}
    (found : line ∈ linesFrom terminator carry symbols ++ [tailFrom terminator carry symbols])
    {symbol : Symbol} (member : symbol ∈ line) :
    symbol ∈ carry ∨ (symbol ∈ symbols ∧ symbol ≠ terminator) := by
  induction symbols generalizing carry with
  | nil =>
      simp only [linesFrom, tailFrom, List.nil_append, List.mem_singleton] at found
      exact .inl (found ▸ member)
  | cons next rest induction =>
      by_cases ends : next = terminator
      · simp only [linesFrom, tailFrom, ends, if_true, List.cons_append, List.mem_cons] at found
        rcases found with rfl | later
        · exact .inl member
        · rcases induction (List.mem_append.mpr (by simpa using later)) with none | ⟨there, other⟩
          · cases none
          · exact .inr ⟨List.mem_cons_of_mem _ there, other⟩
      · simp only [linesFrom, tailFrom, ends, if_false] at found
        rcases induction found with before | ⟨there, other⟩
        · rcases List.mem_append.mp before with old | new
          · exact .inl old
          · rw [List.mem_singleton.mp new]
            exact .inr ⟨List.mem_cons_self, ends⟩
        · exact .inr ⟨List.mem_cons_of_mem _ there, other⟩

/-- What is begun is the beginning of the first line, or of the tail. -/
theorem exists_line_of_begun (carry symbols : List Symbol) :
    ∃ line ∈ linesFrom terminator carry symbols ++ [tailFrom terminator carry symbols],
      carry <+: line := by
  induction symbols generalizing carry with
  | nil => exact ⟨carry, by simp [linesFrom, tailFrom], List.prefix_rfl⟩
  | cons symbol rest induction =>
      by_cases ends : symbol = terminator
      · exact ⟨carry, by simp [linesFrom, ends], List.prefix_rfl⟩
      · rcases induction (carry ++ [symbol]) with ⟨line, member, longer⟩
        refine ⟨line, by simpa [linesFrom, tailFrom, ends] using member, ?_⟩
        exact (List.prefix_append carry [symbol]).trans longer

end Pmud.Foundation
