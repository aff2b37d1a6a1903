import Mathlib.Data.List.GetD

/-! # Words and columns

The words between the separators of a text, the parts of a text at its first
separator, and texts in columns of one width.
-/

namespace Pmud.Foundation

section Words

variable {Symbol : Type} [DecidableEq Symbol] (separator : Symbol)

/-- The words of a text that continues a word begun with `current`. Nothing between two
separators is no word. -/
def wordsFrom (current : List Symbol) : List Symbol → List (List Symbol)
  | [] => if current = [] then [] else [current]
  | symbol :: rest =>
      if symbol = separator then
        if current = [] then wordsFrom [] rest else current :: wordsFrom [] rest
      else
        wordsFrom (current ++ [symbol]) rest

theorem wordsFrom_append (current : List Symbol) {word : List Symbol} (plain : separator ∉ word)
    (rest : List Symbol) :
    wordsFrom separator current (word ++ rest) = wordsFrom separator (current ++ word) rest := by
  induction word generalizing current with
  | nil => simp
  | cons symbol word induction =>
      rw [List.mem_cons, not_or] at plain
      rw [List.cons_append, wordsFrom, if_neg (Ne.symm plain.1), induction _ plain.2,
        List.append_assoc]
      rfl

theorem wordsFrom_last {word : List Symbol} (nonempty : word ≠ []) (plain : separator ∉ word) :
    wordsFrom separator [] word = [word] := by
  have ended := wordsFrom_append separator [] plain []
  rwa [List.append_nil, List.nil_append, wordsFrom, if_neg nonempty] at ended

theorem wordsFrom_word {word : List Symbol} (nonempty : word ≠ []) (plain : separator ∉ word)
    (rest : List Symbol) :
    wordsFrom separator [] (word ++ separator :: rest) = word :: wordsFrom separator [] rest := by
  rw [wordsFrom_append separator [] plain, List.nil_append, wordsFrom, if_pos rfl,
    if_neg nonempty]

theorem wordsFrom_separators (count : Nat) (rest : List Symbol) :
    wordsFrom separator [] (List.replicate count separator ++ rest) =
      wordsFrom separator [] rest := by
  induction count with
  | zero => rfl
  | succ count induction =>
      rw [List.replicate_succ, List.cons_append, wordsFrom, if_pos rfl, if_pos rfl, induction]

/-- Words with a separator between them are the words of the text. -/
theorem wordsFrom_intercalate {words : List (List Symbol)}
    (each : ∀ word ∈ words, word ≠ [] ∧ separator ∉ word) :
    wordsFrom separator [] ([separator].intercalate words) = words := by
  induction words with
  | nil => rfl
  | cons word rest induction =>
      rw [List.forall_mem_cons] at each
      rcases rest with _ | ⟨next, rest⟩
      · rw [List.intercalate_singleton, wordsFrom_last separator each.1.1 each.1.2]
      · rw [List.intercalate_cons_cons, List.append_assoc, List.singleton_append,
          wordsFrom_word separator each.1.1 each.1.2, induction each.2]

/-- What stands in front of the first separator, and behind it. -/
def splitFirst (symbols : List Symbol) : List Symbol × List Symbol :=
  (symbols.takeWhile (· ≠ separator), (symbols.dropWhile (· ≠ separator)).tail)

theorem splitFirst_append {name : List Symbol} (plain : separator ∉ name) (value : List Symbol) :
    splitFirst separator (name ++ separator :: value) = (name, value) := by
  have letters : ∀ symbol ∈ name, decide (symbol ≠ separator) = true := by
    intro symbol member
    exact decide_eq_true fun same => plain (same ▸ member)
  rw [splitFirst, List.takeWhile_append_of_pos letters, List.dropWhile_append_of_pos letters]
  simp

end Words

section Columns

variable {Symbol : Type} {width count : Nat} {block : Nat → List Symbol}

theorem length_columns (wide : ∀ place < count, (block place).length = width) :
    ((List.range count).flatMap block).length = width * count := by
  have lengths : (List.range count).map (fun place => (block place).length) =
      (List.range count).map fun _ => width :=
    List.map_congr_left fun place member => wide place (List.mem_range.mp member)
  rw [List.length_flatMap, lengths, List.map_const', List.length_range, List.sum_replicate_nat,
    Nat.mul_comm]

/-- A symbol of a column is found by the number of the column. -/
theorem getD_columns (wide : ∀ place < count, (block place).length = width) {place index : Nat}
    (inside : place < count) (within : index < width) (default : Symbol) :
    ((List.range count).flatMap block).getD (width * place + index) default =
      (block place).getD index default := by
  induction count with
  | zero => omega
  | succ count induction =>
      have narrower : ∀ place < count, (block place).length = width :=
        fun place before => wide place (Nat.lt_succ_of_lt before)
      have length := length_columns narrower
      rw [List.range_succ, List.flatMap_append, List.flatMap_singleton]
      rcases Nat.lt_or_eq_of_le (Nat.le_of_lt_succ inside) with before | rfl
      · have short : width * place + index < width * count := by
          calc width * place + index < width * place + width := Nat.add_lt_add_left within _
            _ = width * (place + 1) := (Nat.mul_succ width place).symm
            _ ≤ width * count := Nat.mul_le_mul_left width before
        rw [List.getD_append _ _ _ _ (length ▸ short), induction narrower before]
      · rw [List.getD_append_right _ _ _ _ (by omega), length, Nat.add_sub_cancel_left]

end Columns

end Pmud.Foundation
