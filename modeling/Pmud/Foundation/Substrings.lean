import Mathlib.Data.List.Infix

/-! # Occurrences of a pattern

A search from some position on, and the scan that reads a text once from left to
right and cuts it at the occurrences that do not overlap an earlier one.
-/

namespace Pmud.Foundation

variable {Symbol : Type} [DecidableEq Symbol]

/-- The first occurrence that does not begin in front of `pos`. -/
def find (symbols pattern : List Symbol) (pos : Nat) : Option Nat :=
  (List.range' pos (symbols.length + 1 - pos)).find? fun place =>
    pattern <+: symbols.drop place

/-- What stands between the occurrences. So many symbols belong to the occurrence
that was found last, and `begun` has been read since. -/
def piecesFrom (pattern : List Symbol) : Nat → List Symbol → List Symbol → List (List Symbol)
  | _, begun, [] => [begun]
  | inside + 1, begun, _ :: rest => piecesFrom pattern inside begun rest
  | 0, begun, symbol :: rest =>
      if pattern <+: symbol :: rest then
        begun :: piecesFrom pattern (pattern.length - 1) [] rest
      else piecesFrom pattern 0 (begun ++ [symbol]) rest

def pieces (pattern symbols : List Symbol) : List (List Symbol) :=
  piecesFrom pattern 0 [] symbols

/-! ## The search -/

theorem find_eq_some_iff {symbols pattern : List Symbol} {pos place : Nat} :
    find symbols pattern pos = some place ↔
      pos ≤ place ∧ place ≤ symbols.length ∧ pattern <+: symbols.drop place ∧
        ∀ other, pos ≤ other → other < place → ¬ pattern <+: symbols.drop other := by
  rw [find, List.find?_range'_eq_some, List.mem_range'_1]
  simp only [decide_eq_true_eq, Bool.not_eq_true', decide_eq_false_iff_not]
  constructor
  · rintro ⟨occurs, ⟨behind, within⟩, first⟩
    exact ⟨behind, by omega, occurs, first⟩
  · rintro ⟨behind, within, occurs, first⟩
    exact ⟨occurs, ⟨behind, by omega⟩, first⟩

theorem find_eq_none_iff {symbols pattern : List Symbol} {pos : Nat} :
    find symbols pattern pos = none ↔
      ∀ place, pos ≤ place → place ≤ symbols.length → ¬ pattern <+: symbols.drop place := by
  rw [find, List.find?_range'_eq_none]
  simp only [Bool.not_eq_true', decide_eq_false_iff_not]
  apply forall₂_congr
  intro place behind
  exact ⟨fun absent within => absent (by omega), fun absent within => absent (by omega)⟩

/-- A search passes over the part in front of its position. -/
theorem find_append (passed symbols pattern : List Symbol) :
    find (passed ++ symbols) pattern passed.length =
      (find symbols pattern 0).map (passed.length + ·) := by
  have count : (passed ++ symbols).length + 1 - passed.length = symbols.length + 1 := by
    rw [List.length_append]
    omega
  unfold find
  rw [count, List.range'_eq_map_range, List.find?_map, List.range_eq_range', Nat.sub_zero]
  congr 2
  funext place
  simp [List.drop_append, List.drop_eq_nil_of_le (Nat.le_add_right passed.length place)]

theorem find_nil {pattern : List Symbol} (some : pattern ≠ []) : find [] pattern 0 = none := by
  rw [find_eq_none_iff]
  intro place behind within
  simpa using some

theorem find_cons (symbol : Symbol) (rest pattern : List Symbol) :
    find (symbol :: rest) pattern 0 =
      if pattern <+: symbol :: rest then some 0 else (find rest pattern 0).map (1 + ·) := by
  have later := find_append [symbol] rest pattern
  unfold find at later ⊢
  rw [List.length_cons, Nat.sub_zero, List.range'_succ, List.find?_cons]
  split
  · next occurs => rw [if_pos (by simpa using occurs)]
  · next other =>
    rw [if_neg (by simpa using other)]
    exact later

/-! ## The scan -/

section Scan

variable {pattern : List Symbol}

theorem piecesFrom_inside (begun : List Symbol) {skipped : List Symbol} (symbols : List Symbol) :
    piecesFrom pattern skipped.length begun (skipped ++ symbols) =
      piecesFrom pattern 0 begun symbols := by
  induction skipped with
  | nil => rfl
  | cons symbol rest induction => exact induction

/-- Behind an occurrence the scan starts anew. -/
theorem piecesFrom_of_occurs (some : pattern ≠ []) (begun symbols : List Symbol) :
    piecesFrom pattern 0 begun (pattern ++ symbols) = begun :: pieces pattern symbols := by
  cases pattern with
  | nil => exact absurd rfl some
  | cons symbol rest =>
      rw [List.cons_append, piecesFrom, if_pos ⟨symbols, rfl⟩]
      exact congrArg _ (piecesFrom_inside [] symbols)

theorem piecesFrom_of_none {begun symbols : List Symbol}
    (absent : find symbols pattern 0 = none) :
    piecesFrom pattern 0 begun symbols = [begun ++ symbols] := by
  induction symbols generalizing begun with
  | nil => simp [piecesFrom]
  | cons symbol rest induction =>
      rw [find_cons] at absent
      split at absent
      · cases absent
      · next other =>
        rw [piecesFrom, if_neg other, induction (Option.map_eq_none_iff.mp absent)]
        simp

/-- The scan cuts where the search finds the first occurrence. -/
theorem piecesFrom_of_find (some : pattern ≠ []) {begun symbols : List Symbol} {place : Nat}
    (found : find symbols pattern 0 = Option.some place) :
    ∃ before behind, symbols = before ++ pattern ++ behind ∧ before.length = place ∧
      piecesFrom pattern 0 begun symbols = (begun ++ before) :: pieces pattern behind := by
  induction symbols generalizing begun place with
  | nil =>
      rw [find_nil some] at found
      cases found
  | cons symbol rest induction =>
      rw [find_cons] at found
      split at found
      · next occurs =>
        cases found
        rcases occurs with ⟨behind, split⟩
        refine ⟨[], behind, split.symm, rfl, ?_⟩
        rw [← split, piecesFrom_of_occurs some, List.append_nil]
      · next other =>
        rcases Option.map_eq_some_iff.mp found with ⟨place, later, rfl⟩
        rcases @induction (begun ++ [symbol]) place later with ⟨before, behind, rfl, count, cut⟩
        refine ⟨symbol :: before, behind, rfl, ?_, ?_⟩
        · rw [List.length_cons, count, Nat.add_comm]
        · rw [piecesFrom, if_neg other, cut, List.append_assoc, List.singleton_append]

theorem pieces_of_none {symbols : List Symbol} (absent : find symbols pattern 0 = none) :
    pieces pattern symbols = [symbols] :=
  piecesFrom_of_none absent

theorem pieces_of_find (some : pattern ≠ []) {symbols : List Symbol} {place : Nat}
    (found : find symbols pattern 0 = Option.some place) :
    ∃ before behind, symbols = before ++ pattern ++ behind ∧ before.length = place ∧
      pieces pattern symbols = before :: pieces pattern behind :=
  piecesFrom_of_find some found

theorem pieces_ne_nil (pattern symbols : List Symbol) : pieces pattern symbols ≠ [] := by
  have nonempty : ∀ inside begun, piecesFrom pattern inside begun symbols ≠ [] := by
    induction symbols with
    | nil => simp [piecesFrom]
    | cons symbol rest induction =>
        intro inside begun
        cases inside with
        | zero =>
            rw [piecesFrom]
            split
            · exact List.cons_ne_nil _ _
            · exact induction 0 _
        | succ inside => exact induction inside begun
  exact nonempty 0 []

/-- A cut text is put together again with another text at every cut. -/
theorem intercalate_pieces_of_find (some : pattern ≠ []) {symbols : List Symbol} {place : Nat}
    (found : find symbols pattern 0 = Option.some place) :
    ∃ before behind, symbols = before ++ pattern ++ behind ∧ before.length = place ∧
      ∀ other, other.intercalate (pieces pattern symbols) =
        before ++ other ++ other.intercalate (pieces pattern behind) := by
  rcases pieces_of_find some found with ⟨before, behind, split, count, cut⟩
  refine ⟨before, behind, split, count, fun other => ?_⟩
  rw [cut, List.intercalate_cons_of_ne_nil (pieces_ne_nil pattern behind)]

/-- With the pattern at every cut it is the text itself. -/
theorem intercalate_pieces (some : pattern ≠ []) (symbols : List Symbol) :
    pattern.intercalate (pieces pattern symbols) = symbols := by
  induction count : symbols.length using Nat.strong_induction_on generalizing symbols with
  | _ n induction =>
      cases found : find symbols pattern 0 with
      | none => rw [pieces_of_none found, List.intercalate_singleton]
      | some place =>
          rcases intercalate_pieces_of_find some found with ⟨before, behind, rfl, -, joined⟩
          have shorter : behind.length < n := by
            have positive := List.length_pos_iff.mpr some
            simp only [List.length_append] at count
            omega
          rw [joined, induction _ shorter behind rfl]

end Scan

end Pmud.Foundation
