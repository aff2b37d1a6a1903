import Pmud.Common.ByteString
import Pmud.Foundation.Substrings
import Pmud.Foundation.While

/-! # Replacing

`common/pmud_string.h`. The memory for a growing text does not run out.
-/

namespace Pmud.Common

open Foundation

/-- `replaced.replace(at, count, to)` -/
def replace (replaced : ByteString) (place count : Nat) (toText : ByteString) : ByteString :=
  replaced.take place ++ toText ++ replaced.drop (place + count)

/-- The variables of the loop; `npos` is `none`. -/
structure Replacing where
  replaced : ByteString
  place : Option Nat
  deriving DecidableEq

namespace Replacing

def searched (replaced fromText : ByteString) (pos : Nat) : Replacing where
  replaced := replaced
  place := find replaced fromText pos

/-- The body of the loop and the search behind it. -/
def round (fromText toText : ByteString) (state : Replacing) : Replacing :=
  match state.place with
  | none => state
  | some place =>
      searched (replace state.replaced place fromText.length toText) fromText
        (place + toText.length)

end Replacing

/-- `none` when the loop has not ended after `fuel` rounds. -/
def replaceAll (fuel : Nat) (text fromText toText : ByteString) : Option ByteString :=
  (whileLoop (fun state : Replacing => state.place.isSome) (.round fromText toText) fuel
    (.searched text fromText 0)).map Replacing.replaced

theorem replace_append (before cut behind toText : ByteString) :
    replace (before ++ cut ++ behind) before.length cut.length toText =
      before ++ toText ++ behind := by
  have front : before.drop (before.length + cut.length) = [] :=
    List.drop_eq_nil_of_le (Nat.le_add_right _ _)
  simp [replace, List.drop_append, front]

/-! ## A pattern -/

section Pattern

variable {fromText toText : ByteString} (nonempty : fromText ≠ [])

/-- The part in front of the search is finished, and behind it the text is as it
was. -/
def Replacing.Invariant (result fromText toText : ByteString) (state : Replacing) : Prop :=
  ∃ finished left,
    state = searched (finished ++ left) fromText finished.length ∧
    finished ++ toText.intercalate (pieces fromText left) = result

/-- What there is behind the occurrence that is replaced next. -/
def Replacing.unscanned (state : Replacing) : Nat :=
  state.place.elim 0 fun place => state.replaced.length - place

namespace Replacing

theorem searched_append (finished left : ByteString) :
    searched (finished ++ left) fromText finished.length =
      { replaced := finished ++ left
        place := (find left fromText 0).map (finished.length + ·) } := by
  rw [searched, find_append]

theorem unscanned_searched_le (fromText finished left : ByteString) :
    (searched (finished ++ left) fromText finished.length).unscanned ≤ left.length := by
  rw [searched_append, unscanned]
  cases find left fromText 0 with
  | none => exact Nat.zero_le _
  | some place =>
      rw [Option.map_some, Option.elim_some, List.length_append]
      omega

theorem unscanned_of_find {left : ByteString} {place : Nat} (finished : ByteString)
    (found : find left fromText 0 = some place) :
    (searched (finished ++ left) fromText finished.length).unscanned = left.length - place := by
  rw [searched_append, found, unscanned, Option.map_some, Option.elim_some, List.length_append]
  omega

/-- What the loop leaves behind when it does not find another occurrence. -/
theorem Invariant.replaced_eq {result : ByteString} {state : Replacing}
    (invariant : Invariant result fromText toText state) (ends : state.place.isSome = false) :
    state.replaced = result := by
  rcases invariant with ⟨finished, left, rfl, joined⟩
  rw [searched_append] at ends ⊢
  have absent : find left fromText 0 = none := by
    simpa using ends
  rw [← joined, pieces_of_none absent, List.intercalate_singleton]

include nonempty

/-- One round finishes the text up to an occurrence and the replacement of it. -/
theorem round_of_find (toText finished : ByteString) {left : ByteString} {place : Nat}
    (found : find left fromText 0 = some place) :
    ∃ before behind,
      left = before ++ fromText ++ behind ∧ before.length = place ∧
      round fromText toText (searched (finished ++ left) fromText finished.length) =
        searched (finished ++ before ++ toText ++ behind) fromText
          (finished ++ before ++ toText).length ∧
      toText.intercalate (pieces fromText left) =
        before ++ toText ++ toText.intercalate (pieces fromText behind) := by
  rcases intercalate_pieces_of_find nonempty found with ⟨before, behind, split, count, joined⟩
  refine ⟨before, behind, split, count, ?_, joined toText⟩
  have replaced : replace (finished ++ left) (finished.length + place) fromText.length toText =
      finished ++ before ++ toText ++ behind := by
    have whole : finished ++ left = finished ++ before ++ fromText ++ behind := by
      rw [split, ← List.append_assoc, ← List.append_assoc]
    rw [whole, ← count, ← List.length_append, replace_append]
  have pos : finished.length + place + toText.length =
      (finished ++ before ++ toText).length := by
    rw [List.length_append, List.length_append, count]
  rw [searched_append, found, round, Option.map_some]
  simp only [replaced, pos]

theorem Invariant.round {result : ByteString} {state : Replacing}
    (invariant : Invariant result fromText toText state) (goes : state.place.isSome = true) :
    Invariant result fromText toText (state.round fromText toText) ∧
      (state.round fromText toText).unscanned < state.unscanned := by
  rcases invariant with ⟨finished, left, rfl, joined⟩
  rw [searched_append] at goes
  rcases Option.isSome_iff_exists.mp goes with ⟨place, found⟩
  simp only [Option.map_eq_some_iff] at found
  rcases found with ⟨place, found, -⟩
  rcases round_of_find nonempty toText finished found with
    ⟨before, behind, split, count, next, cut⟩
  rw [next]
  constructor
  · refine ⟨_, behind, rfl, ?_⟩
    rw [← joined, cut]
    simp only [List.append_assoc]
  · have after := unscanned_searched_le fromText (finished ++ before ++ toText) behind
    have size := unscanned_of_find finished found
    have positive := List.length_pos_iff.mpr nonempty
    have lengths := congrArg List.length split
    rw [List.length_append, List.length_append] at lengths
    omega

end Replacing

include nonempty

/-- The loop ends after a round for every symbol of the text at most. -/
theorem replaceAll_of_pieces (text : ByteString) {fuel : Nat} (enough : text.length ≤ fuel) :
    replaceAll fuel text fromText toText =
      some (toText.intercalate (pieces fromText text)) := by
  have initial : Replacing.Invariant (toText.intercalate (pieces fromText text)) fromText toText
      (.searched text fromText 0) := ⟨[], text, rfl, rfl⟩
  have short : (Replacing.searched text fromText 0).unscanned ≤ text.length :=
    Replacing.unscanned_searched_le fromText [] text
  rcases whileLoop_total (fun state : Replacing => state.place.isSome) (.round fromText toText)
      (Replacing.Invariant (toText.intercalate (pieces fromText text)) fromText toText)
      Replacing.unscanned
      (fun _ invariant goes => (Replacing.Invariant.round nonempty invariant goes).1)
      (fun _ invariant goes => (Replacing.Invariant.round nonempty invariant goes).2)
      initial (Nat.le_trans short enough) with
    ⟨final, ends, invariant, stops⟩
  rw [replaceAll, ends, Option.map_some, invariant.replaced_eq stops]

/-- The pieces of the text as it was are joined by the replacement. -/
theorem replaceAll_reference (text toText : ByteString) :
    fromText.intercalate (pieces fromText text) = text ∧
      ∀ fuel, text.length ≤ fuel →
        replaceAll fuel text fromText toText =
          some (toText.intercalate (pieces fromText text)) :=
  ⟨intercalate_pieces nonempty text, fun _ enough => replaceAll_of_pieces nonempty text enough⟩

end Pattern

theorem replaceAll_reference_overlap :
    (text "aa").intercalate (pieces (text "aa") (text "baaa")) = text "baaa" ∧
      ∀ fuel, (text "baaa").length ≤ fuel →
        replaceAll fuel (text "baaa") (text "aa") (text "aab") =
          some ((text "aab").intercalate (pieces (text "aa") (text "baaa"))) :=
  replaceAll_reference (by decide) (text "baaa") (text "aab")

example : replaceAll 4 (text "baaa") (text "aa") (text "aab") = some (text "baaba") := by decide

/-! ## The empty pattern -/

theorem find_empty {replaced : ByteString} {pos : Nat} (within : pos ≤ replaced.length) :
    find replaced [] pos = some pos :=
  find_eq_some_iff.mpr
    ⟨Nat.le_refl pos, within, List.nil_prefix, fun _ behind before => by omega⟩

/-- The empty pattern is found where it is looked for. -/
theorem whileLoop_empty (toText : ByteString) (fuel : Nat) {replaced : ByteString} {pos : Nat}
    (within : pos ≤ replaced.length) :
    whileLoop (fun state : Replacing => state.place.isSome) (.round [] toText) fuel
      (.searched replaced [] pos) = none := by
  induction fuel generalizing replaced pos with
  | zero => simp [whileLoop, Replacing.searched, find_empty within]
  | succ fuel induction =>
      have room : pos + toText.length ≤ (replace replaced pos 0 toText).length := by
        simp only [replace, List.length_append, List.length_take, List.length_drop]
        omega
      have goes : (Replacing.searched replaced [] pos).place.isSome = true := by
        simp [Replacing.searched, find_empty within]
      have next : Replacing.round [] toText (.searched replaced [] pos) =
          .searched (replace replaced pos 0 toText) [] (pos + toText.length) := by
        simp [Replacing.round, Replacing.searched, find_empty within]
      rw [whileLoop, if_pos goes, next, induction room]

theorem replaceAll_empty (fuel : Nat) (text toText : ByteString) :
    replaceAll fuel text [] toText = none := by
  rw [replaceAll, whileLoop_empty toText fuel (Nat.zero_le _), Option.map_none]

def Ends (text fromText toText : ByteString) : Prop :=
  ∃ fuel result, replaceAll fuel text fromText toText = some result

theorem ends_iff (text fromText toText : ByteString) :
    Ends text fromText toText ↔ fromText ≠ [] := by
  constructor
  · rintro ⟨fuel, result, ends⟩ rfl
    rw [replaceAll_empty] at ends
    cases ends
  · intro nonempty
    exact ⟨text.length, _, replaceAll_of_pieces nonempty text (Nat.le_refl _)⟩

theorem not_ends_of_empty : ¬ Ends (text "a") [] [] := by
  rintro ⟨fuel, result, ends⟩
  rw [replaceAll_empty] at ends
  cases ends

end Pmud.Common
