import Mathlib.Data.List.Basic
import Mathlib.Data.Vector.Basic

/-! # Arrays of a fixed size

Programs write an array cell by cell. A write behind the end does not happen:
it gives no array. A sequence of writes is one piece of the array replaced.
-/

namespace Pmud.Foundation.Memory

variable {Cell : Type} {size : Nat}

/-- `none` is a write out of bounds. -/
def store (memory : Vector Cell size) (index : Nat) (cell : Cell) :
    Option (Vector Cell size) :=
  if bound : index < size then some (memory.set index cell) else none

/-- One cell after the other, from the index on. -/
def storeAll (memory : Vector Cell size) (index : Nat) : List Cell → Option (Vector Cell size)
  | [] => some memory
  | cell :: rest => (store memory index cell).bind fun next => storeAll next (index + 1) rest

/-- The loop that writes one value to all cells from `first` to before `limit`. -/
def clear (memory : Vector Cell size) (first limit : Nat) (cell : Cell) :
    Option (Vector Cell size) :=
  storeAll memory first (List.replicate (limit - first) cell)

theorem store_piece {memory : Vector Cell size} {front back : List Cell} {old : Cell}
    (content : memory.toList = front ++ old :: back) (cell : Cell) :
    ∃ next, store memory front.length cell = some next ∧
      next.toList = front ++ cell :: back := by
  have total := congrArg List.length content
  simp only [Vector.length_toList, List.length_append, List.length_cons] at total
  have bound : front.length < size := by omega
  refine ⟨memory.set front.length cell, by rw [store, dif_pos bound], ?_⟩
  rw [Vector.toList_set, content, List.set_append_right _ _ (Nat.le_refl _), Nat.sub_self,
    List.set_cons_zero]

/-- Writes within the bounds replace a piece of the array. -/
theorem storeAll_piece {memory : Vector Cell size} {front old back : List Cell}
    (content : memory.toList = front ++ old ++ back) (cells : List Cell)
    (sameLength : cells.length = old.length) :
    ∃ next, storeAll memory front.length cells = some next ∧
      next.toList = front ++ cells ++ back := by
  induction cells generalizing memory front old with
  | nil =>
      have empty : old = [] := List.eq_nil_of_length_eq_zero sameLength.symm
      exact ⟨memory, rfl, by rw [content, empty]⟩
  | cons cell rest induction =>
      rcases old with _ | ⟨first, others⟩
      · cases sameLength
      · have split : memory.toList = front ++ first :: (others ++ back) := by simp [content]
        rcases store_piece split cell with ⟨middle, stored, written⟩
        have shifted : middle.toList = (front ++ [cell]) ++ others ++ back := by simp [written]
        rcases induction shifted (by simpa using sameLength) with ⟨next, rest, final⟩
        refine ⟨next, ?_, by simpa using final⟩
        rw [storeAll, stored, Option.bind_some, ← rest, List.length_append]
        rfl

theorem clear_piece {memory : Vector Cell size} {front old back : List Cell} {limit : Nat}
    (content : memory.toList = front ++ old ++ back) (upTo : limit = front.length + old.length)
    (cell : Cell) :
    ∃ next, clear memory front.length limit cell = some next ∧
      next.toList = front ++ List.replicate old.length cell ++ back := by
  have count : limit - front.length = old.length := by omega
  rw [clear, count]
  exact storeAll_piece content _ (by simp)

/-! ## Loops over classes of cells -/

/-- A loop over classes of cells, each of which is rewritten from its own old content. -/
theorem foldl_classes {State Value Class : Type} [DecidableEq Class] {read : State → Nat → Value}
    {body : State → Class → State} {limit : Nat} (of : Nat → Class) (new : State → Nat → Value)
    {classes : List Class}
    (each : ∀ state kind, kind ∈ classes → ∀ cell, cell < limit →
      read (body state kind) cell = if of cell = kind then new state cell else read state cell)
    (depends : ∀ state other cell, cell < limit →
      (∀ near, near < limit → of near = of cell → read state near = read other near) →
        new state cell = new other cell)
    (once : classes.Nodup) (state : State) (cell : Nat) (inside : cell < limit) :
    read (classes.foldl body state) cell =
      if of cell ∈ classes then new state cell else read state cell := by
  induction classes generalizing state with
  | nil => rfl
  | cons kind rest induction =>
      have parts := List.nodup_cons.mp once
      have later := induction (fun state other member => each state other (by simp [member]))
        parts.2 (body state kind)
      have first := fun near (bound : near < limit) => each state kind (by simp) near bound
      rw [List.foldl_cons, later]
      by_cases member : of cell ∈ rest
      · -- The class comes later, and this step has left it alone.
        have other : of cell ≠ kind := fun equal => parts.1 (equal ▸ member)
        rw [if_pos member, if_pos (List.mem_cons_of_mem _ member)]
        apply depends _ _ _ inside
        intro near bound same
        rw [first near bound, if_neg (same ▸ other)]
      · rw [if_neg member, first cell inside]
        by_cases here : of cell = kind
        · rw [if_pos here, if_pos (by simp [here])]
        · rw [if_neg here, if_neg (by simp [here, member])]

/-- One step of a chain: a cell takes what the cell before it held. -/
def move {Cells Value Key Change : Type} (read : Cells → Key → Value)
    (write : Cells → Key → Value → Cells) (change : Value → Change → Value)
    (state : Cells × Value) (place : Key × Change) : Cells × Value :=
  (write state.1 place.1 (change state.2 place.2), read state.1 place.1)

section Chain

variable {Cells Value Key Change : Type} [DecidableEq Key] {read : Cells → Key → Value}
  {write : Cells → Key → Value → Cells} {inside : Key → Prop}

/-- A chain leaves the cells alone that it does not visit. -/
theorem foldl_move_other (change : Value → Change → Value)
    (readWrite : ∀ cells key value other, inside key →
      read (write cells key value) other = if other = key then value else read cells other)
    {places : List (Key × Change)} (valid : ∀ place ∈ places, inside place.1)
    (state : Cells × Value) (key : Key) (other : key ∉ places.map Prod.fst) :
    read (places.foldl (move read write change) state).1 key = read state.1 key := by
  induction places generalizing state with
  | nil => rfl
  | cons place rest induction =>
      rw [List.map_cons, List.mem_cons, not_or] at other
      rw [List.foldl_cons, induction (fun place member => valid place (by simp [member])) _
        other.2, move, readWrite _ _ _ _ (valid place (by simp)), if_neg other.1]

/-- Every cell of a chain ends with the changed old content of the cell before it. -/
theorem foldl_move (change : Value → Change → Value)
    (readWrite : ∀ cells key value other, inside key →
      read (write cells key value) other = if other = key then value else read cells other)
    {places : List (Key × Change)} (valid : ∀ place ∈ places, inside place.1)
    (once : (places.map Prod.fst).Nodup) (cells : Cells) (last : Value) {index : Nat}
    {place : Key × Change} {source : Value} (at_index : places[index]? = some place)
    (before : (last :: places.map fun place => read cells place.1)[index]? = some source) :
    read (places.foldl (move read write change) (cells, last)).1 place.1 =
      change source place.2 := by
  induction places generalizing cells last index with
  | nil => simp at at_index
  | cons first rest induction =>
      rw [List.map_cons, List.nodup_cons] at once
      have validRest : ∀ place ∈ rest, inside place.1 := fun place member =>
        valid place (by simp [member])
      have firstInside := valid first (by simp)
      rw [List.foldl_cons]
      rcases index with _ | index
      · -- The first cell is not visited again.
        have same : first = place := by simpa using at_index
        have value : last = source := by simpa using before
        subst same value
        rw [foldl_move_other change readWrite validRest _ _ once.1, move,
          readWrite _ _ _ _ firstInside,
          if_pos rfl]
      · apply induction validRest once.2 _ _ (by simpa using at_index)
        have untouched : rest.map (fun place => read (write cells first.1 (change last first.2))
            place.1) = rest.map fun place => read cells place.1 := by
          apply List.map_congr_left
          intro place member
          have different : place.1 ≠ first.1 := fun equal =>
            once.1 (equal ▸ List.mem_map_of_mem member)
          rw [readWrite _ _ _ _ firstInside, if_neg different]
        dsimp only [move]
        rw [untouched]
        simpa using before

end Chain

end Pmud.Foundation.Memory
