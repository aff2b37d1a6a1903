import Pmud.Foundation.CellStore
import Pmud.Storage.Storage

/-! # Filling maps and sets

A map is a store of cells itself, and an insertion is a command for one of them.
-/

namespace Pmud.Storage

open Foundation

def MapType.putAll (map : MapType) (fields : List (ByteString × ByteString)) : MapType :=
  fields.foldl (fun map field => map.insert field.1 field.2) map

def SetType.putAll (set : SetType) (members : List ByteString) : SetType :=
  members.foldl (fun set member => set.insert member) set

theorem getElem?_insert {α : Type} (map : Std.ExtTreeMap ByteString α) (key : ByteString)
    (value : α) (other : ByteString) :
    (map.insert key value)[other]? = if key = other then some value else map[other]? := by
  rw [Std.ExtTreeMap.getElem?_insert]
  simp only [Std.compare_eq_iff_eq]

namespace MapType

/-- An insertion as a command for the cell of its key. -/
def put (field : ByteString × ByteString) (_ : Option ByteString) : Option ByteString :=
  some field.2

theorem getElem?_putAll (map : MapType) (fields : List (ByteString × ByteString))
    (key : ByteString) :
    (map.putAll fields)[key]? =
      CellStore.effects put map[key]? (fields.filter fun field => field.1 = key) := by
  induction fields generalizing map with
  | nil => rfl
  | cons field rest induction =>
      show (MapType.putAll (map.insert field.1 field.2) rest)[key]? = _
      rw [induction, getElem?_insert, List.filter_cons]
      by_cases same : field.1 = key
      · simp [same, put]
      · simp [same]

/-- The last insertion counts. -/
theorem effects_put (cell : Option ByteString) {fields : List (ByteString × ByteString)}
    (filled : fields ≠ []) :
    ∃ field ∈ fields, CellStore.effects put cell fields = some field.2 := by
  induction fields generalizing cell with
  | nil => exact absurd rfl filled
  | cons field rest induction =>
      rw [CellStore.effects_cons]
      cases rest with
      | nil => exact ⟨field, List.mem_cons_self, rfl⟩
      | cons next later =>
          rcases induction (put field cell) (List.cons_ne_nil _ _) with ⟨last, member, holds⟩
          exact ⟨last, List.mem_cons_of_mem _ member, holds⟩

theorem putAll_putAll (map : MapType) (fields : List (ByteString × ByteString)) :
    (map.putAll fields).putAll fields = map.putAll fields := by
  apply Std.ExtTreeMap.ext_getElem?
  intro key
  rw [getElem?_putAll, getElem?_putAll]
  cases fields.filter fun field => field.1 = key with
  | nil => rfl
  | cons field rest =>
      exact CellStore.effects_of_reset put (fun _ _ => rfl) List.mem_cons_self _ _

/-- What a filled map holds comes from the fields. -/
theorem mem_of_getElem?_putAll {fields : List (ByteString × ByteString)}
    {key value : ByteString} (found : (MapType.putAll ∅ fields)[key]? = some value) :
    (key, value) ∈ fields := by
  rw [getElem?_putAll] at found
  by_cases none : (fields.filter fun field => field.1 = key) = []
  · rw [none] at found
    simp at found
  · rcases effects_put (∅ : MapType)[key]? none with ⟨field, member, last⟩
    rw [last, Option.some.injEq] at found
    rcases List.mem_filter.mp member with ⟨inside, same⟩
    rw [← found, ← of_decide_eq_true same]
    exact inside

/-- A field that is given one value only has it. -/
theorem getElem?_putAll_of_mem (map : MapType) {fields : List (ByteString × ByteString)}
    {key value : ByteString} (member : (key, value) ∈ fields)
    (only : ∀ other, (key, other) ∈ fields → other = value) :
    (map.putAll fields)[key]? = some value := by
  have mine : (key, value) ∈ fields.filter fun field => field.1 = key :=
    List.mem_filter.mpr ⟨member, by simp⟩
  rcases effects_put map[key]? (List.ne_nil_of_mem mine) with ⟨field, found, last⟩
  rcases List.mem_filter.mp found with ⟨inside, same⟩
  rw [getElem?_putAll, last, only field.2 (of_decide_eq_true same ▸ inside)]

/-- A map is filled with its own fields. -/
theorem putAll_toList (map : MapType) : MapType.putAll ∅ map.toList = map := by
  apply Std.ExtTreeMap.ext_getElem?
  intro key
  apply Option.ext
  intro value
  have listed : ∀ content, (key, content) ∈ map.toList ↔ map[key]? = some content :=
    fun content => Std.ExtTreeMap.mem_toList_iff_getElem?_eq_some
  constructor
  · exact fun found => (listed value).mp (mem_of_getElem?_putAll found)
  · intro member
    apply getElem?_putAll_of_mem ∅ ((listed value).mpr member)
    intro other also
    exact Option.some.inj (((listed other).mp also).symm.trans member)

end MapType

theorem SetType.mem_putAll (set : SetType) (members : List ByteString) (item : ByteString) :
    item ∈ set.putAll members ↔ item ∈ set ∨ item ∈ members := by
  induction members generalizing set with
  | nil => simp [SetType.putAll]
  | cons member rest induction =>
      show item ∈ SetType.putAll (set.insert member) rest ↔ _
      rw [induction, Std.ExtTreeSet.mem_insert, Std.compare_eq_iff_eq, List.mem_cons]
      constructor
      · intro cases
        rcases cases with (same | old) | later
        · exact .inr (.inl same.symm)
        · exact .inl old
        · exact .inr (.inr later)
      · intro cases
        rcases cases with old | same | later
        · exact .inl (.inr old)
        · exact .inl (.inl same.symm)
        · exact .inr later

theorem SetType.putAll_putAll (set : SetType) (members : List ByteString) :
    (set.putAll members).putAll members = set.putAll members := by
  apply Std.ExtTreeSet.ext_mem
  intro item
  rw [SetType.mem_putAll, SetType.mem_putAll]
  constructor
  · intro cases
    exact cases.elim id .inr
  · exact .inl

theorem SetType.putAll_toList (set : SetType) : SetType.putAll ∅ set.toList = set := by
  apply Std.ExtTreeSet.ext_mem
  intro item
  rw [SetType.mem_putAll, Std.ExtTreeSet.mem_toList]
  simp

end Pmud.Storage
