import Pmud.Storage.YamlStorage

/-! # The idempotence switch

The recursive calls do not hand the switch on, so that it is honoured by the
outermost map only.
-/

namespace Pmud.Storage

namespace Node

mutual

/-- The nodes below a node that are read, each before those below it. -/
def readBelow : Node → List Node
  | .sequence entries => readBelowNodes entries
  | .map entries => readBelowEntries entries
  | _ => []

def readBelowNodes : List Node → List Node
  | [] => []
  | entry :: rest =>
      (entry :: entry.readBelow) ++ if entry.scalarKeys then readBelowNodes rest else []

def readBelowEntries : List (Option ByteString × Node) → List Node
  | [] => []
  | (none, _) :: _ => []
  | (some _, entry) :: rest =>
      (entry :: entry.readBelow) ++ if entry.scalarKeys then readBelowEntries rest else []

end

theorem readBelow_sequence (entries : List Node) :
    (Node.sequence entries).readBelow =
      (readNodes entries).flatMap fun entry => entry :: entry.readBelow := by
  show readBelowNodes entries = _
  induction entries with
  | nil => rfl
  | cons entry rest induction =>
      rw [readBelowNodes, readNodes, List.flatMap_cons, induction]
      split
      · rfl
      · rfl

theorem readBelow_map (entries : List (Option ByteString × Node)) :
    (Node.map entries).readBelow =
      (readEntries entries).flatMap fun entry => entry.2 :: entry.2.readBelow := by
  show readBelowEntries entries = _
  induction entries with
  | nil => rfl
  | cons entry rest induction =>
      rcases entry with ⟨key, entry⟩
      cases key with
      | none => rfl
      | some key =>
          rw [readBelowEntries, readEntries, List.flatMap_cons, induction]
          split
          · rfl
          · rfl

theorem mem_of_mem_readNodes {entries : List Node} {entry : Node}
    (read : entry ∈ readNodes entries) : entry ∈ entries := by
  induction entries with
  | nil => cases read
  | cons first rest induction =>
      rw [readNodes, List.mem_cons] at read
      rcases read with rfl | later
      · exact List.mem_cons_self
      · split at later
        · exact List.mem_cons_of_mem _ (induction later)
        · cases later

end Node

/-- A key is deleted. -/
def Deletes (calls : List StorageCall) : Prop := ∃ key, .delKey key ∈ calls

/-- All that is read of a map are scalars. -/
def ScalarEntries (node : Node) : Prop :=
  ∀ entries, node = .map entries → ∀ entry ∈ Node.readEntries entries, entry.2.isScalar = true

theorem deletes_flatMap {α : Type} (items : List α) (calls : α → List StorageCall) :
    Deletes (items.flatMap calls) ↔ ∃ item ∈ items, Deletes (calls item) := by
  unfold Deletes
  simp only [List.mem_flatMap]
  constructor
  · intro found
    rcases found with ⟨key, item, member, inside⟩
    exact ⟨item, member, key, inside⟩
  · intro found
    rcases found with ⟨item, member, key, inside⟩
    exact ⟨key, item, member, inside⟩

/-- The calls for one entry, when the switch is off or has been lost. -/
theorem deletes_mapCalls (path key : ByteString) (idempotence : Bool) (entry : Node) :
    Deletes (mapCalls path idempotence key entry) ↔
      entry.isScalar = false ∧ (idempotence = true ∨
        Deletes (yamlToStorage (newPath path key) true entry).calls) := by
  cases entry with
  | scalar value => simp [Deletes, mapCalls, Node.isScalar]
  | _ =>
      cases idempotence with
      | false => simp [Deletes, mapCalls, Node.isScalar]
      | true => simp [Deletes, mapCalls, Node.isScalar]

theorem deletes_sequenceCalls (path : ByteString) (entry : Node) :
    Deletes (sequenceCalls path entry) ↔
      Deletes (yamlToStorage path true entry).calls := by
  cases entry with
  | scalar value => simp [Deletes, sequenceCalls, yamlToStorage, Loading.call]
  | _ => rfl

/-- The node and all that is read below it are without entries that are not
scalars, as far as they are maps. -/
def Flat (node : Node) : Prop := ∀ met ∈ node :: node.readBelow, ScalarEntries met

theorem scalarEntries_of_not_map {node : Node} (other : ∀ entries, node ≠ .map entries) :
    ScalarEntries node :=
  fun entries same => absurd same (other entries)

/-- Nothing is read below a node that is neither a sequence nor a map. -/
theorem flat_of_leaf {node : Node} (other : ∀ entries, node ≠ .map entries)
    (leaf : node.readBelow = []) : Flat node := by
  unfold Flat
  rw [leaf, List.forall_mem_singleton]
  exact scalarEntries_of_not_map other

theorem flat_of_isScalar {node : Node} (scalar : node.isScalar = true) : Flat node := by
  cases node with
  | scalar value => exact flat_of_leaf (by simp) rfl
  | _ => cases scalar

theorem flat_sequence (entries : List Node) :
    Flat (.sequence entries) ↔ ∀ entry ∈ Node.readNodes entries, Flat entry := by
  unfold Flat
  rw [List.forall_mem_cons, Node.readBelow_sequence, List.forall_mem_flatMap]
  exact and_iff_right (scalarEntries_of_not_map (by simp))

/-- The scalar entries of a map are themselves flat. -/
theorem flat_map (entries : List (Option ByteString × Node)) :
    Flat (.map entries) ↔ ∀ entry ∈ Node.readEntries entries, entry.2.isScalar = true := by
  constructor
  · intro flat
    exact flat _ List.mem_cons_self entries rfl
  · intro scalars
    unfold Flat
    rw [List.forall_mem_cons, Node.readBelow_map, List.forall_mem_flatMap]
    constructor
    · intro others same
      cases same
      exact scalars
    · exact fun entry member => flat_of_isScalar (scalars entry member)

/-- With the switch on, a load deletes nothing when it meets no map with an entry
that is not a scalar. -/
theorem not_deletes_iff_flat (node : Node) : ∀ path,
    ¬ Deletes (yamlToStorage path true node).calls ↔ Flat node := by
  have leaf : ∀ {node : Node} {calls : List StorageCall}, (∀ entries, node ≠ .map entries) →
      node.readBelow = [] → (∀ key, .delKey key ∉ calls) → (¬ Deletes calls ↔ Flat node) := by
    intro node calls other bare quiet
    exact iff_of_true (not_exists.mpr quiet) (flat_of_leaf other bare)
  induction node using Node.induction with
  | undefined =>
      exact fun path => leaf (by simp) rfl
        fun key => List.not_mem_nil
  | null =>
      exact fun path => leaf (by simp) rfl
        fun key => List.not_mem_nil
  | scalar value =>
      intro path
      have quiet : ∀ key, .delKey key ∉ (yamlToStorage path true (.scalar value)).calls := by
        intro key member
        cases List.mem_singleton.mp member
      exact leaf (by simp) rfl quiet
  | sequence entries induction =>
      intro path
      rw [calls_sequence, deletes_flatMap, flat_sequence]
      simp only [deletes_sequenceCalls, not_exists, not_and]
      constructor
      · intro quiet entry read
        exact (induction entry (Node.mem_of_mem_readNodes read) path).mp (quiet entry read)
      · intro flat entry read
        exact (induction entry (Node.mem_of_mem_readNodes read) path).mpr (flat entry read)
  | map entries induction =>
      intro path
      rw [calls_map, deletes_flatMap, flat_map]
      simp [deletes_mapCalls]

/-- With the switch off, the same holds of the nodes below the outermost one. -/
theorem not_deletes_iff_scalarEntries (path : ByteString) (node : Node) :
    ¬ Deletes (yamlToStorage path false node).calls ↔
      ∀ met ∈ node.readBelow, ScalarEntries met := by
  have leaf : ∀ {calls : List StorageCall}, (∀ key, .delKey key ∉ calls) →
      (¬ Deletes calls ↔ ∀ met ∈ ([] : List Node), ScalarEntries met) :=
    fun quiet => iff_of_true (not_exists.mpr quiet) (List.forall_mem_nil _)
  cases node with
  | undefined => exact leaf fun key => List.not_mem_nil
  | null => exact leaf fun key => List.not_mem_nil
  | scalar value =>
      apply leaf
      intro key member
      cases List.mem_singleton.mp member
  | sequence entries =>
      rw [calls_sequence, deletes_flatMap, Node.readBelow_sequence, List.forall_mem_flatMap]
      simp only [deletes_sequenceCalls, not_exists, not_and]
      exact forall₂_congr fun entry read => not_deletes_iff_flat entry path
  | map entries =>
      rw [calls_map, deletes_flatMap, Node.readBelow_map, List.forall_mem_flatMap]
      simp only [deletes_mapCalls, not_exists, not_and]
      apply forall₂_congr
      intro entry read
      constructor
      · intro quiet
        by_cases scalar : entry.2.isScalar = true
        · exact flat_of_isScalar scalar
        · apply (not_deletes_iff_flat entry.2 (newPath path entry.1)).mp
          exact fun deletes => quiet (by simpa using scalar) (.inr deletes)
      · intro flat different either
        rcases either with switch | deletes
        · cases switch
        · exact (not_deletes_iff_flat entry.2 (newPath path entry.1)).mpr flat deletes

/-- The switch is honoured at every depth: switched off, no key is deleted. -/
def HonoursSwitch (path : ByteString) (node : Node) : Prop :=
  ∀ key, .delKey key ∉ (yamlToStorage path false node).calls

theorem honoursSwitch_iff (path : ByteString) (node : Node) :
    HonoursSwitch path node ↔
      ∀ entries, .map entries ∈ node.readBelow →
        ∀ entry ∈ Node.readEntries entries, entry.2.isScalar = true := by
  have quiet : HonoursSwitch path node ↔ ¬ Deletes (yamlToStorage path false node).calls := by
    simp [HonoursSwitch, Deletes]
  rw [quiet, not_deletes_iff_scalarEntries]
  constructor
  · intro scalars entries member
    exact scalars _ member entries rfl
  · intro scalars met member entries same
    subst same
    exact scalars entries member

/-- A map in a map in a map. -/
theorem not_honoursSwitch_of_nested :
    ¬ HonoursSwitch (text "p")
      (.map [(some (text "a"), .map [(some (text "b"), .map [(some (text "c"),
        .scalar (text "x"))])])]) := by
  intro honours
  exact honours (text "p:a:b") (by decide)

end Pmud.Storage
