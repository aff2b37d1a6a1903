import Pmud.Foundation.Lists
import Pmud.Storage.YamlStorage

/-! # Where a document is stored

Every entry of a map that is not a scalar is visited under a path of its own.
What is stored under that path are the scalars of the entry itself.
-/

namespace Pmud.Storage

open Foundation

/-- An entry that is not a scalar, with its path and whether the path is deleted
before it is loaded. -/
structure Visit where
  path : ByteString
  deleted : Bool
  node : Node

/-- The entries of a map with the keys that are scalars. -/
def keyed (entries : List (Option ByteString × Node)) : List (ByteString × Node) :=
  entries.filterMap fun entry => entry.1.map fun key => (key, entry.2)

mutual

/-- The visits below a node, in the order they are made. -/
def visits (path : ByteString) (idempotence : Bool) : Node → List Visit
  | .sequence entries => visitsOfNodes path entries
  | .map entries => visitsOfEntries path idempotence entries
  | _ => []

def visitsOfNodes (path : ByteString) : List Node → List Visit
  | [] => []
  | entry :: rest => visits path true entry ++ visitsOfNodes path rest

def visitsOfEntries (path : ByteString) (idempotence : Bool) :
    List (Option ByteString × Node) → List Visit
  | [] => []
  | (none, _) :: rest => visitsOfEntries path idempotence rest
  | (some key, entry) :: rest =>
      (if entry.isScalar then []
        else { path := newPath path key, deleted := idempotence, node := entry } ::
          visits (newPath path key) true entry) ++
        visitsOfEntries path idempotence rest

end

def mapStores (path key : ByteString) : Node → List StorageCall
  | .scalar value => [.mapStore path key value]
  | _ => []

mutual

/-- What is stored of a node under its own path. -/
def directStores (path : ByteString) : Node → List StorageCall
  | .scalar value => [.valueStore path value]
  | .sequence entries => storesOfNodes path entries
  | .map entries => (keyed entries).flatMap fun entry => mapStores path entry.1 entry.2
  | _ => []

def storesOfNodes (path : ByteString) : List Node → List StorageCall
  | [] => []
  | entry :: rest =>
      (match entry with
        | .scalar value => [.setStore path value]
        | _ => directStores path entry) ++ storesOfNodes path rest

end

def sequenceStores (path : ByteString) : Node → List StorageCall
  | .scalar value => [.setStore path value]
  | entry => directStores path entry

def entryVisits (path : ByteString) (idempotence : Bool) (key : ByteString) (entry : Node) :
    List Visit :=
  if entry.isScalar then []
  else { path := newPath path key, deleted := idempotence, node := entry } ::
    visits (newPath path key) true entry

section Equations

variable (path : ByteString) (idempotence : Bool)

theorem visits_sequence (entries : List Node) :
    visits path idempotence (.sequence entries) = entries.flatMap (visits path true) := by
  show visitsOfNodes path entries = _
  induction entries with
  | nil => rfl
  | cons entry rest induction => rw [visitsOfNodes, induction, List.flatMap_cons]

theorem visits_map (entries : List (Option ByteString × Node)) :
    visits path idempotence (.map entries) =
      (keyed entries).flatMap fun entry => entryVisits path idempotence entry.1 entry.2 := by
  show visitsOfEntries path idempotence entries = _
  induction entries with
  | nil => rfl
  | cons entry rest induction =>
      rcases entry with ⟨key, entry⟩
      cases key with
      | none => exact induction
      | some key =>
          rw [visitsOfEntries, induction]
          rfl

theorem directStores_sequence (entries : List Node) :
    directStores path (.sequence entries) = entries.flatMap (sequenceStores path) := by
  show storesOfNodes path entries = _
  induction entries with
  | nil => rfl
  | cons entry rest induction =>
      rw [List.flatMap_cons, ← induction]
      cases entry with
      | _ => rfl

theorem directStores_map (entries : List (Option ByteString × Node)) :
    directStores path (.map entries) =
      (keyed entries).flatMap fun entry => mapStores path entry.1 entry.2 := by
  rw [directStores]

end Equations

/-! ## Documents whose keys are scalars -/

theorem readNodes_of_scalarKeys {entries : List Node}
    (scalar : (Node.sequence entries).scalarKeys = true) :
    Node.readNodes entries = entries ∧ ∀ entry ∈ entries, entry.scalarKeys = true := by
  have keys : Node.scalarKeysOfNodes entries = true := scalar
  induction entries with
  | nil => exact ⟨rfl, nofun⟩
  | cons entry rest induction =>
      rw [Node.scalarKeysOfNodes, Bool.and_eq_true] at keys
      rcases keys with ⟨here, later⟩
      rcases induction later later with ⟨read, below⟩
      rw [Node.readNodes, if_pos here, read]
      exact ⟨rfl, List.forall_mem_cons.mpr ⟨here, below⟩⟩

theorem readEntries_of_scalarKeys {entries : List (Option ByteString × Node)}
    (scalar : (Node.map entries).scalarKeys = true) :
    Node.readEntries entries = keyed entries ∧
      ∀ entry ∈ entries, entry.2.scalarKeys = true := by
  have keys : Node.scalarKeysOfEntries entries = true := scalar
  induction entries with
  | nil => exact ⟨rfl, nofun⟩
  | cons entry rest induction =>
      rcases entry with ⟨key, entry⟩
      rw [Node.scalarKeysOfEntries, Bool.and_eq_true, Bool.and_eq_true] at keys
      rcases keys with ⟨⟨named, here⟩, later⟩
      rcases induction later later with ⟨read, below⟩
      cases key with
      | none => cases named
      | some key =>
          rw [Node.readEntries, if_pos here, read]
          exact ⟨rfl, List.forall_mem_cons.mpr ⟨here, below⟩⟩

theorem mem_of_mem_keyed {entries : List (Option ByteString × Node)}
    {entry : ByteString × Node} (member : entry ∈ keyed entries) :
    (some entry.1, entry.2) ∈ entries := by
  rcases List.mem_filterMap.mp member with ⟨⟨key, node⟩, inside, equal⟩
  rcases Option.map_eq_some_iff.mp equal with ⟨found, rfl, rfl⟩
  exact inside

/-- An induction over the entries that are loaded. -/
theorem Node.keyedInduction {motive : (node : Node) → node.scalarKeys = true → Prop}
    (undefined : motive .undefined rfl) (null : motive .null rfl)
    (scalar : ∀ value, motive (.scalar value) rfl)
    (sequence : ∀ entries keys (below : ∀ entry ∈ entries, entry.scalarKeys = true),
      Node.readNodes entries = entries →
      (∀ entry (member : entry ∈ entries), motive entry (below entry member)) →
        motive (.sequence entries) keys)
    (map : ∀ entries keys (below : ∀ entry ∈ keyed entries, entry.2.scalarKeys = true),
      Node.readEntries entries = keyed entries →
      (∀ entry (member : entry ∈ keyed entries), motive entry.2 (below entry member)) →
        motive (.map entries) keys)
    (node : Node) (keys : node.scalarKeys = true) : motive node keys := by
  induction node using Node.induction with
  | undefined => exact undefined
  | null => exact null
  | scalar value => exact scalar value
  | sequence entries induction =>
      rcases readNodes_of_scalarKeys keys with ⟨read, below⟩
      exact sequence entries keys below read fun entry member =>
        induction entry member (below entry member)
  | map entries induction =>
      rcases readEntries_of_scalarKeys keys with ⟨read, below⟩
      have inside : ∀ entry ∈ keyed entries, (some entry.1, entry.2) ∈ entries :=
        fun entry member => mem_of_mem_keyed member
      exact map entries keys (fun entry member => below _ (inside entry member)) read
        fun entry member => induction _ (inside entry member) (below _ (inside entry member))

/-! ## The calls for one path -/

namespace Visit

def calls (visit : Visit) : List StorageCall :=
  (if visit.deleted then [.delKey visit.path] else []) ++ directStores visit.path visit.node

end Visit

section Names

theorem mapStores_name {path key : ByteString} {entry : Node} {made : StorageCall}
    (member : made ∈ mapStores path key entry) :
    made.name = path ∧ made.isStore = true := by
  cases entry with
  | scalar value =>
      rw [List.mem_singleton.mp member]
      exact ⟨rfl, rfl⟩
  | _ => cases member

/-- What is stored of a node is stored under its path. -/
theorem directStores_name (path : ByteString) (node : Node) :
    ∀ made ∈ directStores path node, made.name = path ∧ made.isStore = true := by
  induction node using Node.induction with
  | undefined => simp [directStores]
  | null => simp [directStores]
  | scalar value => simp [directStores, StorageCall.name, StorageCall.isStore]
  | sequence entries induction =>
      rw [directStores_sequence, List.forall_mem_flatMap]
      intro entry member
      cases entry with
      | scalar value => simp [sequenceStores, StorageCall.name, StorageCall.isStore]
      | _ => exact induction _ member
  | map entries induction =>
      rw [directStores_map, List.forall_mem_flatMap]
      exact fun entry member made inside => mapStores_name inside

theorem mem_visits_map {path : ByteString} {idempotence : Bool}
    {entries : List (Option ByteString × Node)} {visit : Visit} :
    visit ∈ visits path idempotence (.map entries) ↔
      ∃ entry ∈ keyed entries, entry.2.isScalar = false ∧
        (visit = { path := newPath path entry.1, deleted := idempotence, node := entry.2 } ∨
          visit ∈ visits (newPath path entry.1) true entry.2) := by
  rw [visits_map, List.mem_flatMap]
  apply exists_congr
  intro entry
  apply and_congr_right
  intro member
  unfold entryVisits
  split
  · next scalar => simp [scalar]
  · next notScalar => simp [notScalar]

/-- Induction over the way to a visit. -/
theorem visitsInduction {motive : ByteString → Bool → Node → Visit → Prop}
    (item : ∀ path idempotence entries, ∀ entry ∈ entries, ∀ visit,
      motive path true entry visit → motive path idempotence (.sequence entries) visit)
    (here : ∀ path idempotence entries, ∀ entry ∈ keyed entries, entry.2.isScalar = false →
      motive path idempotence (.map entries)
        { path := newPath path entry.1, deleted := idempotence, node := entry.2 })
    (below : ∀ path idempotence entries, ∀ entry ∈ keyed entries, entry.2.isScalar = false →
      ∀ visit, motive (newPath path entry.1) true entry.2 visit →
        motive path idempotence (.map entries) visit)
    (node : Node) : ∀ path idempotence, ∀ visit ∈ visits path idempotence node,
      motive path idempotence node visit := by
  induction node using Node.induction with
  | undefined => exact fun path idempotence visit member => absurd member List.not_mem_nil
  | null => exact fun path idempotence visit member => absurd member List.not_mem_nil
  | scalar value => exact fun path idempotence visit member => absurd member List.not_mem_nil
  | sequence entries induction =>
      intro path idempotence
      rw [visits_sequence, List.forall_mem_flatMap]
      intro entry member visit inside
      apply item path idempotence entries entry member visit
      exact induction entry member path true visit inside
  | map entries induction =>
      intro path idempotence visit inside
      rcases mem_visits_map.mp inside with ⟨entry, member, notScalar, rfl | deeper⟩
      · exact here path idempotence entries entry member notScalar
      · exact below path idempotence entries entry member notScalar visit
          (induction _ (mem_of_mem_keyed member) (newPath path entry.1) true visit deeper)

/-- Paths get longer on the way down. -/
theorem path_of_visits : ∀ node path idempotence, ∀ visit ∈ visits path idempotence node,
    ∃ rest, visit.path = path ++ 58 :: rest := by
  apply visitsInduction
  · exact fun path idempotence entries entry member visit longer => longer
  · intro path idempotence entries entry member notScalar
    exact ⟨replaceUnderscores entry.1, List.append_assoc path _ _⟩
  · intro path idempotence entries entry member notScalar visit longer
    rcases longer with ⟨rest, same⟩
    refine ⟨replaceUnderscores entry.1 ++ 58 :: rest, same.trans ?_⟩
    rw [newPath, List.append_assoc, List.append_assoc]
    rfl

/-- A path does not come back below itself. -/
theorem ne_of_visits {path : ByteString} {idempotence : Bool} {node : Node} {visit : Visit}
    (member : visit ∈ visits path idempotence node) : visit.path ≠ path := by
  intro same
  rcases path_of_visits node path idempotence visit member with ⟨rest, longer⟩
  rw [same, List.self_eq_append_right] at longer
  cases longer

/-- With the switch on, every path is deleted before it is loaded. -/
theorem deleted_of_visits (node : Node) (path : ByteString) :
    ∀ visit ∈ visits path true node,
      visit.deleted = true ∧ visit.node.isScalar = false := by
  intro visit member
  apply visitsInduction (motive := fun _ idempotence _ visit =>
    idempotence = true → visit.deleted = true ∧ visit.node.isScalar = false) _ _ _
    node path true visit member rfl
  · exact fun path idempotence entries entry member visit deleted _ => deleted rfl
  · exact fun path idempotence entries entry member notScalar switch => ⟨switch, notScalar⟩
  · exact fun path idempotence entries entry member notScalar visit deleted _ => deleted rfl

end Names

section Chosen

variable (chosen : ByteString → Bool)

def chosenCalls (calls : List StorageCall) : List StorageCall :=
  calls.filter fun made => chosen made.name

def chosenVisits (made : List Visit) : List Visit :=
  made.filter fun visit => chosen visit.path

theorem chosenCalls_of_name (path : ByteString) {calls : List StorageCall}
    (named : ∀ made ∈ calls, made.name = path) :
    chosenCalls chosen calls = if chosen path then calls else [] := by
  unfold chosenCalls
  split
  · next isChosen =>
    rw [List.filter_eq_self]
    intro made member
    rw [named made member, isChosen]
  · next notChosen =>
    rw [List.filter_eq_nil_iff]
    intro made member
    rw [named made member]
    exact notChosen

theorem chosenCalls_append (first later : List StorageCall) :
    chosenCalls chosen (first ++ later) = chosenCalls chosen first ++ chosenCalls chosen later :=
  List.filter_append ..

theorem chosenCalls_flatMap {α : Type} (items : List α) (calls : α → List StorageCall) :
    chosenCalls chosen (items.flatMap calls) =
      items.flatMap fun item => chosenCalls chosen (calls item) :=
  List.filter_flatMap

theorem chosenVisits_flatMap {α : Type} (items : List α) (made : α → List Visit) :
    chosenVisits chosen (items.flatMap made) =
      items.flatMap fun item => chosenVisits chosen (made item) :=
  List.filter_flatMap

theorem entryVisits_of_not_scalar {path key : ByteString} {idempotence : Bool} {entry : Node}
    (other : entry.isScalar = false) :
    entryVisits path idempotence key entry =
      { path := newPath path key, deleted := idempotence, node := entry } ::
        visits (newPath path key) true entry := by
  rw [entryVisits, if_neg (by simp [other])]

theorem chosenVisits_cons (visit : Visit) (rest : List Visit) :
    chosenVisits chosen (visit :: rest) =
      (if chosen visit.path then [visit] else []) ++ chosenVisits chosen rest := by
  unfold chosenVisits
  rw [List.filter_cons]
  split
  · rfl
  · rfl

/-- The calls for an entry that is visited. -/
theorem chosenCalls_of_visit {path key : ByteString} (idempotence : Bool) {entry : Node}
    (other : entry.isScalar = false) :
    chosenCalls chosen (mapCalls path idempotence key entry) =
      (if chosen (newPath path key) then
        if idempotence then [.delKey (newPath path key)] else [] else []) ++
        chosenCalls chosen (yamlToStorage (newPath path key) true entry).calls := by
  have calls : mapCalls path idempotence key entry =
      (if idempotence then [.delKey (newPath path key)] else []) ++
        (yamlToStorage (newPath path key) true entry).calls := by
    cases entry with
    | scalar value => cases other
    | _ => rfl
  rw [calls, chosenCalls_append, chosenCalls_of_name chosen (newPath path key)]
  intro made member
  split at member
  · rw [List.mem_singleton.mp member]
    rfl
  · cases member

theorem mapStores_of_not_scalar {path key : ByteString} {entry : Node}
    (other : entry.isScalar = false) : mapStores path key entry = [] := by
  cases entry with
  | scalar value => cases other
  | _ => rfl

theorem chosenCalls_of_scalar (path key : ByteString) (idempotence : Bool) {entry : Node}
    (scalar : entry.isScalar = true) :
    chosenCalls chosen (mapCalls path idempotence key entry) =
      if chosen path then mapStores path key entry else [] := by
  cases entry with
  | scalar value =>
      exact chosenCalls_of_name chosen path (by simp [mapCalls, StorageCall.name])
  | _ => cases scalar

/-- Below a node with chosen stores of its own there is no chosen path. -/
def Visit.Separate (visit : Visit) : Prop :=
  chosen visit.path = true → directStores visit.path visit.node = [] ∨
    chosenVisits chosen (visits visit.path true visit.node) = []

theorem chosenVisits_switch (path : ByteString) (idempotence : Bool) (node : Node) :
    chosenVisits chosen (visits path idempotence node) = [] ↔
      chosenVisits chosen (visits path true node) = [] := by
  cases node with
  | map entries =>
      rw [visits_map, visits_map, chosenVisits_flatMap, chosenVisits_flatMap,
        List.flatMap_eq_nil_iff, List.flatMap_eq_nil_iff]
      apply forall₂_congr
      intro entry member
      unfold entryVisits chosenVisits
      split
      · rfl
      · by_cases isChosen : chosen (newPath path entry.1) = true
        · simp [isChosen]
        · simp [isChosen]
  | _ => rfl

/-- Where no path below is chosen, the chosen calls are the stores of the node
itself. -/
theorem chosenCalls_of_apart (node : Node) (keys : node.scalarKeys = true) :
    ∀ path idempotence, chosenVisits chosen (visits path idempotence node) = [] →
      chosenCalls chosen (yamlToStorage path idempotence node).calls =
        if chosen path then directStores path node else [] := by
  induction node, keys using Node.keyedInduction with
  | undefined => exact fun path idempotence apart => (ite_self _).symm
  | null => exact fun path idempotence apart => (ite_self _).symm
  | scalar value =>
      intro path idempotence apart
      apply chosenCalls_of_name chosen path
      simp [yamlToStorage, Loading.call, StorageCall.name]
  | sequence entries keys below read induction =>
      intro path idempotence apart
      rw [visits_sequence, chosenVisits_flatMap, List.flatMap_eq_nil_iff] at apart
      rw [calls_sequence, read, chosenCalls_flatMap, directStores_sequence]
      have each : ∀ entry ∈ entries, chosenCalls chosen (sequenceCalls path entry) =
          if chosen path then sequenceStores path entry else [] := by
        intro entry member
        cases entry with
        | scalar value =>
            exact chosenCalls_of_name chosen path (by simp [sequenceCalls, StorageCall.name])
        | _ => exact induction _ member path true (apart _ member)
      rw [List.flatMap_congr each]
      split
      · rfl
      · simp
  | map entries keys below read induction =>
      intro path idempotence apart
      rw [visits_map, chosenVisits_flatMap, List.flatMap_eq_nil_iff] at apart
      rw [calls_map, read, chosenCalls_flatMap, directStores_map]
      have each : ∀ entry ∈ keyed entries,
          chosenCalls chosen (mapCalls path idempotence entry.1 entry.2) =
            if chosen path then mapStores path entry.1 entry.2 else [] := by
        intro entry member
        cases scalar : entry.2.isScalar with
        | true => exact chosenCalls_of_scalar chosen path entry.1 idempotence scalar
        | false =>
            have none := apart entry member
            rw [entryVisits_of_not_scalar scalar, chosenVisits_cons,
              List.append_eq_nil_iff] at none
            have unchosen : ¬ chosen (newPath path entry.1) = true := by
              intro isChosen
              simp [isChosen] at none
            rw [chosenCalls_of_visit chosen idempotence scalar,
              induction entry member _ true none.2, mapStores_of_not_scalar scalar]
            simp [unchosen]
      rw [List.flatMap_congr each]
      split
      · rfl
      · simp

/-- Where the chosen stores are separate, the chosen calls are those of the chosen
visits. -/
theorem chosenCalls_of_separate (node : Node) (keys : node.scalarKeys = true) :
    ∀ path idempotence, (chosen path = true → directStores path node = []) →
      (∀ visit ∈ visits path idempotence node, visit.Separate chosen) →
        chosenCalls chosen (yamlToStorage path idempotence node).calls =
          (chosenVisits chosen (visits path idempotence node)).flatMap Visit.calls := by
  induction node, keys using Node.keyedInduction with
  | undefined => exact fun path idempotence bare separate => rfl
  | null => exact fun path idempotence bare separate => rfl
  | scalar value =>
      intro path idempotence bare separate
      have unchosen : ¬ chosen path = true := fun isChosen => by
        simpa [directStores] using bare isChosen
      rw [chosenCalls_of_name chosen path]
      · rw [if_neg unchosen]
        rfl
      · simp [yamlToStorage, Loading.call, StorageCall.name]
  | sequence entries keys below read induction =>
      intro path idempotence bare separate
      rw [visits_sequence, List.forall_mem_flatMap] at separate
      rw [calls_sequence, read, visits_sequence, chosenCalls_flatMap, chosenVisits_flatMap,
        List.flatMap_assoc]
      rw [directStores_sequence, List.flatMap_eq_nil_iff] at bare
      apply List.flatMap_congr
      intro entry member
      cases entry with
      | scalar value =>
          have unchosen : ¬ chosen path = true := fun isChosen => by
            simpa [sequenceStores] using bare isChosen _ member
          rw [chosenCalls_of_name chosen path]
          · rw [if_neg unchosen]
            rfl
          · simp [sequenceCalls, StorageCall.name]
      | _ =>
          exact induction _ member path true (fun isChosen => bare isChosen _ member)
            (separate _ member)
  | map entries keys below read induction =>
      intro path idempotence bare separate
      rw [visits_map, List.forall_mem_flatMap] at separate
      rw [calls_map, read, visits_map, chosenCalls_flatMap, chosenVisits_flatMap,
        List.flatMap_assoc]
      rw [directStores_map, List.flatMap_eq_nil_iff] at bare
      apply List.flatMap_congr
      intro entry member
      have here := separate entry member
      cases scalar : entry.2.isScalar with
      | true =>
          rw [chosenCalls_of_scalar chosen path entry.1 idempotence scalar, entryVisits,
            if_pos scalar]
          split
          · next isChosen => exact bare isChosen entry member
          · rfl
      | false =>
          rw [entryVisits_of_not_scalar scalar] at here ⊢
          rw [List.forall_mem_cons] at here
          rw [chosenCalls_of_visit chosen idempotence scalar, chosenVisits_cons,
            List.flatMap_append]
          by_cases isChosen : chosen (newPath path entry.1) = true
          · rcases here.1 isChosen with bare | apart
            · rw [induction entry member _ true (fun _ => bare) here.2]
              simp [isChosen, Visit.calls, bare]
            · have own := chosenCalls_of_apart chosen entry.2 (below entry member) _ true apart
              rw [own, apart]
              simp [isChosen, Visit.calls]
          · rw [induction entry member _ true (fun other => absurd other isChosen) here.2]
            simp [isChosen]

/-- The node itself and the visits below it. -/
def places (path : ByteString) (idempotence : Bool) (node : Node) : List Visit :=
  { path := path, deleted := false, node := node } :: visits path idempotence node

theorem chosenCalls_eq (path : ByteString) (idempotence : Bool) {node : Node}
    (keys : node.scalarKeys = true)
    (separate : ∀ visit ∈ places path idempotence node, visit.Separate chosen) :
    chosenCalls chosen (yamlToStorage path idempotence node).calls =
      (chosenVisits chosen (places path idempotence node)).flatMap Visit.calls := by
  rw [places, List.forall_mem_cons] at separate
  rcases separate with ⟨here, later⟩
  rw [places, chosenVisits_cons, List.flatMap_append]
  by_cases isChosen : chosen path = true
  · rcases here isChosen with bare | apart
    · rw [chosenCalls_of_separate chosen node keys path idempotence (fun _ => bare) later]
      simp [isChosen, Visit.calls, bare]
    · rw [← chosenVisits_switch chosen path idempotence] at apart
      rw [chosenCalls_of_apart chosen node keys path idempotence apart, apart]
      simp [isChosen, Visit.calls]
  · rw [chosenCalls_of_separate chosen node keys path idempotence
      (fun other => absurd other isChosen) later]
    simp [isChosen]

end Chosen

/-- The calls for one path are the visits to it one after the other. -/
theorem calls_at (path : ByteString) (idempotence : Bool) {node : Node}
    (keys : node.scalarKeys = true) (place : ByteString) :
    (yamlToStorage path idempotence node).calls.filter (fun made => made.name = place) =
      ((places path idempotence node).filter fun visit => visit.path = place).flatMap
        Visit.calls := by
  apply chosenCalls_eq (fun name => name = place) path idempotence keys
  intro visit member here
  right
  rw [decide_eq_true_eq] at here
  rw [chosenVisits, List.filter_eq_nil_iff]
  intro later below same
  exact ne_of_visits below ((of_decide_eq_true same).trans here.symm)

end Pmud.Storage
