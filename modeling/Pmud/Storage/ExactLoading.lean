import Pmud.Storage.RedisLoading
import Pmud.Storage.YamlVisits

/-! # Exact loading

What a load leaves at every key, for documents in which the paths differ and no
string ends early.
-/

namespace Pmud.Storage

open Foundation

namespace Node

def isNull : Node → Bool
  | .null => true
  | _ => false

mutual

/-- The sequences hold scalars and nulls only. -/
def plainSequences : Node → Bool
  | .sequence entries => entries.all fun entry => entry.isScalar || entry.isNull
  | .map entries => plainSequencesOfEntries entries
  | _ => true

def plainSequencesOfEntries : List (Option ByteString × Node) → Bool
  | [] => true
  | (_, entry) :: rest => entry.plainSequences && plainSequencesOfEntries rest

end

mutual

/-- The keys and the scalars. -/
def strings : Node → List ByteString
  | .scalar value => [value]
  | .sequence entries => stringsOfNodes entries
  | .map entries => stringsOfEntries entries
  | _ => []

def stringsOfNodes : List Node → List ByteString
  | [] => []
  | entry :: rest => entry.strings ++ stringsOfNodes rest

def stringsOfEntries : List (Option ByteString × Node) → List ByteString
  | [] => []
  | (key, entry) :: rest => key.toList ++ entry.strings ++ stringsOfEntries rest

end

theorem plainSequences_map {entries : List (Option ByteString × Node)}
    (plain : (Node.map entries).plainSequences = true) :
    ∀ entry ∈ entries, entry.2.plainSequences = true := by
  have each : plainSequencesOfEntries entries = true := plain
  induction entries with
  | nil => exact fun entry member => absurd member List.not_mem_nil
  | cons entry rest induction =>
      rw [plainSequencesOfEntries, Bool.and_eq_true] at each
      exact List.forall_mem_cons.mpr ⟨each.1, induction each.2 each.2⟩

theorem strings_sequence (entries : List Node) :
    (Node.sequence entries).strings = entries.flatMap strings := by
  show stringsOfNodes entries = _
  induction entries with
  | nil => rfl
  | cons entry rest induction => rw [stringsOfNodes, induction, List.flatMap_cons]

theorem strings_map (entries : List (Option ByteString × Node)) :
    (Node.map entries).strings =
      entries.flatMap fun entry => entry.1.toList ++ entry.2.strings := by
  show stringsOfEntries entries = _
  induction entries with
  | nil => rfl
  | cons entry rest induction => rw [stringsOfEntries, induction, List.flatMap_cons]

def scalar? : Node → Option ByteString
  | .scalar value => some value
  | _ => none

end Node

/-- The scalar entries of a sequence. -/
def scalarsOf (entries : List Node) : List ByteString :=
  entries.filterMap Node.scalar?

/-- The scalar entries of a map. -/
def fieldsOf (entries : List (Option ByteString × Node)) : List (ByteString × ByteString) :=
  (keyed entries).filterMap fun entry => entry.2.scalar?.map fun value => (entry.1, value)

theorem directStores_of_plain (path : ByteString) {entries : List Node}
    (plain : (Node.sequence entries).plainSequences = true) :
    directStores path (.sequence entries) = (scalarsOf entries).map (.setStore path) := by
  have each : (entries.all fun entry => entry.isScalar || entry.isNull) = true := plain
  rw [List.all_eq_true] at each
  rw [directStores_sequence]
  induction entries with
  | nil => rfl
  | cons entry rest induction =>
      rw [List.forall_mem_cons] at each
      rw [List.flatMap_cons, induction (List.all_eq_true.mpr each.2) each.2]
      cases entry with
      | scalar value => rfl
      | null => rfl
      | _ => cases each.1

theorem directStores_fields (path : ByteString) (entries : List (Option ByteString × Node)) :
    directStores path (.map entries) =
      (fieldsOf entries).map fun field => .mapStore path field.1 field.2 := by
  rw [directStores_map, fieldsOf]
  induction keyed entries with
  | nil => rfl
  | cons entry rest induction =>
      rw [List.flatMap_cons, induction, List.filterMap_cons]
      rcases entry with ⟨key, entry⟩
      cases entry with
      | _ => rfl

/-- Below a sequence of scalars and nulls nothing is visited. -/
theorem plainSequences_of_visits : ∀ node path idempotence,
    ∀ visit ∈ visits path idempotence node,
      node.plainSequences = true → visit.node.plainSequences = true := by
  apply visitsInduction
  · intro path idempotence entries entry member visit below plain
    have each : (entries.all fun entry => entry.isScalar || entry.isNull) = true := plain
    have bare := List.all_eq_true.mp each entry member
    apply below
    cases entry with
    | sequence items => cases bare
    | map items => cases bare
    | _ => rfl
  · exact fun path idempotence entries entry member notScalar plain =>
      Node.plainSequences_map plain _ (mem_of_mem_keyed member)
  · exact fun path idempotence entries entry member notScalar visit below plain =>
      below (Node.plainSequences_map plain _ (mem_of_mem_keyed member))

/-! ## Calls without a NUL byte -/

namespace StorageCall

def strings : StorageCall → List ByteString
  | valueStore key value => [key, value]
  | mapStore mapName key value => [mapName, key, value]
  | setStore setName value => [setName, value]
  | delKey key => [key]

def NulFree (made : StorageCall) : Prop := ∀ string ∈ made.strings, Redis.NulFree string

theorem nulFree_name {made : StorageCall} (free : made.NulFree) : Redis.NulFree made.name := by
  cases made with
  | _ => exact free _ List.mem_cons_self

end StorageCall

theorem nulFree_newPath {path key : ByteString} (here : Redis.NulFree path)
    (below : Redis.NulFree key) : Redis.NulFree (newPath path key) := by
  rw [Redis.nulFree_iff] at here below ⊢
  simp only [newPath, replaceUnderscores, List.forall_mem_append, List.forall_mem_map]
  have colon : text ":" = [58] := rfl
  rw [colon, List.forall_mem_singleton]
  refine ⟨⟨here, by decide⟩, ?_⟩
  intro byte member
  split
  · decide
  · exact below byte member

/-- The strings of the calls come from the path and the document. -/
theorem nulFree_calls (node : Node) (keys : node.scalarKeys = true) :
    ∀ path idempotence, Redis.NulFree path → (∀ string ∈ node.strings, Redis.NulFree string) →
      ∀ made ∈ (yamlToStorage path idempotence node).calls, made.NulFree := by
  induction node, keys using Node.keyedInduction with
  | undefined =>
      exact fun path idempotence here free made member => absurd member List.not_mem_nil
  | null =>
      exact fun path idempotence here free made member => absurd member List.not_mem_nil
  | scalar value =>
      intro path idempotence here free
      simpa [yamlToStorage, Loading.call, StorageCall.NulFree, StorageCall.strings,
        Node.strings, here] using free
  | sequence entries keys below read induction =>
      intro path idempotence here free
      rw [Node.strings_sequence, List.forall_mem_flatMap] at free
      rw [calls_sequence, read, List.forall_mem_flatMap]
      intro entry member
      cases entry with
      | scalar value =>
          have own := free _ member
          simpa [sequenceCalls, StorageCall.NulFree, StorageCall.strings, Node.strings, here]
            using own
      | _ => exact induction _ member path true here (free _ member)
  | map entries keys below read induction =>
      intro path idempotence here free
      rw [Node.strings_map, List.forall_mem_flatMap] at free
      rw [calls_map, read, List.forall_mem_flatMap]
      intro entry member
      have own := free _ (mem_of_mem_keyed member)
      rw [List.forall_mem_append] at own
      rcases own with ⟨named, valued⟩
      have key : Redis.NulFree entry.1 := named _ (by simp)
      have there := nulFree_newPath here key
      cases scalar : entry.2 with
      | scalar value =>
          rw [scalar] at valued
          simpa [mapCalls, StorageCall.NulFree, StorageCall.strings, Node.strings, here, key]
            using valued
      | _ =>
          have deeper := induction entry member (newPath path entry.1) true there valued
          rw [scalar] at deeper
          show ∀ made ∈ (if idempotence then [.delKey (newPath path entry.1)] else []) ++ _,
            StorageCall.NulFree made
          rw [List.forall_mem_append]
          refine ⟨?_, deeper⟩
          split
          · simpa [StorageCall.NulFree, StorageCall.strings] using there
          · exact fun made deleting => absurd deleting List.not_mem_nil

namespace Redis

/-! ## One key -/

/-- What fields make of a key. A value of another type stays. -/
def overridden : Cell → List (ByteString × ByteString) → Cell
  | cell, [] => cell
  | none, field :: rest => some (.hash (MapType.putAll ∅ (field :: rest)))
  | some (.hash old), field :: rest => some (.hash (old.putAll (field :: rest)))
  | some other, _ :: _ => some other

def collected : List ByteString → Cell
  | [] => none
  | member :: rest => some (.set (SetType.putAll ∅ (member :: rest)))

/-- What the entry of a map leaves at its path when it is not a scalar. -/
def leaves : Node → Cell
  | .sequence entries => collected (scalarsOf entries)
  | .map entries => overridden none (fieldsOf entries)
  | _ => none

theorem effects_hsets (path : ByteString) (fields : List (ByteString × ByteString))
    (cell : Cell) :
    effects cell (fields.map fun field => .hset path field.1 field.2) =
      overridden cell fields := by
  have filling : ∀ fields : List (ByteString × ByteString), ∀ command ∈
      fields.map (fun field => Command.hset path field.1 field.2),
        isFilling command = true := by
    intro fields
    rw [List.forall_mem_map]
    exact fun field member => rfl
  have written : ∀ fields : List (ByteString × ByteString),
      (fields.map fun field => Command.hset path field.1 field.2).filterMap fieldOf = fields := by
    intro fields
    rw [List.filterMap_map]
    exact List.filterMap_some
  cases fields with
  | nil => cases cell with
    | _ => rfl
  | cons field rest =>
      cases cell with
      | none =>
          have whole := written (field :: rest)
          rw [List.map_cons] at whole
          rw [List.map_cons, effects_none_hash (filling rest) rfl, whole]
          rfl
      | some value =>
          cases value with
          | hash old =>
              rw [effects_hash (filling _), written]
              rfl
          | set members =>
              have none : ((field :: rest).map fun field =>
                  Command.hset path field.1 field.2).filterMap memberOf = [] := by
                rw [List.filterMap_map, List.filterMap_eq_nil_iff]
                exact fun field member => rfl
              rw [effects_set (filling _), none]
              rfl
          | _ => exact effects_other (filling _) _ (by simp) (by simp)

theorem effects_sadds (path : ByteString) (members : List ByteString) :
    effects none (members.map (.sadd path)) = collected members := by
  cases members with
  | nil => rfl
  | cons member rest =>
      have filling : ∀ command ∈ rest.map (Command.sadd path), isFilling command = true := by
        rw [List.forall_mem_map]
        exact fun field member => rfl
      have written : (member :: rest).filterMap (memberOf ∘ Command.sadd path) = member :: rest :=
        List.filterMap_some
      rw [List.map_cons, effects_none_set filling rfl, ← List.map_cons, List.filterMap_map,
        written]
      rfl

/-! ## The whole load -/

theorem commandOf_mapStores {path : ByteString} {fields : List (ByteString × ByteString)}
    (free : ∀ field ∈ fields, (StorageCall.mapStore path field.1 field.2).NulFree) :
    (fields.map fun field => StorageCall.mapStore path field.1 field.2).map commandOf =
      fields.map fun field => .hset path field.1 field.2 := by
  rw [List.map_map]
  apply List.map_congr_left
  intro field member
  simp only [StorageCall.NulFree, StorageCall.strings, List.forall_mem_cons] at free
  rcases free field member with ⟨place, key, value, -⟩
  simp only [Function.comp_apply, commandOf, cStr_of_nulFree place, cStr_of_nulFree key,
    cStr_of_nulFree value]

theorem commandOf_setStores {path : ByteString} {members : List ByteString}
    (free : ∀ member ∈ members, (StorageCall.setStore path member).NulFree) :
    (members.map (StorageCall.setStore path)).map commandOf = members.map (.sadd path) := by
  rw [List.map_map]
  apply List.map_congr_left
  intro value member
  simp only [StorageCall.NulFree, StorageCall.strings, List.forall_mem_cons] at free
  rcases free value member with ⟨place, item, -⟩
  simp only [Function.comp_apply, commandOf, cStr_of_nulFree place, cStr_of_nulFree item]

section Load

variable {path : ByteString} {node : Node} (keys : node.scalarKeys = true)
  (free : ∀ string ∈ path :: node.strings, NulFree string)
include keys free

theorem nulFree_load {made : StorageCall}
    (member : made ∈ (yamlToStorage path true node).calls) : made.NulFree := by
  rw [List.forall_mem_cons] at free
  exact nulFree_calls node keys path true free.1 free.2 made member

/-- A key is changed by the visits to its path. -/
theorem loadInto_apply (server : KeySpace) (place : ByteString) :
    (loadInto redisStorage server path node) place =
      effects (server place) ((((places path true node).filter fun visit =>
        visit.path = place).flatMap Visit.calls).map commandOf) := by
  have ours : (yamlToStorage path true node).calls.filter
      (fun made => (commandOf made).key = place) =
        (yamlToStorage path true node).calls.filter fun made => made.name = place := by
    apply List.filter_congr
    intro made member
    rw [key_commandOf, cStr_of_nulFree (StorageCall.nulFree_name (nulFree_load keys free member))]
  rw [loadInto, performAll_eq, executeAll, CellStore.executeAll_apply, List.filter_map,
    ← calls_at path true keys place, ← ours]
  rfl

/-- The stores of a visit are calls of the load. -/
theorem nulFree_directStores {visit : Visit} (member : visit ∈ places path true node) :
    ∀ made ∈ directStores visit.path visit.node, made.NulFree := by
  intro made direct
  have called : made ∈ ((places path true node).filter fun other =>
      other.path = visit.path).flatMap Visit.calls :=
    List.mem_flatMap.mpr ⟨visit, List.mem_filter.mpr ⟨member, by simp⟩,
      List.mem_append_right _ direct⟩
  rw [← calls_at path true keys] at called
  exact nulFree_load keys free (List.mem_filter.mp called).1

end Load

/-- What a load leaves behind. -/
structure LoadedExactly (before after : KeySpace) (path : ByteString)
    (entries : List (Option ByteString × Node)) : Prop where
  below : ∀ visit ∈ visits path true (.map entries), after visit.path = leaves visit.node
  root : after path = overridden (before path) (fieldsOf entries)
  other : ∀ place, place ≠ path →
    (∀ visit ∈ visits path true (.map entries), visit.path ≠ place) → after place = before place

/-- What comes before a deletion does not matter. -/
theorem effects_calls {visit : Visit} (deleted : visit.deleted = true)
    (plain : visit.node.plainSequences = true)
    (notScalar : visit.node.isScalar = false)
    (free : ∀ made ∈ directStores visit.path visit.node, made.NulFree) (cell : Cell) :
    effects cell (visit.calls.map commandOf) = leaves visit.node := by
  rw [Visit.calls, if_pos deleted, List.map_append, effects, CellStore.effects_append]
  show effects none _ = _
  rcases visit with ⟨path, _, node⟩
  cases node with
  | undefined => rfl
  | null => rfl
  | scalar value => cases notScalar
  | sequence entries =>
      simp only [directStores_of_plain path plain, List.forall_mem_map] at free ⊢
      rw [commandOf_setStores free, effects_sadds]
      rfl
  | map entries =>
      simp only [directStores_fields, List.forall_mem_map] at free ⊢
      rw [commandOf_mapStores free, effects_hsets]
      rfl

theorem loadInto_exactly (server : KeySpace) (path : ByteString)
    {entries : List (Option ByteString × Node)}
    (keys : (Node.map entries).scalarKeys = true)
    (plain : (Node.map entries).plainSequences = true)
    (apart : ((visits path true (.map entries)).map Visit.path).Nodup)
    (free : ∀ string ∈ path :: (Node.map entries).strings, NulFree string) :
    LoadedExactly server (loadInto redisStorage server path (.map entries)) path entries where
  below := by
    intro visit member
    rcases deleted_of_visits _ path visit member with ⟨deleted, notScalar⟩
    have different : path ≠ visit.path := (ne_of_visits member).symm
    rw [loadInto_apply keys free, places, List.filter_cons_of_neg (by simpa using different),
      List.filter_eq_singleton Visit.path apart member, List.flatMap_singleton]
    have bare := plainSequences_of_visits _ path true visit member plain
    have direct := nulFree_directStores keys free (List.mem_cons_of_mem _ member)
    exact effects_calls deleted bare notScalar direct _
  root := by
    have none : (visits path true (.map entries)).filter (fun visit => visit.path = path) =
        [] := by
      rw [List.filter_eq_nil_iff]
      exact fun visit member same => ne_of_visits member (of_decide_eq_true same)
    have itself : ({ path := path, deleted := false, node := .map entries } : Visit) ∈
        places path true (.map entries) := List.mem_cons_self
    have direct := nulFree_directStores keys free itself
    rw [loadInto_apply keys free, places, List.filter_cons_of_pos (by simp), none,
      List.flatMap_singleton]
    simp only [directStores_fields, List.forall_mem_map] at direct
    simp only [Visit.calls, Bool.false_eq_true, if_false, List.nil_append, directStores_fields]
    rw [commandOf_mapStores direct, effects_hsets]
  other := by
    intro place notRoot elsewhere
    have none : (places path true (.map entries)).filter (fun visit => visit.path = place) =
        [] := by
      rw [places, List.filter_cons_of_neg (by simpa using Ne.symm notRoot),
        List.filter_eq_nil_iff]
      exact fun visit member same => elsewhere visit member (of_decide_eq_true same)
    rw [loadInto_apply keys free, none]
    rfl

def swordEntries : List (Option ByteString × Node) := [
  (some (text "name"), .scalar (text "sword")),
  (some (text "kinds"), .sequence [.scalar (text "weapon"), .null, .scalar (text "iron")]),
  (some (text "base_stats"), .map [
    (some (text "damage"), .scalar (text "3")),
    (some (text "bonus"), .null)])]

/-- The sword of an earlier load, with data that is stale by now. -/
def oldSword : KeySpace := fun key =>
  if key = text "sword" then some (.hash (MapType.putAll ∅ [(text "price", text "9")]))
  else if key = text "sword:base:stats" then some (.string (text "none"))
  else none

theorem loadInto_exactly_of_sword :
    LoadedExactly oldSword (loadInto redisStorage oldSword (text "sword") (.map swordEntries))
      (text "sword") swordEntries :=
  loadInto_exactly oldSword (text "sword") (by decide) (by decide) (by decide) (by decide)

/-- A string with a NUL byte inside, which YAML can write as an escape. -/
def nulEntries : List (Option ByteString × Node) := [
  (some (text "kinds"), .sequence [.scalar [120, 0, 121]])]

theorem not_loadInto_exactly_of_nul :
    (Node.map nulEntries).scalarKeys = true ∧ (Node.map nulEntries).plainSequences = true ∧
      ((visits (text "sword") true (.map nulEntries)).map Visit.path).Nodup ∧
      KeySpace.empty (text "sword") = none ∧
      ¬ LoadedExactly KeySpace.empty
        (loadInto redisStorage KeySpace.empty (text "sword") (.map nulEntries))
        (text "sword") nulEntries := by
  refine ⟨by decide, by decide, by decide, rfl, ?_⟩
  intro loaded
  have below := loaded.below
    { path := text "sword:kinds", deleted := true, node := .sequence [.scalar [120, 0, 121]] }
    (List.mem_singleton.mpr rfl)
  have kept : (loadInto redisStorage KeySpace.empty (text "sword") (.map nulEntries))
      (text "sword:kinds") = some (.set ((∅ : SetType).insert [120])) := by rfl
  have expected : leaves (.sequence [.scalar [120, 0, 121]]) =
      some (.set ((∅ : SetType).insert [120, 0, 121])) := by rfl
  rw [kept, expected, Option.some.injEq, Value.set.injEq] at below
  have member : ([120, 0, 121] : ByteString) ∈ (∅ : SetType).insert [120] := by
    rw [below]
    exact Std.ExtTreeSet.mem_insert_self
  rw [Std.ExtTreeSet.mem_insert] at member
  revert member
  simp

end Redis

end Pmud.Storage
