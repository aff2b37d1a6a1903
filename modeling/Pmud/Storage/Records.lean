import Pmud.Storage.YamlVisits

/-! # The records of a document

A record is a scalar that is stored under the path of the map or sequence it is an
entry of. Everything in a sequence is stored under the path of the sequence.
-/

namespace Pmud.Storage

inductive Record
  | field (key value : ByteString)
  | member (value : ByteString)
  deriving DecidableEq

namespace Record

/-- A key cannot hold both. -/
def Clashes : Record → Record → Prop
  | field key value, field other content => key = other ∧ value ≠ content
  | member _, member _ => False
  | _, _ => True

instance (record other : Record) : Decidable (record.Clashes other) :=
  match record, other with
  | field key value, field other content =>
      inferInstanceAs (Decidable (key = other ∧ value ≠ content))
  | member _, member _ => .isFalse id
  | field _ _, member _ => .isTrue trivial
  | member _, field _ _ => .isTrue trivial

end Record

def StorageCall.record? : StorageCall → Option Record
  | mapStore _ key value => some (.field key value)
  | setStore _ value => some (.member value)
  | _ => none

/-- What is stored under the path of the visit. -/
def Visit.records (visit : Visit) : List Record :=
  (directStores visit.path visit.node).filterMap StorageCall.record?

/-- `met` is a node of the document, and `place` is its path. -/
inductive Located : ByteString → Node → ByteString → Node → Prop
  | here (path : ByteString) (node : Node) : Located path node path node
  | item {path place : ByteString} {entries : List Node} {entry met : Node}
      (member : entry ∈ entries) (below : Located path entry place met) :
      Located path (.sequence entries) place met
  | entry {path place key : ByteString} {entries : List (Option ByteString × Node)}
      {entry met : Node} (member : (some key, entry) ∈ entries)
      (other : entry.isScalar = false) (below : Located (newPath path key) entry place met) :
      Located path (.map entries) place met

/-- The document has this record under this path. -/
def HasRecord (path : ByteString) (node : Node) (place : ByteString) : Record → Prop
  | .field key value => ∃ entries, Located path node place (.map entries) ∧
      (some key, .scalar value) ∈ entries
  | .member value => ∃ entries, Located path node place (.sequence entries) ∧
      .scalar value ∈ entries

theorem located_trans {path place deeper : ByteString} {node met last : Node}
    (first : Located path node place met) (later : Located place met deeper last) :
    Located path node deeper last := by
  induction first with
  | here path node => exact later
  | item member below induction => exact .item member (induction later)
  | entry member other below induction => exact .entry member other (induction later)

theorem HasRecord.of_located {path place deeper : ByteString} {node met : Node} {record : Record}
    (first : Located path node place met) (has : HasRecord place met deeper record) :
    HasRecord path node deeper record := by
  cases record with
  | field key value =>
      rcases has with ⟨entries, located, member⟩
      exact ⟨entries, located_trans first located, member⟩
  | member value =>
      rcases has with ⟨entries, located, member⟩
      exact ⟨entries, located_trans first located, member⟩

theorem mem_keyed {entries : List (Option ByteString × Node)} {key : ByteString} {entry : Node}
    (member : (some key, entry) ∈ entries) : (key, entry) ∈ keyed entries :=
  List.mem_filterMap.mpr ⟨(some key, entry), member, rfl⟩

theorem located_of_visits : ∀ node path idempotence,
    ∀ visit ∈ visits path idempotence node, Located path node visit.path visit.node := by
  apply visitsInduction
  · exact fun path idempotence entries entry member visit below => .item member below
  · exact fun path idempotence entries entry member notScalar =>
      .entry (mem_of_mem_keyed member) notScalar (.here _ _)
  · exact fun path idempotence entries entry member notScalar visit below =>
      .entry (mem_of_mem_keyed member) notScalar below

/-- What a node stores under its own path are records of it. -/
theorem hasRecord_of_directStores (path : ByteString) (node : Node) :
    ∀ made ∈ directStores path node, ∀ record, made.record? = some record →
      HasRecord path node path record := by
  induction node using Node.induction with
  | undefined => exact fun made member => absurd member List.not_mem_nil
  | null => exact fun made member => absurd member List.not_mem_nil
  | scalar value =>
      intro made member record isRecord
      rw [List.mem_singleton.mp member] at isRecord
      cases isRecord
  | sequence entries induction =>
      rw [directStores_sequence, List.forall_mem_flatMap]
      intro entry inside made member record isRecord
      cases entry with
      | scalar value =>
          rw [List.mem_singleton.mp member] at isRecord
          cases isRecord
          exact ⟨entries, .here _ _, inside⟩
      | _ =>
          apply HasRecord.of_located (.item inside (.here _ _))
          exact induction _ inside made member record isRecord
  | map entries induction =>
      rw [directStores_map, List.forall_mem_flatMap]
      intro entry inside made member record isRecord
      rcases entry with ⟨key, entry⟩
      cases entry with
      | scalar value =>
          rw [List.mem_singleton.mp member] at isRecord
          cases isRecord
          exact ⟨entries, .here _ _, mem_of_mem_keyed inside⟩
      | _ => cases member

theorem isScalar_of_located {path place value : ByteString} {met : Node}
    (located : Located path (.scalar value) place met) : met.isScalar = true := by
  cases located with
  | here => rfl

/-- A node that is not a scalar stores under the path of the visit it belongs to. -/
theorem visit_of_located {path place : ByteString} {node met : Node}
    (located : Located path node place met) (other : met.isScalar = false)
    {made : StorageCall} (direct : made ∈ directStores place met) :
    ∃ visit ∈ places path true node, visit.path = place ∧
      made ∈ directStores visit.path visit.node := by
  induction located with
  | here path node => exact ⟨_, List.mem_cons_self, rfl, direct⟩
  | @item path place entries entry met member below induction =>
      rcases induction other direct with ⟨visit, inside, same, stored⟩
      have notScalar : entry.isScalar = false := by
        cases entry with
        | scalar value => exact (isScalar_of_located below).symm.trans other
        | _ => rfl
      rcases List.mem_cons.mp inside with rfl | deeper
      · refine ⟨_, List.mem_cons_self, same, ?_⟩
        rw [directStores_sequence]
        apply List.mem_flatMap_of_mem member
        cases entry with
        | scalar value => cases notScalar
        | _ => exact stored
      · refine ⟨visit, List.mem_cons_of_mem _ ?_, same, stored⟩
        rw [visits_sequence]
        exact List.mem_flatMap_of_mem member deeper
  | @entry path place key entries entry met member notScalar below induction =>
      rcases induction other direct with ⟨visit, inside, same, stored⟩
      have named := mem_keyed member
      rcases List.mem_cons.mp inside with rfl | deeper
      · have visited : { path := newPath path key, deleted := true, node := entry } ∈
            visits path true (.map entries) :=
          mem_visits_map.mpr ⟨_, named, notScalar, .inl rfl⟩
        exact ⟨_, List.mem_cons_of_mem _ visited, same, stored⟩
      · have visited : visit ∈ visits path true (.map entries) :=
          mem_visits_map.mpr ⟨_, named, notScalar, .inr deeper⟩
        exact ⟨visit, List.mem_cons_of_mem _ visited, same, stored⟩

/-- The records of a document are those of its places. -/
theorem hasRecord_iff {path place : ByteString} {node : Node} {record : Record} :
    HasRecord path node place record ↔
      ∃ visit ∈ places path true node, visit.path = place ∧ record ∈ visit.records := by
  constructor
  · intro has
    cases record with
    | field key value =>
        rcases has with ⟨entries, located, member⟩
        have direct : .mapStore place key value ∈ directStores place (.map entries) := by
          rw [directStores_map]
          exact List.mem_flatMap_of_mem (mem_keyed member) List.mem_cons_self
        rcases visit_of_located located rfl direct with ⟨visit, inside, same, stored⟩
        exact ⟨visit, inside, same, List.mem_filterMap.mpr ⟨_, stored, rfl⟩⟩
    | member value =>
        rcases has with ⟨entries, located, member⟩
        have direct : .setStore place value ∈ directStores place (.sequence entries) := by
          rw [directStores_sequence]
          exact List.mem_flatMap_of_mem member List.mem_cons_self
        rcases visit_of_located located rfl direct with ⟨visit, inside, same, stored⟩
        exact ⟨visit, inside, same, List.mem_filterMap.mpr ⟨_, stored, rfl⟩⟩
  · intro found
    rcases found with ⟨visit, inside, rfl, found⟩
    rcases List.mem_filterMap.mp found with ⟨made, direct, isRecord⟩
    have own := hasRecord_of_directStores _ _ made direct record isRecord
    rcases List.mem_cons.mp inside with rfl | deeper
    · exact own
    · exact .of_located (located_of_visits node path true visit deeper) own

/-- A node that is not a scalar stores nothing but records. -/
theorem record_of_directStores (path : ByteString) (node : Node) (other : node.isScalar = false) :
    ∀ made ∈ directStores path node, ∃ record, made.record? = some record := by
  induction node using Node.induction with
  | undefined => exact fun made member => absurd member List.not_mem_nil
  | null => exact fun made member => absurd member List.not_mem_nil
  | scalar value => cases other
  | sequence entries induction =>
      rw [directStores_sequence, List.forall_mem_flatMap]
      intro entry inside
      cases entry with
      | scalar value => exact List.forall_mem_singleton.mpr ⟨_, rfl⟩
      | _ => exact induction _ inside rfl
  | map entries induction =>
      rw [directStores_map, List.forall_mem_flatMap]
      intro entry inside
      rcases entry with ⟨key, entry⟩
      cases entry with
      | scalar value => exact List.forall_mem_singleton.mpr ⟨_, rfl⟩
      | _ => exact fun made member => absurd member List.not_mem_nil

end Pmud.Storage
