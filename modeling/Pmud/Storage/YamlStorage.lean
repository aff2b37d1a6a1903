import Mathlib.Data.List.Basic
import Pmud.Storage.Storage

/-! # Loading a document

`storage/yaml_storage.h`. The storage is only called and its reports are not
looked at, so that a load is the list of its calls.
-/

namespace Pmud.Storage

/-- A node as the library presents it. The key of an entry is what `as<string>()`
makes of it, `none` where it throws. -/
inductive Node
  | undefined
  | null
  | scalar (value : ByteString)
  | sequence (entries : List Node)
  | map (entries : List (Option ByteString × Node))

/-- The calls made, up to the end or to an exception. -/
structure Loading where
  calls : List StorageCall
  threw : Bool
  deriving DecidableEq

namespace Loading

def done : Loading := { calls := [], threw := false }

def thrown : Loading := { calls := [], threw := true }

def call (made : StorageCall) : Loading := { calls := [made], threw := false }

def andThen (first second : Loading) : Loading :=
  if first.threw then first
  else { calls := first.calls ++ second.calls, threw := second.threw }

@[simp]
theorem calls_andThen (first second : Loading) :
    (first.andThen second).calls = first.calls ++ if first.threw then [] else second.calls := by
  unfold andThen
  split
  · simp
  · rfl

@[simp]
theorem threw_andThen (first second : Loading) :
    (first.andThen second).threw = (first.threw || second.threw) := by
  unfold andThen
  split
  · next threw => simp [threw]
  · next ended => simp [ended]

end Loading

/-- `regex_replace` of every `_` by `:`. -/
def replaceUnderscores (key : ByteString) : ByteString :=
  key.map fun byte => if byte = 95 then 58 else byte

/-- The path of a non-scalar entry. -/
def newPath (path key : ByteString) : ByteString :=
  path ++ text ":" ++ replaceUnderscores key

mutual

/-- `yaml_to_storage`. The recursive calls leave `idempotence` at its default. -/
def yamlToStorage (path : ByteString) (idempotence : Bool) : Node → Loading
  | .undefined => .done
  | .null => .done
  | .scalar value => .call (.valueStore path value)
  | .sequence entries => loadSequence path entries
  -- `virgin` is true when the loop begins and never assigned
  | .map entries => loadMap path idempotence true entries

def loadSequence (path : ByteString) : List Node → Loading
  | [] => .done
  | entry :: rest =>
      let loading :=
        match entry with
        | .scalar value => Loading.call (.setStore path value)
        | _ => yamlToStorage path true entry
      loading.andThen (loadSequence path rest)

def loadMap (path : ByteString) (idempotence virgin : Bool) :
    List (Option ByteString × Node) → Loading
  | [] => .done
  | (none, _) :: _ => .thrown
  | (some key, entry) :: rest =>
      let loading :=
        match entry with
        | .scalar value => Loading.call (.mapStore path key value)
        | _ =>
            let deleting :=
              if idempotence && virgin then Loading.call (.delKey (newPath path key))
              else Loading.done
            deleting.andThen (yamlToStorage (newPath path key) true entry)
      loading.andThen (loadMap path idempotence virgin rest)

end

def loadInto {State : Type} (storage : StorageOperations State) (state : State)
    (path : ByteString) (node : Node) (idempotence : Bool := true) : State :=
  storage.performAll state (yamlToStorage path idempotence node).calls

/-! ## Nodes -/

namespace Node

/-- Induction over a document, with the entries of sequences and maps as lists. -/
theorem induction {motive : Node → Prop} (undefined : motive .undefined) (null : motive .null)
    (scalar : ∀ value, motive (.scalar value))
    (sequence : ∀ entries, (∀ entry ∈ entries, motive entry) → motive (.sequence entries))
    (map : ∀ entries, (∀ entry ∈ entries, motive entry.2) → motive (.map entries))
    (node : Node) : motive node := by
  refine @Node.rec motive (fun entries => ∀ entry ∈ entries, motive entry)
    (fun entries => ∀ entry ∈ entries, motive entry.2) (fun entry => motive entry.2)
    undefined null scalar sequence map ?_ ?_ ?_ ?_ ?_ node
  · exact fun entry member => absurd member List.not_mem_nil
  · exact fun entry rest here later => List.forall_mem_cons.mpr ⟨here, later⟩
  · exact fun entry member => absurd member List.not_mem_nil
  · exact fun entry rest here later => List.forall_mem_cons.mpr ⟨here, later⟩
  · exact fun key entry here => here

def isScalar : Node → Bool
  | .scalar _ => true
  | _ => false

mutual

/-- Every key is a scalar, so that nothing throws. -/
def scalarKeys : Node → Bool
  | .sequence entries => scalarKeysOfNodes entries
  | .map entries => scalarKeysOfEntries entries
  | _ => true

def scalarKeysOfNodes : List Node → Bool
  | [] => true
  | entry :: rest => entry.scalarKeys && scalarKeysOfNodes rest

def scalarKeysOfEntries : List (Option ByteString × Node) → Bool
  | [] => true
  | (key, entry) :: rest => key.isSome && entry.scalarKeys && scalarKeysOfEntries rest

end

/-- The entries of a sequence that are read. One that throws is the last. -/
def readNodes : List Node → List Node
  | [] => []
  | entry :: rest => entry :: if entry.scalarKeys then readNodes rest else []

/-- The entries of a map that are read, with their keys. -/
def readEntries : List (Option ByteString × Node) → List (ByteString × Node)
  | [] => []
  | (none, _) :: _ => []
  | (some key, entry) :: rest =>
      (key, entry) :: if entry.scalarKeys then readEntries rest else []

end Node

/-! ## What an entry gives rise to -/

section Calls

variable (path : ByteString) (idempotence : Bool)

/-- The calls for an entry of a sequence. -/
def sequenceCalls (path : ByteString) : Node → List StorageCall
  | .scalar value => [.setStore path value]
  | entry => (yamlToStorage path true entry).calls

/-- The calls for an entry of a map. -/
def mapCalls (path : ByteString) (idempotence : Bool) (key : ByteString) :
    Node → List StorageCall
  | .scalar value => [.mapStore path key value]
  | entry =>
      (if idempotence then [.delKey (newPath path key)] else []) ++
        (yamlToStorage (newPath path key) true entry).calls

theorem loadSequence_cons (entry : Node) (rest : List Node) :
    loadSequence path (entry :: rest) =
      Loading.andThen
        { calls := sequenceCalls path entry
          threw := !entry.isScalar && (yamlToStorage path true entry).threw }
        (loadSequence path rest) := by
  cases entry with
  | _ => rfl

theorem loadMap_cons (key : ByteString) (entry : Node)
    (rest : List (Option ByteString × Node)) :
    loadMap path idempotence true ((some key, entry) :: rest) =
      Loading.andThen
        { calls := mapCalls path idempotence key entry
          threw := !entry.isScalar && (yamlToStorage (newPath path key) true entry).threw }
        (loadMap path idempotence true rest) := by
  cases idempotence with
  | false => cases entry with
    | _ => rfl
  | true => cases entry with
    | _ => rfl

theorem threw_loadSequence {entries : List Node}
    (throws : ∀ entry ∈ entries, ∀ path idempotence,
      (yamlToStorage path idempotence entry).threw = !entry.scalarKeys) :
    (loadSequence path entries).threw = !Node.scalarKeysOfNodes entries := by
  induction entries with
  | nil => rfl
  | cons entry rest induction =>
      rw [List.forall_mem_cons] at throws
      rw [loadSequence_cons, Loading.threw_andThen, induction throws.2, throws.1,
        Node.scalarKeysOfNodes, Bool.not_and]
      cases entry with
      | scalar value => rfl
      | _ => simp [Node.isScalar]

theorem threw_loadMap {entries : List (Option ByteString × Node)}
    (throws : ∀ entry ∈ entries, ∀ path idempotence,
      (yamlToStorage path idempotence entry.2).threw = !entry.2.scalarKeys) :
    (loadMap path idempotence true entries).threw = !Node.scalarKeysOfEntries entries := by
  induction entries with
  | nil => rfl
  | cons entry rest induction =>
      rcases entry with ⟨key, entry⟩
      rw [List.forall_mem_cons] at throws
      cases key with
      | none => rfl
      | some key =>
          rw [loadMap_cons, Loading.threw_andThen, induction throws.2, throws.1,
            Node.scalarKeysOfEntries]
          cases entry with
          | scalar value => simp [Node.isScalar, Node.scalarKeys]
          | _ => simp [Node.isScalar]

/-- A load throws when it comes to a key that is not a scalar. -/
theorem threw_yamlToStorage (node : Node) :
    ∀ path idempotence, (yamlToStorage path idempotence node).threw = !node.scalarKeys := by
  induction node using Node.induction with
  | undefined => exact fun path idempotence => rfl
  | null => exact fun path idempotence => rfl
  | scalar value => exact fun path idempotence => rfl
  | sequence entries throws => exact fun path idempotence => threw_loadSequence path throws
  | map entries throws => exact fun path idempotence => threw_loadMap path idempotence throws

theorem calls_sequence (entries : List Node) :
    (yamlToStorage path idempotence (.sequence entries)).calls =
      (Node.readNodes entries).flatMap (sequenceCalls path) := by
  show (loadSequence path entries).calls = _
  induction entries with
  | nil => rfl
  | cons entry rest induction =>
      rw [loadSequence_cons, Loading.calls_andThen, induction, Node.readNodes, List.flatMap_cons,
        threw_yamlToStorage]
      cases entry with
      | scalar value => rfl
      | _ =>
          simp only [Node.isScalar]
          cases Node.scalarKeys _ with
          | _ => rfl

theorem calls_map (entries : List (Option ByteString × Node)) :
    (yamlToStorage path idempotence (.map entries)).calls =
      (Node.readEntries entries).flatMap fun entry =>
        mapCalls path idempotence entry.1 entry.2 := by
  show (loadMap path idempotence true entries).calls = _
  induction entries with
  | nil => rfl
  | cons entry rest induction =>
      rcases entry with ⟨key, entry⟩
      cases key with
      | none => rfl
      | some key =>
          rw [loadMap_cons, Loading.calls_andThen, induction, Node.readEntries,
            List.flatMap_cons, threw_yamlToStorage]
          cases entry with
          | scalar value => rfl
          | _ =>
              simp only [Node.isScalar]
              cases Node.scalarKeys _ with
              | _ => rfl

end Calls

end Pmud.Storage
