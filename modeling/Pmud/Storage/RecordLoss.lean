import Pmud.Storage.ExactLoading
import Pmud.Storage.Records

/-! # Records that are lost

The last visit to a path deletes what the visits before it have stored, and the
first record that is stored decides about the type of the key.
-/

namespace Pmud.Storage

open Foundation

namespace Record

def strings : Record → List ByteString
  | field key value => [key, value]
  | member value => [value]

def NulFree (record : Record) : Prop := ∀ string ∈ record.strings, Redis.NulFree string

end Record

namespace Redis

/-- The record is found at a key. -/
def Holds (cell : Cell) : Record → Prop
  | .field key value => ∃ fields, cell = some (.hash fields) ∧ fields[key]? = some value
  | .member value => ∃ members, cell = some (.set members) ∧ value ∈ members

/-- No record of the document is lost. -/
def KeepsRecords (path : ByteString) (node : Node) : Prop :=
  ∀ place record, HasRecord path node place record →
    Holds ((loadInto redisStorage KeySpace.empty path node) place) record

/-! ## What commands leave at a key -/

/-- The record that is sent for a call. -/
def sent : StorageCall → Option Record
  | .mapStore _ key value => some (.field (cStr key) (cStr value))
  | .setStore _ value => some (.member (cStr value))
  | _ => none

theorem nulFree_of_sent {made : StorageCall} {record : Record}
    (isSent : sent made = some record) : record.NulFree := by
  cases made with
  | mapStore mapName key value =>
      cases isSent
      simp [Record.NulFree, Record.strings, nulFree_cStr]
  | setStore setName value =>
      cases isSent
      simp [Record.NulFree, Record.strings, nulFree_cStr]
  | _ => cases isSent

theorem sent_of_nulFree {made : StorageCall} {record : Record}
    (isRecord : made.record? = some record) (free : record.NulFree) :
    sent made = some record := by
  cases made with
  | mapStore mapName key value =>
      cases isRecord
      simp only [Record.NulFree, Record.strings, List.forall_mem_cons] at free
      simp only [sent, cStr_of_nulFree free.1, cStr_of_nulFree free.2.1]
  | setStore setName value =>
      cases isRecord
      simp only [Record.NulFree, Record.strings, List.forall_mem_cons] at free
      simp only [sent, cStr_of_nulFree free.1]
  | _ => cases isRecord

theorem record_of_sent {made : StorageCall} {record : Record} (isSent : sent made = some record) :
    ∃ original, made.record? = some original := by
  cases made with
  | mapStore mapName key value => exact ⟨_, rfl⟩
  | setStore setName value => exact ⟨_, rfl⟩
  | _ => cases isSent

theorem not_holds_none (record : Record) : ¬ Holds none record := by
  cases record with
  | field key value => simp [Holds]
  | member value => simp [Holds]

theorem not_clashes_of_holds {cell : Cell} {record other : Record} (first : Holds cell record)
    (second : Holds cell other) : ¬ record.Clashes other := by
  cases record with
  | field key value =>
      rcases first with ⟨fields, rfl, found⟩
      cases other with
      | field key content =>
          rcases second with ⟨fields, same, also⟩
          cases same
          intro clash
          rw [clash.1, also, Option.some.injEq] at found
          exact clash.2 found.symm
      | member content =>
          rcases second with ⟨members, same, -⟩
          cases same
  | member value =>
      rcases first with ⟨members, rfl, -⟩
      cases other with
      | field key content =>
          rcases second with ⟨fields, same, -⟩
          cases same
      | member content => exact id

theorem holds_hash {fields : MapType} {record : Record} :
    Holds (some (.hash fields)) record ↔
      ∃ key value, record = .field key value ∧ fields[key]? = some value := by
  cases record with
  | field key value => simp [Holds]
  | member value => simp [Holds]

theorem holds_set {members : SetType} {record : Record} :
    Holds (some (.set members)) record ↔ ∃ value, record = .member value ∧ value ∈ members := by
  cases record with
  | field key value => simp [Holds]
  | member value => simp [Holds]

theorem holds_insert_field {fields : MapType} {field content : ByteString} {record : Record}
    (holds : Holds (some (.hash (fields.insert field content))) record) :
    Holds (some (.hash fields)) record ∨ record = .field field content := by
  rcases holds_hash.mp holds with ⟨key, value, rfl, found⟩
  rw [getElem?_insert] at found
  split at found
  · next same =>
    rw [Option.some.injEq] at found
    exact .inr (by rw [same, found])
  · exact .inl (holds_hash.mpr ⟨key, value, rfl, found⟩)

theorem holds_insert_member {members : SetType} {item : ByteString} {record : Record}
    (holds : Holds (some (.set (members.insert item))) record) :
    Holds (some (.set members)) record ∨ record = .member item := by
  rcases holds_set.mp holds with ⟨value, rfl, found⟩
  rw [Std.ExtTreeSet.mem_insert, Std.compare_eq_iff_eq] at found
  rcases found with same | old
  · exact .inr (by rw [same])
  · exact .inl (holds_set.mpr ⟨value, rfl, old⟩)

/-- A command adds the record that is sent, or none. -/
theorem holds_effect {made : StorageCall} {cell : Cell} {record : Record}
    (holds : Holds ((commandOf made).effect cell) record) :
    Holds cell record ∨ sent made = some record := by
  cases made with
  | valueStore key value =>
      cases record with
      | _ => simp [Holds, commandOf, Command.effect] at holds
  | delKey key => exact absurd holds (not_holds_none record)
  | mapStore mapName key value =>
      cases cell with
      | none =>
          have added : Holds (some (.hash ∅)) record ∨ record = .field (cStr key) (cStr value) :=
            holds_insert_field holds
          rcases added with empty | rfl
          · rcases holds_hash.mp empty with ⟨field, content, -, found⟩
            simp at found
          · exact .inr rfl
      | some held =>
          cases held with
          | hash fields => exact (holds_insert_field holds).imp id fun same => by rw [same]; rfl
          | _ => exact .inl holds
  | setStore setName value =>
      cases cell with
      | none =>
          have added : Holds (some (.set ∅)) record ∨ record = .member (cStr value) :=
            holds_insert_member holds
          rcases added with empty | rfl
          · rcases holds_set.mp empty with ⟨item, -, found⟩
            exact absurd found Std.ExtTreeSet.not_mem_empty
          · exact .inr rfl
      | some held =>
          cases held with
          | set members => exact (holds_insert_member holds).imp id fun same => by rw [same]; rfl
          | _ => exact .inl holds

/-- What a key holds in the end has been sent. -/
theorem sent_of_holds {calls : List StorageCall} {record : Record} :
    ∀ cell, Holds (effects cell (calls.map commandOf)) record →
      Holds cell record ∨ ∃ made ∈ calls, sent made = some record := by
  induction calls with
  | nil => exact fun cell holds => .inl holds
  | cons made rest induction =>
      intro cell holds
      rcases induction _ holds with before | later
      · rcases holds_effect before with held | isSent
        · exact .inl held
        · exact .inr ⟨made, List.mem_cons_self, isSent⟩
      · rcases later with ⟨other, member, isSent⟩
        exact .inr ⟨other, List.mem_cons_of_mem _ member, isSent⟩

theorem fieldOf_commandOf {made : StorageCall} {key value : ByteString} :
    fieldOf (commandOf made) = some (key, value) ↔ sent made = some (.field key value) := by
  cases made with
  | _ => simp [commandOf, fieldOf, sent]

theorem memberOf_commandOf {made : StorageCall} {value : ByteString} :
    memberOf (commandOf made) = some value ↔ sent made = some (.member value) := by
  cases made with
  | _ => simp [commandOf, memberOf, sent]

theorem isFilling_of_sent {made : StorageCall} {record : Record}
    (isSent : sent made = some record) : isFilling (commandOf made) = true := by
  cases made with
  | mapStore mapName key value => rfl
  | setStore setName value => rfl
  | _ => cases isSent

section Agree

variable {calls : List StorageCall}
  (stores : ∀ made ∈ calls, ∃ record, sent made = some record)
  (agree : ∀ made ∈ calls, ∀ other ∈ calls, ∀ first second,
    sent made = some first → sent other = some second → ¬ first.Clashes second)
include stores agree

/-- Stores of records that do not clash are all found at the key. -/
theorem holds_of_agree {made : StorageCall} (member : made ∈ calls) {record : Record}
    (isSent : sent made = some record) :
    Holds (effects none (calls.map commandOf)) record := by
  cases calls with
  | nil => cases member
  | cons head rest =>
      have filling : ∀ command ∈ rest.map commandOf, isFilling command = true := by
        rw [List.forall_mem_map]
        intro other inside
        rcases stores other (List.mem_cons_of_mem _ inside) with ⟨found, otherSent⟩
        exact isFilling_of_sent otherSent
      rcases stores head List.mem_cons_self with ⟨first, headSent⟩
      have peace := agree made member head List.mem_cons_self record first isSent headSent
      have inside := List.mem_map_of_mem (f := commandOf) member
      cases record with
      | field key value =>
          cases first with
          | member other => exact absurd trivial peace
          | field other content =>
              rw [List.map_cons, effects_none_hash filling (fieldOf_commandOf.mpr headSent),
                ← List.map_cons]
              refine ⟨_, rfl, MapType.getElem?_putAll_of_mem ∅
                (List.mem_filterMap.mpr ⟨_, inside, fieldOf_commandOf.mpr isSent⟩) ?_⟩
              intro different found
              rcases List.mem_filterMap.mp found with ⟨command, among, isField⟩
              rcases List.mem_map.mp among with ⟨next, nextMember, rfl⟩
              have apart := agree made member next nextMember _ _ isSent
                (fieldOf_commandOf.mp isField)
              by_contra clash
              exact apart ⟨rfl, Ne.symm clash⟩
      | member value =>
          cases first with
          | field other content => exact absurd trivial peace
          | member other =>
              rw [List.map_cons, effects_none_set filling (memberOf_commandOf.mpr headSent),
                ← List.map_cons]
              exact ⟨_, rfl, (SetType.mem_putAll ∅ _ value).mpr
                (.inr (List.mem_filterMap.mpr ⟨_, inside, memberOf_commandOf.mpr isSent⟩))⟩

end Agree

/-! ## The last visit to a path -/

/-- No record is cut at a NUL byte. Of the visits to one path, as the server sees it,
the last has the records of all the others, and none of them clash. -/
structure LastKeepsAll (path : ByteString) (node : Node) : Prop where
  free : ∀ visit ∈ places path true node, ∀ record ∈ visit.records,
    NulFree visit.path ∧ record.NulFree
  agree : ∀ before last after, places path true node = before ++ last :: after →
    (∀ later ∈ after, cStr later.path ≠ cStr last.path) →
      ∀ record ∈ last.records, ∀ other ∈ last.records, ¬ record.Clashes other
  keep : ∀ before last after, places path true node = before ++ last :: after →
    (∀ later ∈ after, cStr later.path ≠ cStr last.path) →
      ∀ earlier ∈ before, cStr earlier.path = cStr last.path → earlier.records ⊆ last.records

theorem cStr_ne_of_visits {path : ByteString} (free : NulFree path) {idempotence : Bool}
    {node : Node} {visit : Visit} (member : visit ∈ visits path idempotence node) :
    cStr visit.path ≠ path := by
  rcases path_of_visits node path idempotence visit member with ⟨rest, longer⟩
  rw [nulFree_iff] at free
  have cut : cStr visit.path = path ++ 58 :: cStr rest := by
    rw [longer, cStr, List.takeWhile_append_of_pos fun byte inside =>
      decide_eq_true (free byte inside)]
    rfl
  intro same
  rw [cut, List.append_right_eq_self] at same
  cases same

theorem commands_at (calls : List StorageCall) (place : ByteString) :
    (calls.map commandOf).filter (fun command => command.key = place) =
      (chosenCalls (fun name => cStr name = place) calls).map commandOf := by
  rw [List.filter_map]
  congr 1
  apply List.filter_congr
  intro made member
  rw [Function.comp_apply, key_commandOf]

/-- No key with a NUL byte is ever written. -/
theorem cell_of_nul (path : ByteString) (node : Node) {place : ByteString}
    (nul : ¬ NulFree place) : (loadInto redisStorage KeySpace.empty path node) place = none := by
  have unchosen : chosenCalls (fun name => cStr name = place)
      (yamlToStorage path true node).calls = [] := by
    rw [chosenCalls, List.filter_eq_nil_iff]
    exact fun made member same => nul (of_decide_eq_true same ▸ nulFree_cStr made.name)
  rw [loadInto, performAll_eq, executeAll, CellStore.executeAll_apply, commands_at, unchosen]
  rfl

section Last

variable {path : ByteString} {node : Node}
  (free : ∀ visit ∈ places path true node, ∀ record ∈ visit.records,
    NulFree visit.path ∧ record.NulFree)
include free

theorem separate_of_free (place : ByteString) :
    ∀ visit ∈ places path true node, visit.Separate fun name => cStr name = place := by
  intro visit member here
  have same : cStr visit.path = place := of_decide_eq_true here
  cases scalar : visit.node.isScalar with
  | true =>
      right
      cases kind : visit.node with
      | scalar value => rfl
      | _ => simp [kind, Node.isScalar] at scalar
  | false =>
      by_cases bare : directStores visit.path visit.node = []
      · exact .inl bare
      · right
        rcases List.exists_mem_of_ne_nil _ bare with ⟨made, direct⟩
        rcases record_of_directStores visit.path visit.node scalar made direct with
          ⟨record, isRecord⟩
        have found : record ∈ visit.records := List.mem_filterMap.mpr ⟨made, direct, isRecord⟩
        have plain := (free visit member record found).1
        rw [chosenVisits, List.filter_eq_nil_iff]
        intro below inside there
        apply cStr_ne_of_visits plain inside
        rw [← cStr_of_nulFree plain, same]
        exact of_decide_eq_true there

variable (keys : node.scalarKeys = true)
include keys

omit keys in
/-- What is sent for a visit are its records. -/
theorem mem_records_of_sent {visit : Visit} (member : visit ∈ places path true node)
    {made : StorageCall} (direct : made ∈ directStores visit.path visit.node) {record : Record}
    (isSent : sent made = some record) : record ∈ visit.records := by
  rcases record_of_sent isSent with ⟨original, isRecord⟩
  have known : original ∈ visit.records := List.mem_filterMap.mpr ⟨made, direct, isRecord⟩
  have same := sent_of_nulFree isRecord (free visit member original known).2
  rw [isSent, Option.some.injEq] at same
  exact same ▸ known

/-- In the end a key holds what the last visit to it has stored. -/
theorem cell_of_last {before after : List Visit} {last : Visit}
    (split : places path true node = before ++ last :: after)
    (fresh : ∀ later ∈ after, cStr later.path ≠ cStr last.path) :
    (loadInto redisStorage KeySpace.empty path node) (cStr last.path) =
      effects none ((directStores last.path last.node).map commandOf) := by
  have done : chosenVisits (fun name => cStr name = cStr last.path) after = [] := by
    rw [chosenVisits, List.filter_eq_nil_iff]
    exact fun later member same => fresh later member (of_decide_eq_true same)
  have visited : chosenVisits (fun name => cStr name = cStr last.path) (last :: after) =
      [last] := by
    rw [chosenVisits_cons, done]
    simp
  have ours : chosenVisits (fun name => cStr name = cStr last.path) (places path true node) =
      chosenVisits (fun name => cStr name = cStr last.path) before ++ [last] := by
    rw [split, chosenVisits, List.filter_append]
    exact congrArg _ visited
  rw [loadInto, performAll_eq, executeAll, CellStore.executeAll_apply, commands_at,
    chosenCalls_eq _ path true keys (separate_of_free free _), ours, List.flatMap_append,
    List.flatMap_singleton, List.map_append, CellStore.effects_append]
  cases before with
  | nil =>
      -- nothing comes before the root, which is not deleted
      rw [places, List.nil_append, List.cons.injEq] at split
      rcases split with ⟨rfl, -⟩
      rfl
  | cons root earlier =>
      rw [places, List.cons_append, List.cons.injEq] at split
      have member : last ∈ visits path true node := by
        rw [split.2]
        exact List.mem_append_right _ List.mem_cons_self
      rw [Visit.calls, if_pos (deleted_of_visits node path last member).1]
      rfl

/-- A record at a key has been sent by the last visit. -/
theorem sent_of_last {before after : List Visit} {last : Visit}
    (split : places path true node = before ++ last :: after)
    (fresh : ∀ later ∈ after, cStr later.path ≠ cStr last.path) {record : Record}
    (holds : Holds ((loadInto redisStorage KeySpace.empty path node) (cStr last.path)) record) :
    record ∈ last.records := by
  rw [cell_of_last free keys split fresh] at holds
  rcases sent_of_holds none holds with empty | found
  · exact absurd empty (not_holds_none record)
  · rcases found with ⟨made, direct, isSent⟩
    apply mem_records_of_sent free _ direct isSent
    rw [split]
    exact List.mem_append_right _ List.mem_cons_self

end Last

theorem lastKeepsAll_of_keepsRecords {path : ByteString} {node : Node}
    (keys : node.scalarKeys = true) (kept : KeepsRecords path node) :
    LastKeepsAll path node := by
  have holds : ∀ visit ∈ places path true node, ∀ record ∈ visit.records,
      Holds ((loadInto redisStorage KeySpace.empty path node) visit.path) record :=
    fun visit member record found =>
      kept visit.path record (hasRecord_iff.mpr ⟨visit, member, rfl, found⟩)
  have free : ∀ visit ∈ places path true node, ∀ record ∈ visit.records,
      NulFree visit.path ∧ record.NulFree := by
    intro visit member record found
    have held := holds visit member record found
    constructor
    · by_contra nul
      rw [cell_of_nul path node nul] at held
      exact not_holds_none record held
    · rw [loadInto, performAll_eq, executeAll, CellStore.executeAll_apply, commands_at] at held
      rcases sent_of_holds _ held with empty | later
      · exact absurd empty (not_holds_none record)
      · rcases later with ⟨made, -, isSent⟩
        exact nulFree_of_sent isSent
  refine ⟨free, ?_, ?_⟩
  · intro before last after split fresh record found other also clash
    have member : last ∈ places path true node := by
      rw [split]
      exact List.mem_append_right _ List.mem_cons_self
    exact not_clashes_of_holds (holds last member record found) (holds last member other also)
      clash
  · intro before last after split fresh earlier among same record found
    have member : earlier ∈ places path true node := by
      rw [split]
      exact List.mem_append_left _ among
    have held := holds earlier member record found
    rw [← cStr_of_nulFree (free earlier member record found).1, same] at held
    exact sent_of_last free keys split fresh held

theorem keepsRecords_of_lastKeepsAll {path : ByteString} {node : Node}
    (keys : node.scalarKeys = true) (kept : LastKeepsAll path node) :
    KeepsRecords path node := by
  intro place record has
  rcases hasRecord_iff.mp has with ⟨visit, member, rfl, found⟩
  have plain := (kept.free visit member record found).1
  have occurs : ∃ other ∈ places path true node, cStr other.path = visit.path :=
    ⟨visit, member, cStr_of_nulFree plain⟩
  rcases List.exists_last occurs with ⟨before, last, after, split, here, others⟩
  have fresh : ∀ later ∈ after, cStr later.path ≠ cStr last.path :=
    fun later inside same => others later inside (same.trans here)
  have lastMember : last ∈ places path true node := by
    rw [split]
    exact List.mem_append_right _ List.mem_cons_self
  have stays : record ∈ last.records := by
    rw [split, List.mem_append, List.mem_cons] at member
    rcases member with earlier | rfl | later
    · exact kept.keep before last after split fresh visit earlier
        ((cStr_of_nulFree plain).trans here.symm) found
    · exact found
    · exact absurd (cStr_of_nulFree plain) (others visit later)
  rw [← here, cell_of_last kept.free keys split fresh]
  have other : last.node.isScalar = false := by
    cases kind : last.node with
    | scalar value => simp [Visit.records, kind, directStores, StorageCall.record?] at stays
    | _ => rfl
  have sends : ∀ made ∈ directStores last.path last.node, ∀ original,
      made.record? = some original → sent made = some original := by
    intro made direct original isRecord
    have known : original ∈ last.records := List.mem_filterMap.mpr ⟨made, direct, isRecord⟩
    exact sent_of_nulFree isRecord (kept.free last lastMember original known).2
  rcases List.mem_filterMap.mp stays with ⟨made, direct, isRecord⟩
  apply holds_of_agree _ _ direct (sends made direct record isRecord)
  · intro made direct
    rcases record_of_directStores _ _ other made direct with ⟨original, isRecord⟩
    exact ⟨original, sends made direct original isRecord⟩
  · intro made direct next also first second firstSent secondSent
    exact kept.agree before last after split fresh
      first (mem_records_of_sent kept.free lastMember direct firstSent)
      second (mem_records_of_sent kept.free lastMember also secondSent)

theorem keepsRecords_iff (path : ByteString) {node : Node} (keys : node.scalarKeys = true) :
    KeepsRecords path node ↔ LastKeepsAll path node :=
  ⟨lastKeepsAll_of_keepsRecords keys, keepsRecords_of_lastKeepsAll keys⟩

/-- The entry `treasure` of `items.yml`, cut short. -/
def treasure : Node :=
  .sequence [
    .map [
      (some (text "name"), .scalar (text "chalice")),
      (some (text "cost"), .scalar (text "3cp"))],
    .map [
      (some (text "name"), .scalar (text "necklace")),
      (some (text "cost"), .scalar (text "3cp"))]]

/-- The entry `coins` of `items.yml` beside one of the treasures. -/
def coins : Node :=
  .map [
    (some (text "coins"), .sequence [.scalar (text "copper"), .scalar (text "silver")]),
    (some (text "treasure"), .sequence [
      .map [(some (text "name"), .scalar (text "chalice"))]])]

theorem not_keepsRecords_treasure : ¬ KeepsRecords (text "items:treasure") treasure := by
  intro kept
  have first : HasRecord (text "items:treasure") treasure (text "items:treasure")
      (.field (text "name") (text "chalice")) :=
    ⟨_, .item List.mem_cons_self (.here _ _), List.mem_cons_self⟩
  have second : HasRecord (text "items:treasure") treasure (text "items:treasure")
      (.field (text "name") (text "necklace")) :=
    ⟨_, .item (List.mem_cons_of_mem _ List.mem_cons_self) (.here _ _), List.mem_cons_self⟩
  exact not_clashes_of_holds (kept _ _ first) (kept _ _ second) (by decide)

theorem keepsRecords_iff_of_coins :
    KeepsRecords (text "items") coins ↔ LastKeepsAll (text "items") coins :=
  keepsRecords_iff (text "items") (by decide)

end Redis

end Pmud.Storage
