import Mathlib.Data.List.Forall2
import Pmud.Storage.Collections
import Pmud.Storage.RedisStorage

/-! # Decoding replies

`storage/redis_stream_injestor.h`, and what `map_get` does with its reply. A
reply is a tree whose nodes the server makes up.
-/

namespace Pmud.Storage.Redis

/-- What a `char*` points to: the bytes in front of the NUL that ends them. -/
structure CString where
  bytes : ByteString
  free : NulFree bytes
  deriving DecidableEq

def CString.of (bytes : ByteString) : CString where
  bytes := cStr bytes
  free := nulFree_cStr bytes

/-- The constants `REDIS_REPLY_…`. -/
inductive ReplyType
  | string
  | array
  | integer
  | nil
  | status
  | error
  | double
  | bool
  | map
  | set
  | attr
  | push
  | bignum
  | verb
  deriving DecidableEq, Repr

/-- `redisReply`. `str` is null at a node that is no string, and `elements` is the
length of `element`. -/
inductive RedisReply
  | node (type : ReplyType) (str : Option CString) (element : List RedisReply)

/-- Why a read is undefined. -/
inductive BadAccess
  | behindElements
  | nullStr
  deriving DecidableEq, Repr

namespace RedisReply

def type : RedisReply → ReplyType
  | .node type _ _ => type

def str : RedisReply → Option CString
  | .node _ str _ => str

def element : RedisReply → List RedisReply
  | .node _ _ element => element

def elements (reply : RedisReply) : Nat := reply.element.length

/-- `element[i]` -/
def elementAt (reply : RedisReply) (i : Nat) : Except BadAccess RedisReply :=
  match reply.element[i]? with
  | some found => .ok found
  | none => .error .behindElements

/-- A `string` made from `str`. -/
def string (reply : RedisReply) : Except BadAccess ByteString :=
  match reply.str with
  | some str => .ok str.bytes
  | none => .error .nullStr

end RedisReply

structure StreamRecord where
  timestamp : ByteString
  fields : StreamRecordFields

structure StreamResponse where
  streamName : ByteString
  records : List StreamRecord

/-- The loops of `_stream_record` and of `map_get` from the index `i` on. With an
odd number of elements the last value is behind them. -/
def fillFrom (reply : RedisReply) (i : Nat) (fields : MapType) : Except BadAccess MapType :=
  if i < reply.elements then do
    let value ← (← reply.elementAt (i + 1)).string
    let key ← (← reply.elementAt i).string
    fillFrom reply (i + 2) (fields.insert key value)
  else
    .ok fields
termination_by reply.elements - i

/-- The loops over records and over streams: an element with fewer than two
elements is logged and left out. -/
def decodeEntries {α : Type} (decode : ByteString → RedisReply → Except BadAccess α) :
    List RedisReply → Except BadAccess (List α)
  | [] => .ok []
  | entry :: rest =>
      if entry.elements < 2 then decodeEntries decode rest
      else do
        let name ← (← entry.elementAt 0).string
        let decoded ← decode name (← entry.elementAt 1)
        let others ← decodeEntries decode rest
        return decoded :: others

def streamRecord (timestamp : ByteString) (fields : RedisReply) :
    Except BadAccess StreamRecord := do
  let streamFields ← fillFrom fields 0 ∅
  return { timestamp := timestamp, fields := streamFields }

def streamResponse (streamName : ByteString) (records : RedisReply) :
    Except BadAccess StreamResponse := do
  let streamRecords ← decodeEntries streamRecord records.element
  return { streamName := streamName, records := streamRecords }

def constructStreamResponses (reply : RedisReply) : Except BadAccess (List StreamResponse) :=
  if reply.type ≠ .array then .ok []
  else decodeEntries streamResponse reply.element

/-- `map_get` from its reply on. -/
def mapOfReply (reply : RedisReply) : Except BadAccess (Option MapType) :=
  if reply.type = .map ∨ reply.type = .array then do
    let result ← fillFrom reply 0 ∅
    return some result
  else .ok none

/-! ## Pairs -/

/-- The elements from some index on, two at a time. -/
def fillPairs : MapType → List RedisReply → Except BadAccess MapType
  | fields, [] => .ok fields
  | _, [_] => .error .behindElements
  | fields, key :: value :: rest => do
      let valueText ← value.string
      let keyText ← key.string
      fillPairs (fields.insert keyText valueText) rest

/-- The empty string where there is none. -/
def RedisReply.text (reply : RedisReply) : ByteString :=
  (reply.str.map CString.bytes).getD []

/-- Field names with the values that follow them. -/
def pairs : List RedisReply → List (ByteString × ByteString)
  | key :: value :: rest => (key.text, value.text) :: pairs rest
  | _ => []

/-- Every field has a value, and all of them are strings. -/
def PairsFit (nodes : List RedisReply) : Prop :=
  nodes.length % 2 = 0 ∧ ∀ node ∈ nodes, node.str.isSome

theorem pairsFit_cons_cons {key value : RedisReply} {rest : List RedisReply} :
    PairsFit (key :: value :: rest) ↔ key.str.isSome ∧ value.str.isSome ∧ PairsFit rest := by
  have even : (key :: value :: rest).length % 2 = 0 ↔ rest.length % 2 = 0 := by
    rw [List.length_cons, List.length_cons]
    omega
  rw [PairsFit, PairsFit, even, List.forall_mem_cons, List.forall_mem_cons]
  tauto

theorem RedisReply.string_eq {reply : RedisReply} (isString : reply.str.isSome) :
    reply.string = .ok reply.text := by
  rcases Option.isSome_iff_exists.mp isString with ⟨str, found⟩
  simp [string, text, found]

theorem RedisReply.isSome_of_string {reply : RedisReply} {bytes : ByteString}
    (read : reply.string = .ok bytes) : reply.str.isSome := by
  cases found : reply.str with
  | none => simp [string, found] at read
  | some str => rfl

theorem Except.bind_eq_ok {ε α β : Type} {first : Except ε α} {next : α → Except ε β} {b : β} :
    first >>= next = .ok b ↔ ∃ a, first = .ok a ∧ next a = .ok b := by
  cases first with
  | error reason => simp [bind, Except.bind]
  | ok a => simp [bind, Except.bind]

theorem fillFrom_eq (reply : RedisReply) (i : Nat) (fields : MapType) :
    fillFrom reply i fields = fillPairs fields (reply.element.drop i) := by
  induction i, fields using fillFrom.induct reply with
  | case1 i fields within induction =>
      have here : i < reply.element.length := within
      have key : reply.elementAt i = .ok reply.element[i] := by
        rw [RedisReply.elementAt, List.getElem?_eq_getElem here]
      rw [fillFrom, if_pos within, key, List.drop_eq_getElem_cons here]
      by_cases more : i + 1 < reply.element.length
      · have value : reply.elementAt (i + 1) = .ok reply.element[i + 1] := by
          rw [RedisReply.elementAt, List.getElem?_eq_getElem more]
        rw [value, List.drop_eq_getElem_cons more]
        simp only [fillPairs, bind, Except.bind, induction]
      · have value : reply.elementAt (i + 1) = .error .behindElements := by
          rw [RedisReply.elementAt, List.getElem?_eq_none (Nat.le_of_not_lt more)]
        rw [value, List.drop_eq_nil_of_le (Nat.le_of_not_lt more)]
        rfl
  | case2 i fields outside =>
      rw [fillFrom, if_neg outside, List.drop_eq_nil_of_le (Nat.le_of_not_lt outside)]
      rfl

theorem fillPairs_of_fit {nodes : List RedisReply} (fit : PairsFit nodes) (fields : MapType) :
    fillPairs fields nodes = .ok (fields.putAll (pairs nodes)) := by
  induction nodes using pairs.induct generalizing fields with
  | case1 key value rest induction =>
      rcases pairsFit_cons_cons.mp fit with ⟨keyIs, valueIs, others⟩
      have later := induction others (fields.insert key.text value.text)
      rw [fillPairs, RedisReply.string_eq keyIs, RedisReply.string_eq valueIs]
      exact later
  | case2 nodes short =>
      cases nodes with
      | nil => rfl
      | cons key rest =>
          cases rest with
          | nil => simp [PairsFit] at fit
          | cons value others => exact absurd rfl (short key value others)

theorem fit_of_fillPairs {nodes : List RedisReply} {fields result : MapType}
    (filled : fillPairs fields nodes = .ok result) : PairsFit nodes := by
  induction nodes using pairs.induct generalizing fields with
  | case1 key value rest induction =>
      simp only [fillPairs, Except.bind_eq_ok] at filled
      rcases filled with ⟨valueText, valueRead, keyText, keyRead, later⟩
      exact pairsFit_cons_cons.mpr ⟨RedisReply.isSome_of_string keyRead,
        RedisReply.isSome_of_string valueRead, induction later⟩
  | case2 nodes short =>
      cases nodes with
      | nil => simp [PairsFit]
      | cons key rest =>
          cases rest with
          | nil => simp [fillPairs] at filled
          | cons value others => exact absurd rfl (short key value others)

theorem fillFrom_isOk_iff (reply : RedisReply) (fields : MapType) :
    (∃ result, fillFrom reply 0 fields = .ok result) ↔ PairsFit reply.element := by
  rw [fillFrom_eq, List.drop_zero]
  constructor
  · intro ends
    rcases ends with ⟨result, filled⟩
    exact fit_of_fillPairs filled
  · exact fun fit => ⟨_, fillPairs_of_fit fit fields⟩

/-! ## Entries -/

/-- If the entry is read at all, it has a name and its body fits. -/
def EntryFits (fits : RedisReply → Prop) : List RedisReply → Prop
  | name :: body :: _ => name.str.isSome ∧ fits body
  | _ => True

def EntriesFit (fits : RedisReply → Prop) (entries : List RedisReply) : Prop :=
  ∀ entry ∈ entries, EntryFits fits entry.element

/-- An entry is left out or has two elements to read. -/
theorem RedisReply.short_or_read (entry : RedisReply) :
    entry.elements < 2 ∨ ∃ name body more, entry.element = name :: body :: more := by
  rw [elements]
  cases entry.element with
  | nil => exact .inl (by simp)
  | cons name others => cases others with
    | nil => exact .inl (by simp)
    | cons body more => exact .inr ⟨name, body, more, rfl⟩

theorem entryFits_of_short (fits : RedisReply → Prop) {entry : RedisReply}
    (short : entry.elements < 2) : EntryFits fits entry.element := by
  rw [RedisReply.elements] at short
  cases shape : entry.element with
  | nil => trivial
  | cons name others => cases others with
    | nil => trivial
    | cons body more =>
        rw [shape, List.length_cons, List.length_cons] at short
        omega

section Entries

variable {α : Type} {decode : ByteString → RedisReply → Except BadAccess α}

theorem decodeEntries_short {entry : RedisReply} (short : entry.elements < 2)
    (rest : List RedisReply) :
    decodeEntries decode (entry :: rest) = decodeEntries decode rest :=
  if_pos short

theorem decodeEntries_read {entry name body : RedisReply} {more : List RedisReply}
    (shape : entry.element = name :: body :: more) (rest : List RedisReply) :
    decodeEntries decode (entry :: rest) = do
      let text ← name.string
      let decoded ← decode text body
      let others ← decodeEntries decode rest
      return decoded :: others := by
  have long : ¬ entry.elements < 2 := by
    simp [RedisReply.elements, shape]
  rw [decodeEntries, if_neg long]
  simp only [RedisReply.elementAt, shape, List.getElem?_cons_zero, List.getElem?_cons_succ]
  rfl

theorem decodeEntries_isOk_iff {fits : RedisReply → Prop}
    (each : ∀ text body, (∃ decoded, decode text body = .ok decoded) ↔ fits body)
    (entries : List RedisReply) :
    (∃ decoded, decodeEntries decode entries = .ok decoded) ↔ EntriesFit fits entries := by
  induction entries with
  | nil => exact ⟨fun _ _ member => absurd member List.not_mem_nil, fun _ => ⟨[], rfl⟩⟩
  | cons entry rest induction =>
      rw [EntriesFit, List.forall_mem_cons]
      rcases entry.short_or_read with short | ⟨name, body, more, shape⟩
      · rw [decodeEntries_short short, induction]
        exact ⟨fun later => ⟨entryFits_of_short fits short, later⟩, And.right⟩
      · rw [decodeEntries_read shape, shape, EntryFits]
        simp only [Except.bind_eq_ok]
        constructor
        · intro ends
          rcases ends with ⟨result, text, read, decoded, ok, others, later, -⟩
          exact ⟨⟨RedisReply.isSome_of_string read, (each text body).mp ⟨decoded, ok⟩⟩,
            induction.mp ⟨others, later⟩⟩
        · intro holds
          rcases holds with ⟨⟨named, fit⟩, later⟩
          rcases (each name.text body).mpr fit with ⟨decoded, ok⟩
          rcases induction.mpr later with ⟨others, laterOk⟩
          exact ⟨decoded :: others, name.text, RedisReply.string_eq named, decoded, ok, others,
            laterOk, rfl⟩

/-- One result for each entry with at least two elements, in their order. -/
theorem decodeEntries_forall₂ {entries : List RedisReply} {results : List α}
    (ends : decodeEntries decode entries = .ok results) :
    List.Forall₂ (fun entry result => ∃ name body more, entry.element = name :: body :: more ∧
        decode name.text body = .ok result)
      (entries.filter fun entry => 2 ≤ entry.elements) results := by
  induction entries generalizing results with
  | nil =>
      cases ends
      exact .nil
  | cons entry rest induction =>
      rcases entry.short_or_read with short | ⟨name, body, more, shape⟩
      · rw [decodeEntries_short short] at ends
        rw [List.filter_cons_of_neg (by simpa using short)]
        exact induction ends
      · have long : 2 ≤ entry.elements := by
          simp [RedisReply.elements, shape]
        rw [decodeEntries_read shape] at ends
        simp only [Except.bind_eq_ok] at ends
        rcases ends with ⟨text, read, decoded, ok, others, later, same⟩
        cases same
        rw [List.filter_cons_of_pos (by simpa using long)]
        have named := RedisReply.string_eq (RedisReply.isSome_of_string read)
        rw [named] at read
        cases read
        exact .cons ⟨name, body, more, shape, ok⟩ (induction later)

end Entries

/-! ## Staying in bounds -/

def RecordsFit (records : RedisReply) : Prop :=
  EntriesFit (fun fields => PairsFit fields.element) records.element

/-- What `construct_stream_responses` takes for granted. -/
def StreamsFit (reply : RedisReply) : Prop :=
  reply.type = .array → EntriesFit RecordsFit reply.element

/-- What `map_get` takes for granted. -/
def MapFits (reply : RedisReply) : Prop :=
  reply.type = .map ∨ reply.type = .array → PairsFit reply.element

theorem streamRecord_isOk_iff (timestamp : ByteString) (fields : RedisReply) :
    (∃ record, streamRecord timestamp fields = .ok record) ↔ PairsFit fields.element := by
  rw [← fillFrom_isOk_iff fields ∅]
  simp only [streamRecord, Except.bind_eq_ok]
  constructor
  · intro ends
    rcases ends with ⟨record, filled, ok, -⟩
    exact ⟨filled, ok⟩
  · intro ends
    rcases ends with ⟨filled, ok⟩
    exact ⟨_, filled, ok, rfl⟩

theorem streamResponse_isOk_iff (streamName : ByteString) (records : RedisReply) :
    (∃ response, streamResponse streamName records = .ok response) ↔ RecordsFit records := by
  rw [RecordsFit, ← decodeEntries_isOk_iff streamRecord_isOk_iff]
  simp only [streamResponse, Except.bind_eq_ok]
  constructor
  · intro ends
    rcases ends with ⟨response, decoded, ok, -⟩
    exact ⟨decoded, ok⟩
  · intro ends
    rcases ends with ⟨decoded, ok⟩
    exact ⟨_, decoded, ok, rfl⟩

theorem constructStreamResponses_isOk_iff (reply : RedisReply) :
    (∃ responses, constructStreamResponses reply = .ok responses) ↔ StreamsFit reply := by
  unfold constructStreamResponses StreamsFit
  by_cases array : reply.type = .array
  · rw [if_neg (not_not.mpr array), decodeEntries_isOk_iff streamResponse_isOk_iff]
    exact ⟨fun fit _ => fit, fun fit => fit array⟩
  · rw [if_pos array]
    exact ⟨fun _ isArray => absurd isArray array, fun _ => ⟨[], rfl⟩⟩

theorem mapOfReply_isOk_iff (reply : RedisReply) :
    (∃ result, mapOfReply reply = .ok result) ↔ MapFits reply := by
  unfold mapOfReply MapFits
  by_cases read : reply.type = .map ∨ reply.type = .array
  · rw [if_pos read, ← fillFrom_isOk_iff reply ∅]
    simp only [Except.bind_eq_ok]
    constructor
    · intro ends _
      rcases ends with ⟨result, filled, ok, -⟩
      exact ⟨filled, ok⟩
    · intro ends
      rcases ends read with ⟨filled, ok⟩
      exact ⟨_, filled, ok, rfl⟩
  · rw [if_neg read]
    exact ⟨fun _ isRead => absurd isRead read, fun _ => ⟨none, rfl⟩⟩

/-- Neither decoder reads behind the elements of a node or a null `str`. -/
def DecodedInBounds (reply : RedisReply) : Prop :=
  (∃ responses, constructStreamResponses reply = .ok responses) ∧
    ∃ result, mapOfReply reply = .ok result

theorem decodedInBounds_iff (reply : RedisReply) :
    DecodedInBounds reply ↔ StreamsFit reply ∧ MapFits reply :=
  and_congr (constructStreamResponses_isOk_iff reply) (mapOfReply_isOk_iff reply)

/-! ## What is decoded -/

/-- The name of an entry and what is decoded under it. -/
def RedisReply.nameText (entry : RedisReply) : Option ByteString :=
  entry.element[0]?.map RedisReply.text

def RedisReply.bodyElements (entry : RedisReply) : List RedisReply :=
  (entry.element[1]?.map RedisReply.element).getD []

/-- The entries that are not left out. -/
def entriesRead (entries : List RedisReply) : List RedisReply :=
  entries.filter fun entry => 2 ≤ entry.elements

/-- The record has the entry's name as its timestamp, and every field that is
named has the value behind its last name. -/
def RecordDecoded (entry : RedisReply) (record : StreamRecord) : Prop :=
  entry.nameText = some record.timestamp ∧
    ∀ field, record.fields[field]? = (pairs entry.bodyElements).reverse.lookup field

def StreamDecoded (entry : RedisReply) (response : StreamResponse) : Prop :=
  entry.nameText = some response.streamName ∧
    List.Forall₂ RecordDecoded (entriesRead entry.bodyElements) response.records

theorem lookup_putAll (map : MapType) (fields : List (ByteString × ByteString))
    (key : ByteString) :
    (map.putAll fields)[key]? = (fields.reverse.lookup key).or map[key]? := by
  induction fields generalizing map with
  | nil => rfl
  | cons field rest induction =>
      show (MapType.putAll (map.insert field.1 field.2) rest)[key]? = _
      rw [induction, getElem?_insert, List.reverse_cons, List.lookup_append, Option.or_assoc]
      congr 1
      rw [List.lookup_cons]
      by_cases same : field.1 = key
      · simp [same]
      · simp [same, beq_eq_false_iff_ne.mpr (Ne.symm same)]

theorem recordDecoded_of_streamRecord {entry name body : RedisReply} {more : List RedisReply}
    {record : StreamRecord} (shape : entry.element = name :: body :: more)
    (ok : streamRecord name.text body = .ok record) : RecordDecoded entry record := by
  simp only [streamRecord, Except.bind_eq_ok] at ok
  rcases ok with ⟨fields, filled, same⟩
  cases same
  rw [fillFrom_eq, List.drop_zero] at filled
  have whole := fillPairs_of_fit (fit_of_fillPairs filled) ∅
  rw [filled] at whole
  cases whole
  refine ⟨by simp [RedisReply.nameText, shape], ?_⟩
  intro field
  rw [lookup_putAll]
  simp [RedisReply.bodyElements, shape]

theorem streamDecoded_of_streamResponse {entry name body : RedisReply} {more : List RedisReply}
    {response : StreamResponse} (shape : entry.element = name :: body :: more)
    (ok : streamResponse name.text body = .ok response) : StreamDecoded entry response := by
  simp only [streamResponse, Except.bind_eq_ok] at ok
  rcases ok with ⟨records, decoded, same⟩
  cases same
  refine ⟨by simp [RedisReply.nameText, shape], ?_⟩
  have bodies : entry.bodyElements = body.element := by simp [RedisReply.bodyElements, shape]
  rw [entriesRead, bodies]
  apply (decodeEntries_forall₂ decoded).imp
  intro record result read
  rcases read with ⟨recordName, fields, others, recordShape, recordOk⟩
  exact recordDecoded_of_streamRecord recordShape recordOk

/-- Entries with fewer than two elements contribute nothing, and all others are
decoded in their order. -/
theorem constructStreamResponses_decoded {reply : RedisReply} (array : reply.type = .array)
    (typed : EntriesFit RecordsFit reply.element) :
    ∃ responses, constructStreamResponses reply = .ok responses ∧
      List.Forall₂ StreamDecoded (entriesRead reply.element) responses := by
  have fits : StreamsFit reply := fun _ => typed
  rcases (constructStreamResponses_isOk_iff reply).mpr fits with ⟨responses, ok⟩
  refine ⟨responses, ok, ?_⟩
  rw [constructStreamResponses, if_neg (not_not.mpr array)] at ok
  apply (decodeEntries_forall₂ ok).imp
  intro entry response read
  rcases read with ⟨name, body, more, shape, decoded⟩
  exact streamDecoded_of_streamResponse shape decoded

namespace RedisReply

/-- A node that is a string. -/
def stringNode (bytes : ByteString) : RedisReply := .node .string (some (.of bytes)) []

def arrayNode (element : List RedisReply) : RedisReply := .node .array none element

end RedisReply

open RedisReply

/-- A stream with one whole record among broken ones, and a stream without
records. -/
def mixedReply : RedisReply :=
  arrayNode [
    arrayNode [stringNode (text "lost")],
    arrayNode [stringNode (text "events"), arrayNode [
      arrayNode [stringNode (text "1-0")],
      arrayNode [stringNode (text "2-0"), arrayNode ([text "event", text "a", text "event",
        text "b"].map stringNode)],
      arrayNode []]],
    arrayNode [stringNode (text "empty"), arrayNode []]]

theorem constructStreamResponses_mixedReply :
    ∃ responses, constructStreamResponses mixedReply = .ok responses ∧
      List.Forall₂ StreamDecoded (entriesRead mixedReply.element) responses := by
  apply constructStreamResponses_decoded rfl
  simp [mixedReply, EntriesFit, EntryFits, RecordsFit, PairsFit, arrayNode, stringNode, element,
    str]

/-- A record of one field without a value. -/
def oddReply : RedisReply :=
  arrayNode [arrayNode [stringNode (text "events"),
    arrayNode [arrayNode [stringNode (text "1-0"), arrayNode [stringNode (text "event")]]]]]

theorem not_decodedInBounds_oddReply :
    constructStreamResponses oddReply = .error .behindElements ∧ ¬ DecodedInBounds oddReply := by
  have odd : constructStreamResponses oddReply = .error .behindElements := by
    simp [oddReply, arrayNode, stringNode, constructStreamResponses, decodeEntries,
      RedisReply.type, RedisReply.element, RedisReply.elements, RedisReply.elementAt,
      RedisReply.string, RedisReply.str, streamResponse, streamRecord, fillFrom_eq, fillPairs,
      bind, Except.bind]
  refine ⟨odd, ?_⟩
  intro holds
  rcases holds.1 with ⟨responses, ok⟩
  rw [odd] at ok
  cases ok

end Pmud.Storage.Redis
