import Mathlib.Data.Prod.Lex
import Pmud.Event.EventRecords

/-! # Streams on the server

The ids of entries, their text, and what `XADD` and `XREAD` do with them.
-/

namespace Pmud.Storage.Redis

open Pmud.Foundation Pmud.Event

/-- The milliseconds of an entry, and its number among those of the same one. -/
abbrev EntryId := Nat ×ₗ Nat

def hyphen : UInt8 := '-'.toUInt8

/-- A number in decimal digits. -/
def number (digits : ByteString) : Option Nat :=
  let chars := digits.map fun byte => Char.ofNat byte.toNat
  if chars ≠ [] ∧ chars.all Char.isDigit = true then some (Nat.ofDigitChars 10 chars 0) else none

namespace EntryId

/-- No entry has this id. -/
def zero : EntryId := toLex (0, 0)

def toText (id : EntryId) : ByteString :=
  text (toString (ofLex id).1) ++ hyphen :: text (toString (ofLex id).2)

/-- A position in a command. Milliseconds alone mean the number 0. -/
def parse (position : ByteString) : Option EntryId :=
  match position.dropWhile (· ≠ hyphen) with
  | [] => (number position).map fun ms => toLex (ms, 0)
  | _ :: seq => (number (position.takeWhile (· ≠ hyphen))).bind fun ms =>
      (number seq).map fun seq => toLex (ms, seq)

end EntryId

structure Entry where
  id : EntryId
  fields : List (ByteString × ByteString)
  deriving DecidableEq

/-- An entry as it is found in the responses. -/
def Entry.record (entry : Entry) : StreamRecord := found entry.id.toText entry.fields

/-- The ids of the entries are positive and increase. -/
structure Stream where
  entries : List Entry
  ordered : (EntryId.zero :: entries.map Entry.id).Pairwise (· < ·)

namespace Stream

def empty : Stream where
  entries := []
  ordered := List.pairwise_singleton _ _

/-- `XADD` refuses an id that is not greater than all before. -/
def add (stream : Stream) (entry : Entry) : Option Stream :=
  if greater : ∀ id ∈ EntryId.zero :: stream.entries.map Entry.id, id < entry.id then
    some
      { entries := stream.entries ++ [entry]
        ordered := by
          rw [List.map_append, ← List.cons_append, List.pairwise_append]
          refine ⟨stream.ordered, List.pairwise_singleton _ _, fun id member last other => ?_⟩
          rw [List.mem_singleton.mp other]
          exact greater id member }
  else none

/-- What is found behind a position, so many entries at most. -/
def behind (stream : Stream) (count : Nat) (position : EntryId) : List Entry :=
  (stream.entries.filter fun entry => position < entry.id).take count

/-- The answer of `XREAD` from the time on when there is an entry behind the
position. -/
def xread (stream : Stream) (count : Nat) (name position : ByteString) : Option RedisReply :=
  (EntryId.parse position).bind fun position =>
    if stream.behind count position = [] then none
    else some (streamReply name ((stream.behind count position).map fun entry =>
      (entry.id.toText, entry.fields)))

end Stream

/-! ## Positions -/

/-- The bytes of a number are those of its digits. -/
theorem text_number (n : Nat) :
    text (toString n) = (Nat.toDigits 10 n).map fun c => UInt8.ofNat c.toNat := by
  rw [text, Nat.toString_eq_repr, Nat.toList_repr]

theorem digit_bounds {n : Nat} {c : Char} (member : c ∈ Nat.toDigits 10 n) :
    48 ≤ c.toNat ∧ c.toNat ≤ 57 :=
  Char.isDigit_iff_toNat.mp (Nat.isDigit_of_mem_toDigits (by decide) (by decide) member)

theorem byte_bounds {n : Nat} {byte : UInt8} (member : byte ∈ text (toString n)) :
    48 ≤ byte.toNat ∧ byte.toNat ≤ 57 := by
  rw [text_number] at member
  rcases List.mem_map.mp member with ⟨c, digit, rfl⟩
  have bounds := digit_bounds digit
  rw [UInt8.toNat_ofNat', Nat.mod_eq_of_lt (by omega)]
  exact bounds

theorem hyphen_not_mem (n : Nat) : hyphen ∉ text (toString n) := by
  intro member
  exact absurd (byte_bounds member).1 (by decide)

theorem number_text (n : Nat) : number (text (toString n)) = some n := by
  have digits : ∀ c ∈ Nat.toDigits 10 n, c.isDigit = true := fun c member =>
    Nat.isDigit_of_mem_toDigits (by decide) (by decide) member
  have chars : (text (toString n)).map (fun byte => Char.ofNat byte.toNat) =
      Nat.toDigits 10 n := by
    rw [text_number, List.map_map]
    apply List.map_eq_self
    intro c member
    have bounds := digit_bounds member
    simp only [Function.comp_apply]
    rw [UInt8.toNat_ofNat', Nat.mod_eq_of_lt (by omega), Char.ofNat_toNat]
  simp only [number, chars]
  rw [if_pos ⟨Nat.toDigits_ne_nil, List.all_eq_true.mpr digits⟩, Nat.ofDigitChars_ten_toDigits]

namespace EntryId

theorem nulFree_toText (id : EntryId) : NulFree id.toText := by
  intro zero
  rcases List.mem_append.mp zero with ms | rest
  · exact absurd (byte_bounds ms).1 (by decide)
  · rcases List.mem_cons.mp rest with sign | seq
    · exact absurd sign (by decide)
    · exact absurd (byte_bounds seq).1 (by decide)

/-- The server understands the ids that it gives out. -/
theorem parse_toText (id : EntryId) : parse id.toText = some id := by
  have before : ∀ byte ∈ text (toString (ofLex id).1), decide (byte ≠ hyphen) = true := by
    intro byte member
    exact decide_eq_true fun same => hyphen_not_mem _ (same ▸ member)
  rw [parse, toText, List.dropWhile_append_of_pos before, List.takeWhile_append_of_pos before,
    List.dropWhile_cons_of_neg (by simp), List.takeWhile_cons_of_neg (by simp), List.append_nil]
  simp only [number_text, Option.bind_some, Option.map_some]
  rfl

theorem parse_start : parse (text "0") = some zero := rfl

end EntryId

/-! ## Reading from a position -/

/-- The id of the last of some entries. -/
def lastId (entries : List Entry) : EntryId := (entries.map Entry.id).getLastD .zero

theorem lastId_concat (entries : List Entry) (entry : Entry) :
    lastId (entries ++ [entry]) = entry.id := by
  simp [lastId, List.getLastD_eq_getLast?]

theorem Stream.behind_lastId (stream : Stream) {seen rest : List Entry}
    (split : stream.entries = seen ++ rest) (count : Nat) :
    stream.behind count (lastId seen) = rest.take count := by
  have ordered := stream.ordered
  rw [split, List.map_append, ← List.cons_append, List.pairwise_append] at ordered
  rcases ordered with ⟨seenOrdered, -, apart⟩
  rw [Stream.behind, split, List.filter_append]
  rcases List.eq_nil_or_concat seen with rfl | ⟨others, last, rfl⟩
  · have all : rest.filter (fun entry => lastId [] < entry.id) = rest := by
      refine List.filter_eq_self.mpr fun entry member => decide_eq_true ?_
      exact apart _ List.mem_cons_self _ (List.mem_map_of_mem member)
    rw [all]
    rfl
  · rw [List.concat_eq_append] at *
    rw [lastId_concat]
    have none : (others ++ [last]).filter (fun entry => last.id < entry.id) = [] := by
      rw [List.filter_eq_nil_iff]
      intro entry member greater
      have behind : last.id < entry.id := of_decide_eq_true greater
      rw [List.map_append, ← List.cons_append, List.pairwise_append] at seenOrdered
      rcases List.mem_append.mp member with other | same
      · have before : entry.id < last.id := seenOrdered.2.2 _
          (List.mem_cons_of_mem _ (List.mem_map_of_mem other)) _ (by simp)
        exact lt_asymm before behind
      · rw [List.mem_singleton.mp same] at behind
        exact lt_irrefl _ behind
    have all : rest.filter (fun entry => last.id < entry.id) = rest := by
      refine List.filter_eq_self.mpr fun entry member => decide_eq_true ?_
      exact apart _ (by simp) _ (List.mem_map_of_mem member)
    rw [none, all, List.nil_append]

theorem Entry.record_timestamp (entry : Entry) : entry.record.timestamp = entry.id.toText :=
  cStr_of_nulFree entry.id.nulFree_toText

end Pmud.Storage.Redis
