import Pmud.Foundation.Fields
import Pmud.Storage.RedisStorage

/-! # Commands as text

What `raw` and `read_stream_raw` of `storage/redis_storage.h` send: a text that
`redisCommand` cuts into arguments at its blanks.
-/

namespace Pmud.Storage.Redis

open Foundation

def blank : UInt8 := 32

/-- The text ends at its first NUL byte. -/
def arguments (command : ByteString) : List ByteString := wordsFrom blank [] (cStr command)

/-- An argument that stands in a text as it is: it is not empty, and none of its bytes is a blank,
a NUL byte or the sign of a conversion. -/
structure IsWord (word : ByteString) : Prop where
  nonempty : word ≠ []
  plain : ∀ byte ∈ word, byte ≠ 0 ∧ byte ≠ blank ∧ byte ≠ '%'.toUInt8

theorem isWord_iff (word : ByteString) :
    word ≠ [] ∧ word.all (fun byte => byte ≠ 0 ∧ byte ≠ blank ∧ byte ≠ '%'.toUInt8) = true ↔
      IsWord word := by
  rw [List.all_eq_true]
  constructor
  · intro parts
    exact ⟨parts.1, fun byte member => of_decide_eq_true (parts.2 byte member)⟩
  · intro word
    exact ⟨word.nonempty, fun byte member => decide_eq_true (word.plain byte member)⟩

instance (word : ByteString) : Decidable (IsWord word) := decidable_of_iff _ (isWord_iff word)

/-- Words with a blank between them. -/
def sentence (words : List ByteString) : ByteString := [blank].intercalate words

theorem nulFree_sentence {words : List ByteString} (each : ∀ word ∈ words, IsWord word) :
    NulFree (sentence words) := by
  have letters : ∀ word ∈ words, (0 : UInt8) ∉ word := by
    intro word member zero
    exact ((each word member).plain 0 zero).1 rfl
  rw [NulFree]
  induction words with
  | nil => exact List.not_mem_nil
  | cons word rest induction =>
      rw [List.forall_mem_cons] at each letters
      rcases rest with _ | ⟨next, rest⟩
      · rw [sentence, List.intercalate_singleton]
        exact letters.1
      · have tail := induction each.2 letters.2
        rw [sentence, List.intercalate_cons_cons, ← sentence, List.mem_append, List.mem_append]
        rintro ((first | between) | later)
        · exact letters.1 first
        · exact absurd between (by decide)
        · exact tail later

/-- Words arrive as they were sent. -/
theorem arguments_sentence {words : List ByteString} (each : ∀ word ∈ words, IsWord word) :
    arguments (sentence words) = words := by
  rw [arguments, cStr_of_nulFree (nulFree_sentence each), sentence]
  apply wordsFrom_intercalate
  intro word member
  exact ⟨(each word member).nonempty,
    fun inside => ((each word member).plain blank inside).2.1 rfl⟩

end Pmud.Storage.Redis
