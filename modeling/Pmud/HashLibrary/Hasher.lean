import Pmud.Common.ByteString
import Pmud.Foundation.Blocks
import Pmud.Foundation.Memory

/-! # The frame of the hash classes

`common/hash-library`: `SHA256`, `SHA1`, `MD5`, `Keccak` and `SHA3` buffer their
input by the same `add`. They differ in the block size and in `processBlock`,
which reads one block from the address it is given.
-/

namespace Pmud.HashLibrary

open Foundation

/-- The members of a hash object; `m_buffer` has room for `capacity` bytes. -/
structure Hasher (Hash : Type) (capacity : Nat) where
  numBytes : BitVec 64
  bufferSize : Nat
  buffer : Vector UInt8 capacity
  hash : Hash

namespace Hasher

variable {Hash : Type} {capacity : Nat} (blockSize : Nat)
  (processBlock : Hash → List UInt8 → Hash)

/-- `processBlock(data)` with the memory from `data` on. -/
def process (self : Hasher Hash capacity) (data : List UInt8) : Option (Hasher Hash capacity) :=
  if blockSize ≤ data.length then
    some { self with hash := processBlock self.hash (data.take blockSize) }
  else
    none

/-- `m_buffer[m_bufferSize++] = *current++`. -/
def keep (self : Hasher Hash capacity) : List UInt8 → Option (Hasher Hash capacity × List UInt8)
  | [] => none
  | byte :: current =>
      (Memory.store self.buffer self.bufferSize byte).map fun buffer =>
        ({ self with buffer, bufferSize := self.bufferSize + 1 }, current)

/-- `while (numBytes > 0 && m_bufferSize < BlockSize)`. -/
def fillBuffer (self : Hasher Hash capacity) (current : List UInt8) :
    Nat → Option (Hasher Hash capacity × List UInt8 × Nat)
  | 0 => some (self, current, 0)
  | numBytes + 1 =>
      if self.bufferSize < blockSize then
        (self.keep current).bind fun kept => fillBuffer kept.1 kept.2 numBytes
      else
        some (self, current, numBytes + 1)

/-- `if (m_bufferSize == BlockSize)`. -/
def flushFull (self : Hasher Hash capacity) : Option (Hasher Hash capacity) :=
  if self.bufferSize = blockSize then
    (self.process blockSize processBlock self.buffer.toList).map fun processed =>
      { processed with numBytes := self.numBytes + BitVec.ofNat 64 blockSize, bufferSize := 0 }
  else
    some self

/-- `while (numBytes >= BlockSize)`, with a bound on the iterations. -/
def processFullBlocks : Nat → Hasher Hash capacity → List UInt8 → Nat →
    Option (Hasher Hash capacity × List UInt8 × Nat)
  | 0, self, current, numBytes =>
      if blockSize ≤ numBytes then none else some (self, current, numBytes)
  | fuel + 1, self, current, numBytes =>
      if blockSize ≤ numBytes then
        (self.process blockSize processBlock current).bind fun processed =>
          processFullBlocks fuel
            { processed with numBytes := self.numBytes + BitVec.ofNat 64 blockSize }
            (current.drop blockSize) (numBytes - blockSize)
      else
        some (self, current, numBytes)

/-- `while (numBytes > 0)`. -/
def keepRemaining (self : Hasher Hash capacity) (current : List UInt8) :
    Nat → Option (Hasher Hash capacity)
  | 0 => some self
  | numBytes + 1 => (self.keep current).bind fun kept => keepRemaining kept.1 kept.2 numBytes

/-- What `add` does behind `if (numBytes == 0) return;`. -/
def addBlocks (self : Hasher Hash capacity) (current : List UInt8) (numBytes : Nat) :
    Option (Hasher Hash capacity) :=
  if numBytes = 0 then
    some self
  else
    (processFullBlocks blockSize processBlock numBytes self current numBytes).bind
      fun (self, current, numBytes) => self.keepRemaining current numBytes

/-- `none` is an access out of bounds. -/
def add (self : Hasher Hash capacity) (data : List UInt8) (numBytes : Nat) :
    Option (Hasher Hash capacity) :=
  let started :=
    if 0 < self.bufferSize then self.fillBuffer blockSize data numBytes
    else some (self, data, numBytes)
  started.bind fun (self, current, numBytes) =>
    (self.flushFull blockSize processBlock).bind fun self =>
      self.addBlocks blockSize processBlock current numBytes

/-- The bytes that wait in the buffer. -/
structure Waiting (hasher : Hasher Hash capacity) (rest : List UInt8) : Prop where
  size : hasher.bufferSize = rest.length
  content : ∃ free, hasher.buffer.toList = rest ++ free

/-- Filling the buffer leaves the rest of the object alone. -/
structure SameHash (before behind : Hasher Hash capacity) : Prop where
  hash : behind.hash = before.hash
  numBytes : behind.numBytes = before.numBytes

variable {blockSize processBlock} {self : Hasher Hash capacity} {rest : List UInt8}

theorem Waiting.length_le (waiting : Waiting self rest) : rest.length ≤ capacity := by
  rcases waiting.content with ⟨free, content⟩
  have total := congrArg List.length content
  simp only [Vector.length_toList, List.length_append] at total
  omega

theorem Waiting.congr {other : Hasher Hash capacity} (waiting : Waiting self rest)
    (size : other.bufferSize = self.bufferSize) (buffer : other.buffer = self.buffer) :
    Waiting other rest :=
  ⟨size.trans waiting.size, by rw [buffer]; exact waiting.content⟩

theorem keep_eq_some (waiting : Waiting self rest) (room : rest.length < capacity)
    (byte : UInt8) (current : List UInt8) :
    ∃ next, self.keep (byte :: current) = some (next, current) ∧
      Waiting next (rest ++ [byte]) ∧ SameHash self next := by
  rcases waiting.content with ⟨free, content⟩
  rcases free with _ | ⟨old, back⟩
  · have total := congrArg List.length content
    simp only [Vector.length_toList, List.append_nil] at total
    omega
  · rcases Memory.store_piece content byte with ⟨buffer, stored, written⟩
    refine ⟨{ self with buffer, bufferSize := self.bufferSize + 1 }, ?_, ⟨?_, back, ?_⟩, rfl, rfl⟩
    · rw [keep, waiting.size, stored, Option.map_some]
    · simp [waiting.size]
    · simp [written]

theorem keepRemaining_eq_some (waiting : Waiting self rest) (data : List UInt8)
    (room : rest.length + data.length ≤ capacity) :
    ∃ next, self.keepRemaining data data.length = some next ∧
      Waiting next (rest ++ data) ∧ SameHash self next := by
  induction data generalizing self rest with
  | nil => exact ⟨self, rfl, by simpa using waiting, rfl, rfl⟩
  | cons byte data induction =>
      rw [List.length_cons] at room
      rcases keep_eq_some waiting (by omega) byte data with ⟨kept, taken, here, same⟩
      have enough : (rest ++ [byte]).length + data.length ≤ capacity := by
        rw [List.length_append, List.length_singleton]
        omega
      rcases induction here enough with ⟨next, ran, there, later⟩
      refine ⟨next, ?_, by simpa using there, later.hash.trans same.hash,
        later.numBytes.trans same.numBytes⟩
      rw [List.length_cons, keepRemaining, taken, Option.bind_some, ran]

theorem fillBuffer_eq_some (waiting : Waiting self rest) (fits : blockSize ≤ capacity)
    (data : List UInt8) :
    let count := min data.length (blockSize - rest.length)
    ∃ next, self.fillBuffer blockSize data data.length =
        some (next, data.drop count, (data.drop count).length) ∧
      Waiting next (rest ++ data.take count) ∧ SameHash self next := by
  induction data generalizing self rest with
  | nil => exact ⟨self, by simp [fillBuffer], by simpa using waiting, rfl, rfl⟩
  | cons byte data induction =>
      intro count
      by_cases room : rest.length < blockSize
      · rcases keep_eq_some waiting (by omega) byte data with ⟨kept, taken, here, same⟩
        rcases induction here with ⟨next, ran, there, later⟩
        have next_count : count =
            min data.length (blockSize - (rest ++ [byte]).length) + 1 := by
          simp only [count, List.length_cons, List.length_append, List.length_nil]
          omega
        rw [next_count, List.drop_succ_cons, List.take_succ_cons]
        refine ⟨next, ?_, by simpa using there, later.hash.trans same.hash,
          later.numBytes.trans same.numBytes⟩
        rw [List.length_cons, fillBuffer, if_pos (by rw [waiting.size]; exact room), taken,
          Option.bind_some, ran]
      · have none_taken : count = 0 := by
          simp only [count]
          omega
        rw [none_taken, List.drop_zero, List.take_zero, List.append_nil]
        refine ⟨self, ?_, waiting, rfl, rfl⟩
        rw [List.length_cons, fillBuffer, if_neg (by rw [waiting.size]; exact room)]

theorem processFullBlocks_eq_some (processBlock : Hash → List UInt8 → Hash)
    (self : Hasher Hash capacity) (positive : 0 < blockSize) (data : List UInt8) (fuel : Nat)
    (enough : data.length ≤ fuel) :
    ∃ next, processFullBlocks blockSize processBlock fuel self data data.length =
        some (next, (Blocks.absorb blockSize processBlock self.hash data).2,
          (Blocks.absorb blockSize processBlock self.hash data).2.length) ∧
      next.hash = (Blocks.absorb blockSize processBlock self.hash data).1 ∧
      next.buffer = self.buffer ∧ next.bufferSize = self.bufferSize ∧
      next.numBytes +
          BitVec.ofNat 64 (Blocks.absorb blockSize processBlock self.hash data).2.length =
        self.numBytes + BitVec.ofNat 64 data.length := by
  induction data using Blocks.block_induction positive generalizing self fuel with
  | short data small =>
      rw [Blocks.absorb_of_short small]
      refine ⟨self, ?_, rfl, rfl, rfl, rfl⟩
      cases fuel <;> rw [processFullBlocks, if_neg (by omega)]
  | block block data full induction =>
      rw [List.length_append, full] at enough
      rcases fuel with _ | fuel
      · omega
      · let processed : Hasher Hash capacity :=
          { self with
            hash := processBlock self.hash block
            numBytes := self.numBytes + BitVec.ofNat 64 blockSize }
        rcases induction processed fuel (by omega) with
          ⟨next, ran, hash, buffer, size, count⟩
        rw [Blocks.absorb_block positive full]
        refine ⟨next, ?_, hash, buffer, size, ?_⟩
        · have long : blockSize ≤ (block ++ data).length := by
            rw [List.length_append]
            omega
          have left : (block ++ data).length - blockSize = data.length := by
            rw [List.length_append]
            omega
          rw [processFullBlocks, if_pos long, process, if_pos long, Option.bind_some,
            List.take_left' full, List.drop_left' full, left]
          exact ran
        · rw [count, List.length_append, full, BitVec.ofNat_add, BitVec.add_assoc]

/-- The state of an object whose buffer holds what `added` bytes leave behind their full
blocks. -/
structure Absorbed (blockSize : Nat) (processBlock : Hash → List UInt8 → Hash)
    (before : Hasher Hash capacity) (added : List UInt8) (behind : Hasher Hash capacity) :
    Prop where
  hash : behind.hash = (Blocks.absorb blockSize processBlock before.hash added).1
  waiting : Waiting behind (Blocks.absorb blockSize processBlock before.hash added).2
  numBytes :
    behind.numBytes +
        BitVec.ofNat 64 (Blocks.absorb blockSize processBlock before.hash added).2.length =
      before.numBytes + BitVec.ofNat 64 added.length

theorem addBlocks_eq_some (processBlock : Hash → List UInt8 → Hash)
    (waiting : Waiting self []) (positive : 0 < blockSize)
    (fits : blockSize ≤ capacity) (data : List UInt8) :
    ∃ next, self.addBlocks blockSize processBlock data data.length = some next ∧
      Absorbed blockSize processBlock self data next := by
  by_cases nothing : data.length = 0
  · have empty : data = [] := List.eq_nil_of_length_eq_zero nothing
    subst empty
    have short : ([] : List UInt8).length < blockSize := positive
    refine ⟨self, rfl, ?_⟩
    constructor <;> rw [Blocks.absorb_of_short short]
    exact waiting
  · rcases processFullBlocks_eq_some processBlock self positive data data.length
      (Nat.le_refl _) with ⟨middle, ran, hash, buffer, size, count⟩
    have room := Blocks.absorb_rest_lt processBlock positive self.hash data
    rcases keepRemaining_eq_some (waiting.congr size buffer)
      (Blocks.absorb blockSize processBlock self.hash data).2
      (by rw [List.length_nil]; omega) with ⟨next, kept, there, same⟩
    refine ⟨next, ?_, same.hash.trans hash, there, by rw [same.numBytes, count]⟩
    rw [addBlocks, if_neg nothing, ran]
    exact kept

theorem flushFull_of_short (waiting : Waiting self rest) (short : rest.length < blockSize) :
    self.flushFull blockSize processBlock = some self := by
  rw [flushFull, if_neg (by rw [waiting.size]; omega)]

theorem flushFull_of_full (processBlock : Hash → List UInt8 → Hash)
    (waiting : Waiting self rest) (full : rest.length = blockSize) :
    ∃ next, self.flushFull blockSize processBlock = some next ∧ Waiting next [] ∧
      next.hash = processBlock self.hash rest ∧
      next.numBytes = self.numBytes + BitVec.ofNat 64 blockSize := by
  rcases waiting.content with ⟨free, content⟩
  let flushed : Hasher Hash capacity :=
    { self with
      hash := processBlock self.hash rest
      numBytes := self.numBytes + BitVec.ofNat 64 blockSize
      bufferSize := 0 }
  refine ⟨flushed, ?_, ⟨rfl, self.buffer.toList, rfl⟩, rfl, rfl⟩
  rw [flushFull, if_pos (waiting.size.trans full), process, content,
    if_pos (by rw [List.length_append]; omega), List.take_left' full, Option.map_some]

/-- Adding is absorbing what waited and what came. -/
theorem add_eq_some (waiting : Waiting self rest) (small : rest.length < blockSize)
    (fits : blockSize ≤ capacity) (data : List UInt8) :
    ∃ next, self.add blockSize processBlock data data.length = some next ∧
      Absorbed blockSize processBlock self (rest ++ data) next := by
  have positive : 0 < blockSize := by omega
  rcases rest with _ | ⟨head, tail⟩
  · rcases addBlocks_eq_some processBlock waiting positive fits data with
      ⟨next, ran, absorbed⟩
    refine ⟨next, ?_, absorbed⟩
    rw [add, if_neg (by rw [waiting.size]; simp), Option.bind_some]
    dsimp only
    rw [flushFull_of_short waiting small]
    exact ran
  · generalize both : head :: tail = rest at *
    have busy : 0 < self.bufferSize := by
      rw [waiting.size, ← both]
      simp
    rcases fillBuffer_eq_some waiting fits data with ⟨filled, ran, here, same⟩
    rw [add, if_pos busy, ran]
    by_cases short : rest.length + data.length < blockSize
    · -- All data fits behind what waits, and the block is not full.
      have all : min data.length (blockSize - rest.length) = data.length := by omega
      rw [all, List.take_length] at here
      have still : (rest ++ data).length < blockSize := by
        rw [List.length_append]
        exact short
      refine ⟨filled, ?_, ?_⟩
      · rw [Option.bind_some, all, List.drop_length]
        dsimp only
        rw [flushFull_of_short here still]
        rfl
      · constructor <;> rw [Blocks.absorb_of_short still]
        · exact same.hash
        · exact here
        · rw [same.numBytes]
    · have part : min data.length (blockSize - rest.length) = blockSize - rest.length := by omega
      rw [part] at here ran ⊢
      have full : (rest ++ data.take (blockSize - rest.length)).length = blockSize := by
        rw [List.length_append, List.length_take]
        omega
      rcases flushFull_of_full processBlock here full with
        ⟨flushed, done, empty, hash, count⟩
      rcases addBlocks_eq_some processBlock empty positive fits
        (data.drop (blockSize - rest.length)) with ⟨next, later, absorbed⟩
      have whole : rest ++ data = (rest ++ data.take (blockSize - rest.length)) ++
          data.drop (blockSize - rest.length) := by simp
      have flushedHash : flushed.hash =
          processBlock self.hash (rest ++ data.take (blockSize - rest.length)) := by
        rw [hash, same.hash]
      refine ⟨next, ?_, ?_⟩
      · rw [Option.bind_some]
        dsimp only
        rw [done]
        exact later
      · constructor <;> rw [whole, Blocks.absorb_block positive full, ← flushedHash]
        · exact absorbed.hash
        · exact absorbed.waiting
        · rw [absorbed.numBytes, count, same.numBytes, List.length_append, full,
            BitVec.ofNat_add, BitVec.add_assoc]

/-- The object stands for the bytes it has been given since it held `initial`. -/
structure Represents (blockSize : Nat) (processBlock : Hash → List UInt8 → Hash)
    (initial : Hash) (hasher : Hasher Hash capacity) (message : List UInt8) : Prop where
  hash : hasher.hash = (Blocks.absorb blockSize processBlock initial message).1
  waiting : Waiting hasher (Blocks.absorb blockSize processBlock initial message).2
  numBytes :
    hasher.numBytes +
        BitVec.ofNat 64 (Blocks.absorb blockSize processBlock initial message).2.length =
      BitVec.ofNat 64 message.length

theorem Represents.add {initial : Hash} {message : List UInt8}
    (represents : Represents blockSize processBlock initial self message)
    (positive : 0 < blockSize) (fits : blockSize ≤ capacity) (data : List UInt8) :
    ∃ next, self.add blockSize processBlock data data.length = some next ∧
      Represents blockSize processBlock initial next (message ++ data) := by
  have small := Blocks.absorb_rest_lt processBlock positive initial message
  rcases add_eq_some represents.waiting small fits data with ⟨next, added, absorbed⟩
  refine ⟨next, added, ?_⟩
  constructor <;> rw [Blocks.absorb_append positive, ← represents.hash]
  · exact absorbed.hash
  · exact absorbed.waiting
  · rw [absorbed.numBytes, List.length_append, BitVec.ofNat_add, ← BitVec.add_assoc,
      represents.numBytes, List.length_append, BitVec.ofNat_add]

end Hasher

end Pmud.HashLibrary
