import Mathlib.Data.List.GetD
import Pmud.HashLibrary.HashMethod
import Pmud.HashLibrary.KeccakRounds

/-! # Keccak and SHA3

`common/hash-library/keccak.cpp` and `sha3.cpp`: two classes that differ in the
first byte of the padding only. The hash is the front of a sponge that has
absorbed the padded message.
-/

namespace Pmud.HashLibrary.Keccak

open Foundation

inductive Bits
  | bits224
  | bits256
  | bits384
  | bits512
  deriving DecidableEq

def Bits.number : Bits → Nat
  | .bits224 => 224
  | .bits256 => 256
  | .bits384 => 384
  | .bits512 => 512

/-- `m_blockSize`. -/
def Bits.blockSize (bits : Bits) : Nat := 200 - 2 * (bits.number / 8)

inductive Class
  | keccak
  | sha3
  deriving DecidableEq

/-- What `processBuffer` puts behind the message. -/
def Class.mark : Class → UInt8
  | .keccak => 1
  | .sha3 => 0x06

def maxBlockSize : Nat := 200 - 2 * (224 / 8)

/-- The word whose least byte is the first one. -/
def word64 (a b c d e f g h : UInt8) : BitVec 64 := word32 e f g h ++ word32 a b c d

/-- What a machine of this byte order reads at eight bytes. -/
def load64 (host : ByteOrder) (a b c d e f g h : UInt8) : BitVec 64 :=
  match host with
  | .little => word64 a b c d e f g h
  | .big => word64 h g f e d c b a

def swap64 (x : BitVec 64) : BitVec 64 :=
  (x >>> 56) |||
    ((x >>> 40) &&& 0x000000000000FF00#64) |||
    ((x >>> 24) &&& 0x0000000000FF0000#64) |||
    ((x >>> 8) &&& 0x00000000FF000000#64) |||
    ((x <<< 8) &&& 0x000000FF00000000#64) |||
    ((x <<< 24) &&& 0x0000FF0000000000#64) |||
    ((x <<< 40) &&& 0x00FF000000000000#64) |||
    (x <<< 56)

/-- `LITTLEENDIAN(x)`. -/
def littleEndian (host : ByteOrder) (x : BitVec 64) : BitVec 64 :=
  match host with
  | .little => x
  | .big => swap64 x

/-- The words at the front of a piece of memory. -/
def words64 (load : UInt8 → UInt8 → UInt8 → UInt8 → UInt8 → UInt8 → UInt8 → UInt8 → BitVec 64) :
    List UInt8 → List (BitVec 64)
  | a :: b :: c :: d :: e :: f :: g :: h :: rest => load a b c d e f g h :: words64 load rest
  | _ => []

/-- `processBlock`. -/
def processBlock (host : ByteOrder) (bits : Bits) (hash : Lanes) (data : List UInt8) : Lanes :=
  let data64 := words64 (load64 host) data
  let mixed := (List.range (bits.blockSize / 8)).foldl
    (fun hash i => xorAt hash i (littleEndian host (data64.getD i 0))) hash
  recompute mixed

abbrev State : Type := Hasher Lanes maxBlockSize

def reset (self : State) : State :=
  { self with hash := .replicate 25 0, numBytes := 0, bufferSize := 0 }

/-- The constructor, with what the memory of the object held before. -/
def construct (memory : State) : State := reset memory

variable (sponge : Class) (host : ByteOrder) (bits : Bits)

def processBuffer (self : State) : Option State := do
  let buffer ← Memory.store self.buffer self.bufferSize sponge.mark
  let buffer ← Memory.clear buffer (self.bufferSize + 1) bits.blockSize 0
  let last := buffer.toList.getD (bits.blockSize - 1) 0
  let buffer ← Memory.store buffer (bits.blockSize - 1) (last ||| 0x80)
  { self with buffer }.process bits.blockSize (processBlock host bits) buffer.toList

/-- The two digits of `(unsigned char) (word >> shift)`. -/
def byteDigits (word : BitVec 64) (shift : Nat) : ByteString :=
  let oneByte : UInt8 := .ofBitVec ((word >>> shift).setWidth 8)
  [dec2hex (oneByte >>> 4).toNat, dec2hex (oneByte &&& (15 : UInt8)).toNat]

/-- The loops of `getHash`. -/
def toText (hash : Lanes) : ByteString :=
  let hashLength := bits.number / 64
  let remainder := bits.number - hashLength * 64
  ((List.range hashLength).flatMap fun i =>
      (List.range 8).flatMap fun j => byteDigits (lane hash i) (8 * j)) ++
    (List.range' 0 ((remainder + 7) / 8) 8).flatMap fun processed =>
      byteDigits (lane hash hashLength) processed

def getHash (self : State) : Option (State × ByteString) :=
  (processBuffer sponge host bits self).map fun final =>
    ({ final with hash := self.hash }, toText bits final.hash)

inductive Call
  | add (data : List UInt8)
  | getHash
  | reset
  | apply (data : List UInt8)
  deriving DecidableEq

def answer : Object State Call ByteString
  | self, .add data =>
      (self.add bits.blockSize (processBlock host bits) data data.length).map
        fun next => (next, [])
  | self, .getHash =>
      (getHash sponge host bits self).map fun (next, result) => (next, [result])
  | self, .reset => some (reset self, [])
  | self, .apply data =>
      ((reset self).add bits.blockSize (processBlock host bits) data data.length).bind
        fun added =>
          (getHash sponge host bits added).map fun (next, result) => (next, [result])

/-! ## The sponge of the standard -/

/-- The mark, zeros, and a last bit, which may share its byte with the mark. -/
def padding (length : Nat) : List UInt8 :=
  let missing := bits.blockSize - length % bits.blockSize
  if missing = 1 then [sponge.mark ||| 0x80]
  else sponge.mark :: List.replicate (missing - 2) 0 ++ [0x80]

/-- A block is mixed into the front of the sheet, which is then permuted. -/
def absorbBlock (a : Sheet) (block : List UInt8) : Sheet :=
  Sheet.permutation fun x y => a x y ^^^ (words64 word64 block).getD (x.val + 5 * y.val) 0

def digest (message : List UInt8) : List UInt8 :=
  let padded := message ++ padding sponge bits message.length
  let final := (Blocks.absorb bits.blockSize absorbBlock (fun _ _ => 0) padded).1
  (List.range (bits.number / 8)).map (sheetByte final)

/-- What the calls ask for, of the bytes added since the last reset. -/
def service : Machine (List UInt8) Call ByteString
  | message, .add data => (message ++ data, [])
  | message, .getHash => (message, [hex (digest sponge bits message)])
  | _, .reset => ([], [])
  | _, .apply data => (data, [hex (digest sponge bits data)])

variable {sponge host bits}

/-! ## Words -/

/-- Where each bit comes from. -/
theorem swap64_getLsbD (x : BitVec 64) {i : Nat} (bound : i < 64) :
    (swap64 x).getLsbD i = x.getLsbD (8 * (7 - i / 8) + i % 8) := by
  interval_cases i <;> simp [swap64]

/-- Bit by bit, a word is its bytes. -/
theorem word64_getLsbD (a b c d e f g h : UInt8) {i : Nat} (bound : i < 64) :
    (word64 a b c d e f g h).getLsbD i =
      ([a, b, c, d, e, f, g, h].getD (i / 8) 0).toBitVec.getLsbD (i % 8) := by
  simp only [word64, word32, BitVec.getLsbD_append]
  interval_cases i <;> rfl

theorem littleEndian_load64 (host : ByteOrder) (a b c d e f g h : UInt8) :
    littleEndian host (load64 host a b c d e f g h) = word64 a b c d e f g h := by
  cases host with
  | little => rfl
  | big =>
      apply BitVec.eq_of_getLsbD_eq
      intro i bound
      rw [littleEndian, load64, swap64_getLsbD _ bound, word64_getLsbD _ _ _ _ _ _ _ _ bound,
        word64_getLsbD _ _ _ _ _ _ _ _ (by omega)]
      have place : (8 * (7 - i / 8) + i % 8) / 8 = 7 - i / 8 := by omega
      have bit : (8 * (7 - i / 8) + i % 8) % 8 = i % 8 := by omega
      have small : i / 8 < 8 := by omega
      rw [place, bit]
      generalize i / 8 = index at small
      interval_cases index <;> rfl

/-- The words do not depend on the machine. -/
theorem words64_load64 (host : ByteOrder) (data : List UInt8) :
    (words64 (load64 host) data).map (littleEndian host) = words64 word64 data := by
  induction data using words64.induct with
  | case1 a b c d e f g h rest induction =>
      rw [words64, words64, List.map_cons, littleEndian_load64, induction]
  | case2 data short =>
      rw [words64.eq_2 _ data short, words64.eq_2 _ data short]
      rfl

theorem words64_length (data : List UInt8) :
    (words64 word64 data).length = data.length / 8 := by
  induction data using words64.induct with
  | case1 a b c d e f g h rest induction =>
      rw [words64, List.length_cons, induction]
      simp only [List.length_cons]
      omega
  | case2 data short =>
      rw [words64.eq_2 _ data short]
      rcases data with
        _ | ⟨a, _ | ⟨b, _ | ⟨c, _ | ⟨d, _ | ⟨e, _ | ⟨f, _ | ⟨g, _ | ⟨h, rest⟩⟩⟩⟩⟩⟩⟩⟩
      · rfl
      · simp
      · simp
      · simp
      · simp
      · simp
      · simp
      · simp
      · exact absurd rfl (short a b c d e f g h rest)

theorem littleEndian_zero (host : ByteOrder) : littleEndian host 0 = 0 := by
  cases host <;> decide

theorem blockSize_bounds (bits : Bits) :
    0 < bits.blockSize ∧ bits.blockSize ≤ maxBlockSize ∧ bits.blockSize % 8 = 0 := by
  cases bits <;> decide

/-- `mix data into state` and the rounds behind it. -/
theorem sheet_processBlock (hash : Lanes) {block : List UInt8}
    (full : block.length = bits.blockSize) :
    sheet (processBlock host bits hash block) = absorbBlock (sheet hash) block := by
  have words : ∀ i, littleEndian host ((words64 (load64 host) block).getD i 0) =
      (words64 word64 block).getD i 0 := by
    intro i
    rw [← words64_load64 host, ← littleEndian_zero host, List.getD_map, littleEndian_zero]
  have count : (words64 word64 block).length = bits.blockSize / 8 := by
    rw [words64_length, full]
  have bounds := blockSize_bounds bits
  rw [processBlock, recompute_eq, absorbBlock]
  congr 1
  funext x y
  have step : ∀ state i, i ∈ List.range (bits.blockSize / 8) → ∀ cell, cell < 25 →
      lane (xorAt state i (littleEndian host ((words64 (load64 host) block).getD i 0))) cell =
        if cell = i then lane state cell ^^^ (words64 word64 block).getD cell 0
        else lane state cell := by
    intro state i member cell inside
    have small : i < 25 := by
      rw [List.mem_range] at member
      have most : bits.blockSize ≤ 144 := bounds.2.1
      omega
    rw [lane_xorAt _ small, words]
    by_cases same : cell = i
    · rw [if_pos same, if_pos same, same]
    · rw [if_neg same, if_neg same]
  have lanes := Memory.foldl_classes (fun cell => cell) _ step
    (fun state other cell inside near => by rw [near cell inside rfl])
    List.nodup_range hash (x.val + 5 * y.val) (by omega)
  rw [sheet, lanes]
  by_cases front : x.val + 5 * y.val < bits.blockSize / 8
  · rw [if_pos (List.mem_range.mpr front)]
    rfl
  · rw [if_neg (by rw [List.mem_range]; exact front), List.getD_eq_default _ _ (by omega)]
    exact BitVec.xor_zero.symm

/-! ## Padding -/

theorem padding_of_one {length : Nat} (one : bits.blockSize - length % bits.blockSize = 1) :
    padding sponge bits length = [sponge.mark ||| 0x80] := by
  rw [padding, if_pos one]

theorem padding_of_more {length zeros : Nat}
    (more : bits.blockSize - length % bits.blockSize = zeros + 2) :
    padding sponge bits length = sponge.mark :: List.replicate zeros 0 ++ [0x80] := by
  rw [padding, if_neg (by omega), more, Nat.add_sub_cancel]

/-- The last bit is set in the last byte of the block, whatever is there. -/
theorem store_last {memory : Vector UInt8 maxBlockSize} {front behind : List UInt8} {old : UInt8}
    (content : memory.toList = front ++ old :: behind) {index : Nat}
    (place : index = front.length) :
    ∃ next, Memory.store memory index (memory.toList.getD index 0 ||| 0x80) = some next ∧
      next.toList = front ++ (old ||| 0x80) :: behind := by
  have value : memory.toList.getD index 0 = old := by
    rw [content, place]
    simp
  rw [value, place]
  exact Memory.store_piece content _

/-- The buffer behind its padding. -/
theorem padded_buffer (sponge : Class) {self : State} {rest : List UInt8}
    (waiting : Hasher.Waiting self rest)
    {length : Nat} (rests : rest.length = length % bits.blockSize) :
    ∃ marked cleared buffer behind,
      Memory.store self.buffer self.bufferSize sponge.mark = some marked ∧
      Memory.clear marked (self.bufferSize + 1) bits.blockSize 0 = some cleared ∧
      Memory.store cleared (bits.blockSize - 1)
        (cleared.toList.getD (bits.blockSize - 1) 0 ||| 0x80) = some buffer ∧
      buffer.toList = rest ++ padding sponge bits length ++ behind := by
  have bounds := blockSize_bounds bits
  have room : rest.length < bits.blockSize := by
    rw [rests]
    exact Nat.mod_lt _ bounds.1
  rcases waiting.content with ⟨free, content⟩
  have total := congrArg List.length content
  simp only [Vector.length_toList, List.length_append] at total
  rcases free with _ | ⟨head, tail⟩
  · rw [List.length_nil] at total
    omega
  rw [List.length_cons] at total
  rcases Memory.store_piece content sponge.mark with ⟨marked, stored, markedContent⟩
  have oldLength : (tail.take (bits.blockSize - rest.length - 1)).length =
      bits.blockSize - rest.length - 1 := by
    rw [List.length_take]
    omega
  have split : marked.toList = (rest ++ [sponge.mark]) ++
      tail.take (bits.blockSize - rest.length - 1) ++
        tail.drop (bits.blockSize - rest.length - 1) := by
    rw [markedContent]
    simp
  rcases Memory.clear_piece split (show bits.blockSize = _
    by rw [List.length_append, List.length_singleton, oldLength]; omega) (0 : UInt8) with
    ⟨cleared, clearing, clearedContent⟩
  rw [oldLength] at clearedContent
  rw [List.length_append, List.length_singleton] at clearing
  generalize tail.drop (bits.blockSize - rest.length - 1) = behind at clearedContent
  refine ⟨marked, cleared, ?_⟩
  rw [waiting.size]
  rcases missing : bits.blockSize - rest.length with _ | _ | zeros
  · omega
  · rw [missing] at clearedContent
    rcases store_last (show cleared.toList = rest ++ sponge.mark :: behind by
        rw [clearedContent]; simp) (show bits.blockSize - 1 = rest.length by omega) with
      ⟨buffer, last, final⟩
    refine ⟨buffer, behind, stored, clearing, last, ?_⟩
    rw [final, padding_of_one (by rw [← rests, missing])]
    simp
  · rw [missing] at clearedContent
    have zero : List.replicate (zeros + 1 + 1 - 1) (0 : UInt8) =
        List.replicate zeros 0 ++ [0] := by
      rw [Nat.add_sub_cancel, List.replicate_succ']
    rcases store_last
      (show cleared.toList = (rest ++ sponge.mark :: List.replicate zeros 0) ++ 0 :: behind by
        rw [clearedContent, zero]; simp)
      (show bits.blockSize - 1 = _ by simp; omega) with ⟨buffer, last, final⟩
    refine ⟨buffer, behind, stored, clearing, last, ?_⟩
    rw [final, padding_of_more (by rw [← rests, missing])]
    simp

theorem padding_full (sponge : Class) {rest : List UInt8} {length : Nat}
    (rests : rest.length = length % bits.blockSize) :
    (rest ++ padding sponge bits length).length = bits.blockSize := by
  have room : length % bits.blockSize < bits.blockSize := Nat.mod_lt _ (blockSize_bounds bits).1
  rcases missing : bits.blockSize - length % bits.blockSize with _ | _ | zeros
  · omega
  · rw [padding_of_one missing, List.length_append, List.length_singleton]
    omega
  · rw [padding_of_more missing]
    simp only [List.length_append, List.length_cons, List.length_replicate, List.length_nil]
    omega

theorem processBuffer_eq_some (sponge : Class) (host : ByteOrder) {self : State}
    {rest : List UInt8}
    (waiting : Hasher.Waiting self rest) {length : Nat}
    (rests : rest.length = length % bits.blockSize) :
    ∃ next, processBuffer sponge host bits self = some next ∧
      next.hash = processBlock host bits self.hash (rest ++ padding sponge bits length) ∧
      Hasher.Waiting next rest ∧ next.numBytes = self.numBytes := by
  rcases padded_buffer sponge waiting rests with
    ⟨marked, cleared, buffer, behind, stored, clearing, last, content⟩
  have full := padding_full sponge rests
  refine ⟨{ self with
      buffer
      hash := processBlock host bits self.hash (rest ++ padding sponge bits length) },
    ?_, rfl, ⟨waiting.size, padding sponge bits length ++ behind, ?_⟩, rfl⟩
  · rw [processBuffer, stored]
    simp only [Option.bind_eq_bind, Option.bind_some, clearing, last]
    rw [Hasher.process, content, if_pos (by rw [List.length_append]; omega),
      List.take_left' full]
  · rw [content, List.append_assoc]

/-! ## The text of the hash -/

theorem byteDigits_eq (word : BitVec 64) (shift : Nat) :
    byteDigits word shift = hexDigits (UInt8.ofNat (word.toNat / 2 ^ shift)) := by
  have oneByte : UInt8.ofBitVec ((word >>> shift).setWidth 8) =
      UInt8.ofNat (word.toNat / 2 ^ shift) := by
    apply UInt8.toNat_inj.mp
    simp [Nat.shiftRight_eq_div_pow]
  have high : ∀ byte : UInt8, byte >>> 4 &&& (15 : UInt8) = byte >>> 4 := by
    intro byte
    apply UInt8.toNat_inj.mp
    have bound := byte.toNat_lt
    rw [UInt8.toNat_and, UInt8.toNat_shiftRight]
    change byte.toNat >>> 4 &&& 15 = byte.toNat >>> 4
    rw [show 15 = 2 ^ 4 - 1 from rfl, Nat.and_two_pow_sub_one_eq_mod, Nat.shiftRight_eq_div_pow]
    omega
  rw [byteDigits, hexDigits, oneByte, high]

theorem sheetByte_sheet (hash : Lanes) {i j : Nat} (lanes : i < 25) (bytes : j < 8) :
    sheetByte (sheet hash) (8 * i + j) = UInt8.ofNat ((lane hash i).toNat / 2 ^ (8 * j)) := by
  have index : (8 * i + j) / 8 = i := by omega
  have byte : (8 * i + j) % 8 = j := by omega
  have place : (Fin.ofNat 5 i).val + 5 * (Fin.ofNat 5 (i / 5)).val = i := by
    simp only [Fin.ofNat]
    omega
  rw [sheetByte, index, byte, sheet, place]

/-- The bytes of whole lanes. -/
theorem laneDigits_eq (hash : Lanes) {count : Nat} (fits : count ≤ 25) :
    ((List.range count).flatMap fun i =>
        (List.range 8).flatMap fun j => byteDigits (lane hash i) (8 * j)) =
      (List.range (8 * count)).flatMap fun index => hexDigits (sheetByte (sheet hash) index) := by
  induction count with
  | zero => rfl
  | succ count induction =>
      rw [List.range_succ (n := count), List.flatMap_append, induction (by omega), Nat.mul_succ,
        List.range_add, List.flatMap_append, List.flatMap_map]
      congr 1
      rw [List.flatMap_cons, List.flatMap_nil, List.append_nil]
      apply List.flatMap_congr
      intro j member
      rw [List.mem_range] at member
      rw [byteDigits_eq, sheetByte_sheet hash (by omega) member]

/-- Whole lanes, and some bytes of the next one. -/
theorem toText_parts (hash : Lanes) (count more : Nat) (whole : bits.number / 64 = count)
    (part : (bits.number - count * 64 + 7) / 8 = more) (fits : count < 25) (small : more ≤ 8) :
    toText bits hash =
      (List.range (8 * count + more)).flatMap fun index =>
        hexDigits (sheetByte (sheet hash) index) := by
  have last : ∀ j ∈ List.range more, byteDigits (lane hash count) (8 * j) =
      hexDigits (sheetByte (sheet hash) (8 * count + j)) := by
    intro j member
    rw [List.mem_range] at member
    rw [byteDigits_eq, ← sheetByte_sheet hash fits (by omega)]
  have steps : List.range' 0 more 8 = (List.range more).map (8 * ·) := by
    apply List.ext_getElem
    · simp
    · simp
  rw [toText, whole, part, laneDigits_eq hash (by omega), steps,
    List.flatMap_map, List.flatMap_congr last, List.range_add, List.flatMap_append,
    List.flatMap_map]

theorem toText_eq (hash : Lanes) :
    toText bits hash = hex ((List.range (bits.number / 8)).map (sheetByte (sheet hash))) := by
  rw [hex, List.flatMap_map]
  cases bits with
  | bits224 => exact toText_parts hash 3 4 rfl rfl (by decide) (by decide)
  | bits256 => exact toText_parts hash 4 0 rfl rfl (by decide) (by decide)
  | bits384 => exact toText_parts hash 6 0 rfl rfl (by decide) (by decide)
  | bits512 => exact toText_parts hash 8 0 rfl rfl (by decide) (by decide)

/-! ## The objects -/

abbrev Represents (host : ByteOrder) (bits : Bits) (self : State) (message : List UInt8) : Prop :=
  Hasher.Represents bits.blockSize (processBlock host bits) (.replicate 25 0) self message

theorem getHash_eq_some (sponge : Class) {self : State} {message : List UInt8}
    (represents : Represents host bits self message) :
    ∃ next, getHash sponge host bits self = some (next, hex (digest sponge bits message)) ∧
      Represents host bits next message := by
  have positive := (blockSize_bounds bits).1
  have rests : _ = message.length % bits.blockSize :=
    Blocks.absorb_rest_length (processBlock host bits) positive (.replicate 25 0)
      message
  rcases processBuffer_eq_some sponge host represents.waiting rests with
    ⟨final, ran, hash, waiting, same⟩
  have full := padding_full sponge rests
  refine ⟨{ final with hash := self.hash }, ?_, represents.hash, waiting.congr rfl rfl,
    by rw [← represents.numBytes, ← same]⟩
  have zero : sheet (.replicate 25 0) = fun _ _ => 0 := by
    funext x y
    have inside : x.val + 5 * y.val < 25 := by omega
    simp [sheet, lane, inside]
  have absorbed : sheet final.hash = (Blocks.absorb bits.blockSize absorbBlock (fun _ _ => 0)
      (message ++ padding sponge bits message.length)).1 := by
    rw [← zero,
      Blocks.absorb_map sheet positive (fun hash block full => sheet_processBlock hash full),
      Blocks.absorb_append positive, ← represents.hash, Blocks.absorb_full positive full, hash]
  rw [getHash, ran, Option.map_some, toText_eq, absorbed]
  rfl

theorem reset_represents (host : ByteOrder) (bits : Bits) (self : State) :
    Represents host bits (reset self) [] := by
  have short : ([] : List UInt8).length < bits.blockSize := (blockSize_bounds bits).1
  constructor <;> rw [Blocks.absorb_of_short short]
  · rfl
  · exact ⟨rfl, self.buffer.toList, rfl⟩
  · rfl

/-- One call answers as asked of the bytes since the last reset. -/
theorem answer_eq_some {self : State} {message : List UInt8}
    (represents : Represents host bits self message) (call : Call) :
    ∃ next, answer sponge host bits self call =
        some (next, (service sponge bits message call).2) ∧
      Represents host bits next (service sponge bits message call).1 := by
  have bounds := blockSize_bounds bits
  cases call with
  | add data =>
      rcases represents.add bounds.1 bounds.2.1 data with ⟨next, added, there⟩
      exact ⟨next, by rw [answer, added]; rfl, there⟩
  | getHash =>
      rcases getHash_eq_some sponge represents with ⟨next, got, there⟩
      exact ⟨next, by rw [answer, got]; rfl, there⟩
  | reset => exact ⟨reset self, rfl, reset_represents host bits self⟩
  | apply data =>
      rcases (reset_represents host bits self).add bounds.1 bounds.2.1 data
        with ⟨added, adding, here⟩
      rcases getHash_eq_some sponge here with ⟨next, got, there⟩
      exact ⟨next, by rw [answer, adding, Option.bind_some, got]; rfl, there⟩

/-- For both classes, all four sizes and machines of either byte order: no sequence of calls reads
or writes out of bounds, and every hash is the front of the sponge that has absorbed the bytes
added since the last reset. -/
theorem keccak_outputs (sponge : Class) (host : ByteOrder) (bits : Bits) (memory : State)
    (calls : List Call) :
    ∃ final, (answer sponge host bits).run (construct memory) calls =
      some (final, (service sponge bits).outputs [] calls) := by
  have each : ∀ self message call, Represents host bits self message →
      ∃ next, answer sponge host bits self call =
          some (next, (service sponge bits message call).2) ∧
        Represents host bits next (service sponge bits message call).1 := by
    intro self message call represents
    exact answer_eq_some represents call
  rcases Object.run_of_represents each (reset_represents host bits memory) calls with
    ⟨final, ran, -⟩
  exact ⟨final, ran⟩

end Pmud.HashLibrary.Keccak
