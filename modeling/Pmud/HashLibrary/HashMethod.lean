import Pmud.Foundation.Objects
import Pmud.HashLibrary.Hasher
import Pmud.HashLibrary.Words

/-! # SHA256, SHA1 and MD5 as objects

`common/hash-library/sha256.cpp`, `sha1.cpp`, `md5.cpp`. The three classes share
everything but the words they start from, their byte order and what
`processBlock` makes of the sixteen words of a block.
-/

namespace Pmud.HashLibrary

open Foundation

/-- What each class has of its own. -/
structure HashMethod where
  hashValues : Nat
  order : ByteOrder
  initial : Vector (BitVec 32) hashValues
  mix : Vector (BitVec 32) hashValues → List (BitVec 32) → Vector (BitVec 32) hashValues

def blockBytes : Nat := 512 / 8

/-- The mix functions `f1`, `f2`, ... of a class. -/
abbrev WordFunction : Type := BitVec 32 → BitVec 32 → BitVec 32 → BitVec 32

inductive Call
  | add (data : List UInt8)
  | getHash
  | getHashBytes
  | reset
  | apply (data : List UInt8)
  deriving DecidableEq

/-- What the caller gets: a text, or the bytes written to its buffer. -/
inductive Answer
  | text (hex : ByteString)
  | raw (bytes : List UInt8)
  deriving DecidableEq

def dec2hex (value : Nat) : UInt8 :=
  (text "0123456789abcdef").getD value 0

def hexDigits (byte : UInt8) : ByteString :=
  [dec2hex (byte >>> 4 &&& (15 : UInt8)).toNat, dec2hex (byte &&& (15 : UInt8)).toNat]

def hex (rawHash : List UInt8) : ByteString :=
  rawHash.flatMap hexDigits

theorem hexDigits_byteAt {width : Nat} (wide : 8 ≤ width) (value : BitVec width)
    (shift : Nat) :
    hexDigits (byteAt value shift) =
      [dec2hex (value.toNat / 2 ^ (shift + 4) % 16), dec2hex (value.toNat / 2 ^ shift % 16)] := by
  have low : ∀ number, number &&& 15 = number % 16 := by
    intro number
    exact Nat.and_two_pow_sub_one_eq_mod number 4
  have high : value.toNat / 2 ^ shift % 256 / 16 % 16 = value.toNat / 2 ^ (shift + 4) % 16 := by
    rw [Nat.pow_add, ← Nat.div_div_eq_div_mul]
    omega
  rw [hexDigits, byteAt_eq wide, ← high]
  simp [low, Nat.shiftRight_eq_div_pow]

namespace HashMethod

variable (method : HashMethod) (host : ByteOrder)

abbrev State : Type := Hasher (Vector (BitVec 32) method.hashValues) blockBytes

def hashBytes : Nat := 4 * method.hashValues

def processBlock (hash : Vector (BitVec 32) method.hashValues) (data : List UInt8) :
    Vector (BitVec 32) method.hashValues :=
  method.mix hash (readWords host method.order data)

/-- `reset`; the buffer keeps its content. -/
def reset (self : method.State) : method.State :=
  { self with numBytes := 0, bufferSize := 0, hash := method.initial }

/-- The constructor, with what the memory of the object held before. -/
def construct (memory : method.State) : method.State := method.reset memory

/-- Where `processBuffer` writes the length, in bytes. -/
def paddedLength (bufferSize : Nat) : Nat :=
  let paddedLength := bufferSize * 8 + 1
  let lower11Bits := paddedLength &&& 511
  (if lower11Bits ≤ 448 then paddedLength + (448 - lower11Bits)
    else paddedLength + (512 + 448 - lower11Bits)) / 8

/-- `processBuffer`; `extra` is an array on the stack that nothing initialises. -/
def processBuffer (extra : Vector UInt8 blockBytes) (self : method.State) :
    Option method.State := do
  let padded := paddedLength self.bufferSize
  let (buffer, extra) ←
    if self.bufferSize < blockBytes then
      (Memory.store self.buffer self.bufferSize 128).map fun buffer => (buffer, extra)
    else
      (Memory.store extra 0 128).map fun extra => (self.buffer, extra)
  let buffer ← Memory.clear buffer (self.bufferSize + 1) blockBytes 0
  let i := max (self.bufferSize + 1) blockBytes
  let extra ← Memory.clear extra (i - blockBytes) (padded - blockBytes) 0
  let msgBits := 8 * (self.numBytes + BitVec.ofNat 64 self.bufferSize)
  let (buffer, extra) ←
    if padded < blockBytes then
      (Memory.storeAll buffer padded (putLength method.order msgBits)).map
        fun buffer => (buffer, extra)
    else
      (Memory.storeAll extra (padded - blockBytes) (putLength method.order msgBits)).map
        fun extra => (buffer, extra)
  let first ← { self with buffer }.process blockBytes (method.processBlock host) buffer.toList
  if blockBytes < padded then
    first.process blockBytes (method.processBlock host) extra.toList
  else
    some first

/-- `getHash(buffer)`. -/
def getHashBytes (extra : Vector UInt8 blockBytes) (self : method.State) :
    Option (method.State × List UInt8) :=
  (method.processBuffer host extra self).map fun final =>
    ({ final with hash := self.hash }, final.hash.toList.flatMap (putWord method.order))

/-- The array `extra` of a call holds anything. -/
def answer : Object method.State (Call × Vector UInt8 blockBytes) Answer
  | self, (call, extra) =>
      match call with
      | .add data =>
          (self.add blockBytes (method.processBlock host) data data.length).map
            fun next => (next, [])
      | .getHash =>
          (method.getHashBytes host extra self).map
            fun (next, rawHash) => (next, [.text (hex rawHash)])
      | .getHashBytes =>
          (method.getHashBytes host extra self).map
            fun (next, rawHash) => (next, [.raw rawHash])
      | .reset => some (method.reset self, [])
      | .apply data =>
          ((method.reset self).add blockBytes (method.processBlock host) data data.length).bind
            fun added =>
              (method.getHashBytes host extra added).map
                fun (next, rawHash) => (next, [.text (hex rawHash)])

/-! ## What the objects are for -/

/-- The blocks of a padded message, one after the other. -/
def padding (order : ByteOrder) (length : Nat) : List UInt8 :=
  128 :: List.replicate ((119 - length % 64) % 64) 0 ++ order.arrange (leastBytes 8 (8 * length))

/-- The hash of a whole message. -/
def digest (message : List UInt8) : List UInt8 :=
  let padded := message ++ padding method.order message.length
  let compress hash block := method.mix hash (method.order.words block)
  (Blocks.absorb blockBytes compress method.initial padded).1.toList.flatMap fun word =>
    method.order.arrange (leastBytes 4 word.toNat)

/-- What the calls ask for, of the bytes added since the last reset. -/
def service : Machine (List UInt8) Call Answer
  | message, .add data => (message ++ data, [])
  | message, .getHash => (message, [.text (hex (method.digest message))])
  | message, .getHashBytes => (message, [.raw (method.digest message)])
  | _, .reset => ([], [])
  | _, .apply data => (data, [.text (hex (method.digest data))])

variable {method host}

theorem paddedLength_eq {bufferSize : Nat} (small : bufferSize < blockBytes) :
    paddedLength bufferSize = if bufferSize ≤ 55 then 56 else 120 := by
  have bound : bufferSize < 64 := small
  have low : (bufferSize * 8 + 1) &&& 511 = bufferSize * 8 + 1 := by
    rw [show 511 = 2 ^ 9 - 1 from rfl, Nat.and_two_pow_sub_one_eq_mod]
    omega
  rw [paddedLength, low]
  split <;> split <;> omega

theorem putLength_length (order : ByteOrder) (msgBits : BitVec 64) :
    (putLength order msgBits).length = 8 := by
  rw [putLength_eq]
  cases order <;> simp [ByteOrder.arrange, leastBytes_length]

theorem padding_eq_of_le {order : ByteOrder} {length : Nat} (small : length % 64 ≤ 55) :
    padding order length = 128 :: List.replicate (55 - length % 64) 0 ++
      order.arrange (leastBytes 8 (8 * length)) := by
  have count : (119 - length % 64) % 64 = 55 - length % 64 := by omega
  rw [padding, count]

theorem padding_eq_of_lt {order : ByteOrder} {length : Nat} (large : 55 < length % 64) :
    padding order length = 128 :: List.replicate (63 - length % 64) 0 ++
      (List.replicate 56 0 ++ order.arrange (leastBytes 8 (8 * length))) := by
  have count : (119 - length % 64) % 64 = (63 - length % 64) + 56 := by omega
  rw [padding, count, List.replicate_add, ← List.append_assoc]
  rfl

theorem putLength_msgBits {order : ByteOrder} {numBytes : BitVec 64} {bufferSize length : Nat}
    (count : numBytes + BitVec.ofNat 64 bufferSize = BitVec.ofNat 64 length) :
    putLength order (8 * (numBytes + BitVec.ofNat 64 bufferSize)) =
      order.arrange (leastBytes 8 (8 * length)) := by
  have value : (8 * BitVec.ofNat 64 length).toNat = (8 * length) % 256 ^ 8 := by
    simp [BitVec.toNat_mul, Nat.mul_mod]
  rw [count, putLength_eq, value, leastBytes_mod]

/-- The first block of the padding: the mark and zeros up to the end of the buffer. -/
theorem marked_and_cleared {self : method.State} {rest : List UInt8}
    (waiting : Hasher.Waiting self rest) (room : rest.length < blockBytes) :
    ∃ marked cleared, Memory.store self.buffer self.bufferSize 128 = some marked ∧
      Memory.clear marked (self.bufferSize + 1) blockBytes 0 = some cleared ∧
      cleared.toList = rest ++ 128 :: List.replicate (63 - rest.length) 0 := by
  rcases waiting.content with ⟨free, content⟩
  have total := congrArg List.length content
  simp only [Vector.length_toList, List.length_append] at total
  rcases free with _ | ⟨old, back⟩
  · rw [List.length_nil] at total
    omega
  rw [List.length_cons] at total
  rcases Memory.store_piece content (128 : UInt8) with ⟨marked, stored, markedContent⟩
  have split : marked.toList = (rest ++ [128]) ++ back ++ [] := by simp [markedContent]
  rcases Memory.clear_piece split (show blockBytes = _ by simp; omega) (0 : UInt8) with
    ⟨cleared, done, clearedContent⟩
  have behind : back.length = 63 - rest.length := by
    rw [blockBytes] at total
    omega
  refine ⟨marked, cleared, ?_, ?_, ?_⟩
  · rw [waiting.size, stored]
  · rw [waiting.size, ← done, List.length_append, List.length_singleton]
  · rw [clearedContent, behind]
    simp

/-- A block that is full of what it holds. -/
theorem process_toList {self : method.State} (memory : Vector UInt8 blockBytes) :
    self.process blockBytes (method.processBlock host) memory.toList =
      some { self with hash := method.processBlock host self.hash memory.toList } := by
  have full : memory.toList.length = blockBytes := Vector.length_toList
  rw [Hasher.process, if_pos (by omega), List.take_of_length_le (by omega)]

theorem processBuffer_of_le {self : method.State} {rest : List UInt8}
    (waiting : Hasher.Waiting self rest) {length : Nat} (rests : rest.length = length % 64)
    (count : self.numBytes + BitVec.ofNat 64 self.bufferSize = BitVec.ofNat 64 length)
    (small : rest.length ≤ 55) (extra : Vector UInt8 blockBytes) :
    ∃ next, method.processBuffer host extra self = some next ∧
      next.hash = method.processBlock host self.hash (rest ++ padding method.order length) ∧
      Hasher.Waiting next rest ∧ next.numBytes = self.numBytes := by
  have room : rest.length < blockBytes := by
    rw [blockBytes]
    omega
  have padded : paddedLength self.bufferSize = 56 := by
    rw [waiting.size, paddedLength_eq room, if_pos small]
  rcases marked_and_cleared waiting room with ⟨marked, cleared, stored, done, content⟩
  have split : cleared.toList =
      (rest ++ 128 :: List.replicate (55 - rest.length) 0) ++ List.replicate 8 0 ++ [] := by
    have zeros : 63 - rest.length = (55 - rest.length) + 8 := by omega
    rw [content, zeros, List.replicate_add]
    simp
  have place : (rest ++ 128 :: List.replicate (55 - rest.length) (0 : UInt8)).length = 56 := by
    simp
    omega
  rcases Memory.storeAll_piece split
    (putLength method.order (8 * (self.numBytes + BitVec.ofNat 64 self.bufferSize)))
    (by rw [putLength_length, List.length_replicate]) with ⟨buffer, written, final⟩
  rw [place] at written
  have none_left : max (self.bufferSize + 1) blockBytes - blockBytes = 0 := by
    rw [waiting.size]
    omega
  have block : buffer.toList = rest ++ padding method.order length := by
    rw [final, padding_eq_of_le (by omega), putLength_msgBits count, rests]
    simp
  refine ⟨{ self with buffer, hash := method.processBlock host self.hash buffer.toList },
    ?_, by rw [block], ⟨waiting.size, _, block⟩, rfl⟩
  rw [processBuffer, padded, if_pos (by rw [waiting.size]; exact room), stored]
  simp only [Option.map_some, Option.bind_eq_bind, Option.bind_some, done, none_left]
  rw [show Memory.clear extra 0 (56 - blockBytes) 0 = some extra from rfl]
  simp only [Option.bind_some]
  rw [if_pos (by decide), written]
  simp only [Option.map_some, Option.bind_some, process_toList]
  rfl

theorem processBuffer_of_lt {self : method.State} {rest : List UInt8}
    (waiting : Hasher.Waiting self rest) {length : Nat} (rests : rest.length = length % 64)
    (count : self.numBytes + BitVec.ofNat 64 self.bufferSize = BitVec.ofNat 64 length)
    (large : 55 < rest.length) (extra : Vector UInt8 blockBytes) :
    ∃ next first second, rest ++ padding method.order length = first ++ second ∧
      first.length = blockBytes ∧ second.length = blockBytes ∧
      method.processBuffer host extra self = some next ∧
      next.hash = method.processBlock host (method.processBlock host self.hash first) second ∧
      Hasher.Waiting next rest ∧ next.numBytes = self.numBytes := by
  have room : rest.length < blockBytes := by
    rw [blockBytes, rests]
    exact Nat.mod_lt _ (by decide)
  have padded : paddedLength self.bufferSize = 120 := by
    rw [waiting.size, paddedLength_eq room, if_neg (by omega)]
  rcases marked_and_cleared waiting room with ⟨marked, cleared, stored, done, content⟩
  have none_left : max (self.bufferSize + 1) blockBytes - blockBytes = 0 := by
    rw [waiting.size]
    omega
  have whole : extra.toList.length = 64 := Vector.length_toList
  have front : (extra.toList.take 56).length = 56 :=
    List.length_take_of_le (by omega)
  have behind : (extra.toList.drop 56).length = 8 := by rw [List.length_drop, whole]
  have extraSplit : extra.toList = [] ++ extra.toList.take 56 ++ extra.toList.drop 56 := by simp
  rcases Memory.clear_piece extraSplit (show 56 = _ by rw [front]; rfl) (0 : UInt8) with
    ⟨zeroed, zeroing, zeroContent⟩
  have zeroSplit : zeroed.toList =
      List.replicate 56 0 ++ extra.toList.drop 56 ++ [] := by
    rw [zeroContent, front]
    simp
  rcases Memory.storeAll_piece zeroSplit
    (putLength method.order (8 * (self.numBytes + BitVec.ofNat 64 self.bufferSize)))
    (by rw [putLength_length, behind]) with ⟨last, written, final⟩
  rw [List.length_replicate] at written
  rw [List.length_nil] at zeroing
  refine ⟨{ self with
      buffer := cleared
      hash := method.processBlock host
        (method.processBlock host self.hash cleared.toList) last.toList },
    cleared.toList, last.toList, ?_, Vector.length_toList, Vector.length_toList, ?_, rfl,
    ⟨waiting.size, _, content⟩, rfl⟩
  · rw [content, final, padding_eq_of_lt (by omega), putLength_msgBits count, rests]
    simp
  · rw [processBuffer, padded, if_pos (by rw [waiting.size]; exact room), stored]
    simp only [Option.map_some, Option.bind_eq_bind, Option.bind_some, done, none_left]
    rw [show 120 - blockBytes = 56 from rfl, zeroing]
    simp only [Option.bind_some]
    rw [if_neg (by decide), written]
    simp only [Option.map_some, Option.bind_some, process_toList]
    rw [if_pos (by decide)]

/-- `processBuffer` takes the padding for more input, whatever the stack holds. -/
theorem processBuffer_eq_some {self : method.State} {message : List UInt8}
    (represents : Hasher.Represents blockBytes (method.processBlock host) method.initial self
      message) (extra : Vector UInt8 blockBytes) :
    ∃ next, method.processBuffer host extra self = some next ∧
      next.hash = (Blocks.absorb blockBytes (method.processBlock host) method.initial
        (message ++ padding method.order message.length)).1 ∧
      Hasher.Waiting next (Blocks.absorb blockBytes (method.processBlock host) method.initial
        message).2 ∧
      next.numBytes = self.numBytes := by
  have positive : 0 < blockBytes := by decide
  have rests : _ = message.length % 64 :=
    Blocks.absorb_rest_length (method.processBlock host) positive method.initial message
  have waiting := represents.waiting
  have count : self.numBytes + BitVec.ofNat 64 self.bufferSize =
      BitVec.ofNat 64 message.length := by
    rw [waiting.size]
    exact represents.numBytes
  rw [Blocks.absorb_append positive, ← represents.hash]
  generalize (Blocks.absorb blockBytes (method.processBlock host) method.initial message).2 =
    rest at *
  by_cases small : rest.length ≤ 55
  · rcases processBuffer_of_le waiting rests count small extra with ⟨next, ran, hash, here, same⟩
    refine ⟨next, ran, ?_, here, same⟩
    have full : (rest ++ padding method.order message.length).length = blockBytes := by
      rw [padding_eq_of_le (by rw [← rests]; exact small), ← putLength_msgBits count]
      simp only [List.length_append, List.length_cons, List.length_replicate, putLength_length,
        blockBytes]
      omega
    rw [hash, Blocks.absorb_full positive full]
  · rcases processBuffer_of_lt waiting rests count (by omega) extra with
      ⟨next, first, second, split, firstFull, secondFull, ran, hash, here, same⟩
    refine ⟨next, ran, ?_, here, same⟩
    rw [hash, split, Blocks.absorb_block positive firstFull,
      Blocks.absorb_full positive secondFull]

theorem processBlock_eq :
    method.processBlock host = fun hash block => method.mix hash (method.order.words block) := by
  funext hash block
  rw [processBlock, readWords_eq]

/-- The hash of the bytes so far, and an object that takes more of them. -/
theorem getHashBytes_eq_some {self : method.State} {message : List UInt8}
    (represents : Hasher.Represents blockBytes (method.processBlock host) method.initial self
      message) (extra : Vector UInt8 blockBytes) :
    ∃ next, method.getHashBytes host extra self = some (next, method.digest message) ∧
      Hasher.Represents blockBytes (method.processBlock host) method.initial next message := by
  rcases processBuffer_eq_some represents extra with ⟨final, ran, hash, waiting, same⟩
  refine ⟨{ final with hash := self.hash }, ?_, represents.hash,
    waiting.congr rfl rfl, by rw [← represents.numBytes, ← same]⟩
  have puts : putWord method.order = fun word =>
      method.order.arrange (leastBytes 4 word.toNat) := funext (putWord_eq method.order)
  rw [getHashBytes, ran, Option.map_some, hash, puts, processBlock_eq]
  rfl

theorem reset_represents (host : ByteOrder) (self : method.State) :
    Hasher.Represents blockBytes (method.processBlock host) method.initial (method.reset self)
      [] := by
  have short : ([] : List UInt8).length < blockBytes := by decide
  constructor <;> rw [Blocks.absorb_of_short short]
  · rfl
  · exact ⟨rfl, self.buffer.toList, rfl⟩
  · rfl

/-- One call answers as asked of the bytes since the last reset. -/
theorem answer_eq_some {self : method.State} {message : List UInt8}
    (represents : Hasher.Represents blockBytes (method.processBlock host) method.initial self
      message) (call : Call × Vector UInt8 blockBytes) :
    ∃ next, method.answer host self call = some (next, (method.service message call.1).2) ∧
      Hasher.Represents blockBytes (method.processBlock host) method.initial next
        (method.service message call.1).1 := by
  have positive : 0 < blockBytes := by decide
  rcases call with ⟨call, extra⟩
  cases call with
  | add data =>
      rcases represents.add positive (Nat.le_refl _) data with ⟨next, added, there⟩
      exact ⟨next, by rw [answer, added]; rfl, there⟩
  | getHash =>
      rcases getHashBytes_eq_some represents extra with ⟨next, got, there⟩
      exact ⟨next, by rw [answer, got]; rfl, there⟩
  | getHashBytes =>
      rcases getHashBytes_eq_some represents extra with ⟨next, got, there⟩
      exact ⟨next, by rw [answer, got]; rfl, there⟩
  | reset => exact ⟨method.reset self, rfl, reset_represents host self⟩
  | apply data =>
      rcases (reset_represents host self).add positive (Nat.le_refl _) data with
        ⟨added, adding, here⟩
      rcases getHashBytes_eq_some here extra with ⟨next, got, there⟩
      exact ⟨next, by rw [answer, adding, Option.bind_some, got]; rfl, there⟩

/-- No sequence of calls reads or writes out of bounds, and every hash is that of the bytes
added since the last reset, on a machine of either byte order. -/
theorem run_eq_some (memory : method.State) (calls : List (Call × Vector UInt8 blockBytes)) :
    ∃ final, (method.answer host).run (method.construct memory) calls =
      some (final, Machine.outputs method.service [] (calls.map Prod.fst)) := by
  let machine : Machine (List UInt8) (Call × Vector UInt8 blockBytes) Answer :=
    fun message call => method.service message call.1
  have each : ∀ self message call,
      Hasher.Represents blockBytes (method.processBlock host) method.initial self message →
        ∃ next, method.answer host self call = some (next, (machine message call).2) ∧
          Hasher.Represents blockBytes (method.processBlock host) method.initial next
            (machine message call).1 := by
    intro self message call represents
    exact answer_eq_some represents call
  rcases Object.run_of_represents each (reset_represents host memory) calls with
    ⟨final, ran, -⟩
  exact ⟨final, by rw [construct, ran, Machine.outputs_map]⟩

theorem digest_congr {hashValues : Nat} {order : ByteOrder}
    {initial : Vector (BitVec 32) hashValues}
    {first second : Vector (BitVec 32) hashValues → List (BitVec 32) →
      Vector (BitVec 32) hashValues}
    (agree : ∀ hash block, block.length = 16 → first hash block = second hash block)
    (message : List UInt8) :
    (HashMethod.mk hashValues order initial first).digest message =
      (HashMethod.mk hashValues order initial second).digest message := by
  have blocks : ∀ hash (block : List UInt8), block.length = blockBytes →
      first hash (order.words block) = second hash (order.words block) := by
    intro hash block full
    apply agree
    rw [words_length, full]
    rfl
  rw [digest, digest]
  dsimp only
  rw [Blocks.absorb_congr (by decide) blocks]

/-- Two ways to mix that agree on blocks of sixteen words give the same hashes. -/
theorem service_congr {hashValues : Nat} {order : ByteOrder}
    {initial : Vector (BitVec 32) hashValues}
    {first second : Vector (BitVec 32) hashValues → List (BitVec 32) →
      Vector (BitVec 32) hashValues}
    (agree : ∀ hash block, block.length = 16 → first hash block = second hash block) :
    (HashMethod.mk hashValues order initial first).service =
      (HashMethod.mk hashValues order initial second).service := by
  funext message call
  cases call <;> simp only [service, digest_congr agree]

end HashMethod

end Pmud.HashLibrary
