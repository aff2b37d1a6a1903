import Pmud.HashLibrary.CRC32Lookup
import Pmud.HashLibrary.HashMethod

/-! # CRC32

`common/hash-library/crc32.cpp`: eight bytes at once through eight tables, the
rest byte by byte. The hash is what a register gives that takes bit after bit.
-/

namespace Pmud.HashLibrary.CRC32

open Foundation

/-- The eight bytes of one iteration, in the branch of each byte order. -/
def eightBytes (host : ByteOrder) (crc one two : BitVec 32) : BitVec 32 :=
  match host with
  | .big =>
      let one := one ^^^ swap crc
      lookup 7 (one >>> 24) ^^^
        lookup 6 ((one >>> 16) &&& 0xFF#32) ^^^
        lookup 5 ((one >>> 8) &&& 0xFF#32) ^^^
        lookup 4 (one &&& 0xFF#32) ^^^
        lookup 3 (two >>> 24) ^^^
        lookup 2 ((two >>> 16) &&& 0xFF#32) ^^^
        lookup 1 ((two >>> 8) &&& 0xFF#32) ^^^
        lookup 0 (two &&& 0xFF#32)
  | .little =>
      let one := one ^^^ crc
      lookup 7 (one &&& 0xFF#32) ^^^
        lookup 6 ((one >>> 8) &&& 0xFF#32) ^^^
        lookup 5 ((one >>> 16) &&& 0xFF#32) ^^^
        lookup 4 (one >>> 24) ^^^
        lookup 3 (two &&& 0xFF#32) ^^^
        lookup 2 ((two >>> 8) &&& 0xFF#32) ^^^
        lookup 1 ((two >>> 16) &&& 0xFF#32) ^^^
        lookup 0 (two >>> 24)

/-- `while (numBytes--)`. -/
def remainingBytes (crc : BitVec 32) (data : List UInt8) : BitVec 32 :=
  data.foldl
    (fun crc byte =>
      (crc >>> 8) ^^^ lookup 0 ((crc &&& 0xFF#32) ^^^ byte.toBitVec.setWidth 32)) crc

/-- `while (numBytes >= 8)` and the loop behind it. -/
def addBytes (host : ByteOrder) (crc : BitVec 32) : List UInt8 → BitVec 32
  | a :: b :: c :: d :: e :: f :: g :: h :: rest =>
      addBytes host (eightBytes host crc (host.load32 a b c d) (host.load32 e f g h)) rest
  | data => remainingBytes crc data

/-- `add` of an object whose only member is `m_hash`. -/
def add (host : ByteOrder) (hash : BitVec 32) (data : List UInt8) : BitVec 32 :=
  ~~~(addBytes host (~~~hash) data)

def getHash (hash : BitVec 32) : ByteString :=
  [dec2hex (hash >>> 28).toNat, dec2hex ((hash >>> 24) &&& 15).toNat,
    dec2hex ((hash >>> 20) &&& 15).toNat, dec2hex ((hash >>> 16) &&& 15).toNat,
    dec2hex ((hash >>> 12) &&& 15).toNat, dec2hex ((hash >>> 8) &&& 15).toNat,
    dec2hex ((hash >>> 4) &&& 15).toNat, dec2hex (hash &&& 15).toNat]

def answer (host : ByteOrder) : Machine (BitVec 32) Call Answer
  | hash, .add data => (add host hash data, [])
  | hash, .getHash => (hash, [.text (getHash hash)])
  | hash, .getHashBytes => (hash, [.raw (putWord .big hash)])
  | _, .reset => (0, [])
  | _, .apply data => (add host 0 data, [.text (getHash (add host 0 data))])

/-! ## The register -/

def takeByte (crc : BitVec 32) (byte : UInt8) : BitVec 32 :=
  shiftBits 8 (crc ^^^ byte.toBitVec.setWidth 32)

def checksum (message : List UInt8) : BitVec 32 :=
  ~~~(message.foldl takeByte (~~~0))

def digest (message : List UInt8) : List UInt8 := putWord .big (checksum message)

/-- What the calls ask for, of the bytes added since the last reset. -/
def service : Machine (List UInt8) Call Answer
  | message, .add data => (message ++ data, [])
  | message, .getHash => (message, [.text (hex (digest message))])
  | message, .getHashBytes => (message, [.raw (digest message)])
  | _, .reset => ([], [])
  | _, .apply data => (data, [.text (hex (digest data))])

theorem mask_getLsbD {i : Nat} (bound : i < 32) :
    (0xFF#32).getLsbD i = decide (i < 8) := by
  interval_cases i <;> rfl

/-- The four bytes of a word at their places. -/
theorem word_split (word : BitVec 32) :
    word = (word &&& 0xFF#32) ^^^ ((word >>> 8) &&& 0xFF#32) <<< 8 ^^^
      ((word >>> 16) &&& 0xFF#32) <<< 16 ^^^ (word >>> 24) <<< 24 := by
  apply BitVec.eq_of_getLsbD_eq
  intro i bound
  have masks : ∀ back, (0xFF#32).getLsbD (i - back) = decide (i - back < 8) :=
    fun back => mask_getLsbD (by omega)
  simp only [BitVec.getLsbD_xor, BitVec.getLsbD_and, BitVec.getLsbD_ushiftRight,
    BitVec.getLsbD_shiftLeft, mask_getLsbD bound, masks, bound]
  grind

theorem masked_lt (word : BitVec 32) : (word &&& 0xFF#32).toNat < 256 := by
  rw [BitVec.toNat_and]
  exact Nat.lt_of_le_of_lt Nat.and_le_right (by decide)

theorem top_lt (word : BitVec 32) : (word >>> 24).toNat < 256 := by
  rw [BitVec.toNat_ushiftRight, Nat.shiftRight_eq_div_pow]
  have bound := word.isLt
  omega

theorem byte_lt (byte : UInt8) : (byte.toBitVec.setWidth 32).toNat < 256 := by
  rw [BitVec.toNat_setWidth, Nat.mod_eq_of_lt (by have := byte.toBitVec.isLt; omega)]
  exact byte.toBitVec.isLt

/-- A byte of a word shifts through the bytes below it first. -/
theorem shiftBits_place {value : BitVec 32} (byte : value.toNat < 256) {row : Nat}
    (small : row < 8) (back : Nat) (inside : back ≤ row) (fits : back < 4) :
    shiftBits (8 * (row + 1)) (value <<< (8 * back)) = lookup (row - back) value := by
  have room : value.toNat * 2 ^ (8 * back) < 2 ^ 32 := by
    interval_cases back <;> omega
  have rows : 8 * (row + 1) = 8 * back + 8 * (row - back + 1) := by omega
  rw [rows, shiftBits_add, shiftBits_shiftLeft room, lookup_eq (by omega) byte]

/-- Four tables take the four bytes of a word. -/
theorem shiftBits_word (word : BitVec 32) (row : Nat) (small : row < 8) (enough : 3 ≤ row) :
    shiftBits (8 * (row + 1)) word =
      lookup row (word &&& 0xFF#32) ^^^ lookup (row - 1) ((word >>> 8) &&& 0xFF#32) ^^^
        lookup (row - 2) ((word >>> 16) &&& 0xFF#32) ^^^ lookup (row - 3) (word >>> 24) := by
  rw [← shiftBits_place (masked_lt (word >>> 8)) small 1 (by omega) (by decide),
    ← shiftBits_place (masked_lt (word >>> 16)) small 2 (by omega) (by decide),
    ← shiftBits_place (top_lt word) small 3 (by omega) (by decide),
    lookup_eq small (masked_lt word), ← shiftBits_xor, ← shiftBits_xor, ← shiftBits_xor,
    ← word_split]

theorem word32_eq (a b c d : UInt8) :
    word32 a b c d = a.toBitVec.setWidth 32 ^^^ b.toBitVec.setWidth 32 <<< 8 ^^^
      c.toBitVec.setWidth 32 <<< 16 ^^^ d.toBitVec.setWidth 32 <<< 24 := by
  unfold word32
  apply BitVec.eq_of_getLsbD_eq
  intro i bound
  simp only [BitVec.getLsbD_append, BitVec.getLsbD_xor, BitVec.getLsbD_shiftLeft,
    BitVec.getLsbD_setWidth, bound]
  grind

/-- One more byte enters behind the bits that have been shifted. -/
theorem takeByte_shiftBits (crc : BitVec 32) (byte : UInt8) (count : Nat) (fits : count < 4) :
    takeByte (shiftBits (8 * count) crc) byte =
      shiftBits (8 * (count + 1)) (crc ^^^ byte.toBitVec.setWidth 32 <<< (8 * count)) := by
  have small := byte_lt byte
  have room : (byte.toBitVec.setWidth 32).toNat * 2 ^ (8 * count) < 2 ^ 32 := by
    interval_cases count <;> omega
  rw [takeByte, Nat.mul_succ, shiftBits_add, shiftBits_xor (8 * count), shiftBits_shiftLeft room]

theorem takeByte_word (crc : BitVec 32) (a b c d : UInt8) :
    takeByte (takeByte (takeByte (takeByte crc a) b) c) d =
      shiftBits 32 (crc ^^^ word32 a b c d) := by
  have first := takeByte_shiftBits crc a 0 (by decide)
  rw [Nat.mul_zero, shiftBits, BitVec.shiftLeft_zero] at first
  rw [first, takeByte_shiftBits _ b 1 (by decide),
    takeByte_shiftBits _ c 2 (by decide),
    takeByte_shiftBits _ d 3 (by decide), word32_eq]
  simp only [BitVec.xor_assoc]

/-- The bytes of a swapped word, from the other end. -/
theorem swap_bytes (word : BitVec 32) :
    swap word >>> 24 = word &&& 0xFF#32 ∧
      (swap word >>> 16) &&& 0xFF#32 = (word >>> 8) &&& 0xFF#32 ∧
      (swap word >>> 8) &&& 0xFF#32 = (word >>> 16) &&& 0xFF#32 ∧
      swap word &&& 0xFF#32 = word >>> 24 := by
  have swapped : ∀ i, (swap word).getLsbD i = (decide (i < 32) &&
      word.getLsbD (if i < 8 then 24 + i else if i < 16 then 8 + i else if i < 24 then i - 8
        else i - 24)) := by
    intro i
    by_cases bound : i < 32
    · simp only [swap_getLsbD word bound, bound, decide_true, Bool.true_and]
    · simp [bound, BitVec.getLsbD_of_ge (swap word) i (by omega)]
  refine ⟨?_, ?_, ?_, ?_⟩
  all_goals
    apply BitVec.eq_of_getLsbD_eq
    intro i bound
    simp only [BitVec.getLsbD_ushiftRight, BitVec.getLsbD_and, mask_getLsbD bound, swapped]
    grind

/-- Both branches take eight bytes one after the other. -/
theorem eightBytes_eq (host : ByteOrder) (crc : BitVec 32) (a b c d e f g h : UInt8) :
    eightBytes host crc (host.load32 a b c d) (host.load32 e f g h) =
      [a, b, c, d, e, f, g, h].foldl takeByte crc := by
  have chain : [a, b, c, d, e, f, g, h].foldl takeByte crc =
      shiftBits 64 (word32 a b c d ^^^ crc) ^^^ shiftBits 32 (word32 e f g h) := by
    simp only [List.foldl_cons, List.foldl_nil]
    rw [takeByte_word, takeByte_word, shiftBits_xor, ← shiftBits_add, BitVec.xor_comm crc]
  have high := shiftBits_word (word32 a b c d ^^^ crc) 7 (by decide) (by decide)
  have low := shiftBits_word (word32 e f g h) 3 (by decide) (by decide)
  rw [chain, high, low]
  cases host with
  | little =>
      simp only [eightBytes, ByteOrder.load32, BitVec.xor_assoc]
  | big =>
      rcases swap_bytes (word32 a b c d ^^^ crc) with ⟨first, second, third, fourth⟩
      rcases swap_bytes (word32 e f g h) with ⟨fifth, sixth, seventh, eighth⟩
      simp only [eightBytes, ByteOrder.load32]
      rw [← swap_word32 a b c d, ← swap_word32 e f g h, ← swap_xor, first, second, third, fourth,
        fifth, sixth, seventh, eighth]
      simp only [BitVec.xor_assoc]

theorem remainingBytes_eq (crc : BitVec 32) (data : List UInt8) :
    remainingBytes crc data = data.foldl takeByte crc := by
  have one : ∀ (crc : BitVec 32) (byte : UInt8),
      (crc >>> 8) ^^^ lookup 0 ((crc &&& 0xFF#32) ^^^ byte.toBitVec.setWidth 32) =
        takeByte crc byte := by
    intro crc byte
    have top : crc = (crc &&& 0xFF#32) ^^^ (crc >>> 8) <<< 8 := by
      apply BitVec.eq_of_getLsbD_eq
      intro i bound
      simp only [BitVec.getLsbD_xor, BitVec.getLsbD_and, BitVec.getLsbD_ushiftRight,
        BitVec.getLsbD_shiftLeft, mask_getLsbD bound, bound]
      grind
    have index : ((crc &&& 0xFF#32) ^^^ byte.toBitVec.setWidth 32).toNat < 256 := by
      rw [BitVec.toNat_xor]
      exact Nat.xor_lt_two_pow (n := 8) (masked_lt crc) (byte_lt byte)
    have room : (crc >>> 8).toNat * 2 ^ 8 < 2 ^ 32 := by
      have bound := crc.isLt
      rw [BitVec.toNat_ushiftRight, Nat.shiftRight_eq_div_pow]
      omega
    have split : crc ^^^ byte.toBitVec.setWidth 32 =
        (crc >>> 8) <<< 8 ^^^ ((crc &&& 0xFF#32) ^^^ byte.toBitVec.setWidth 32) := by
      rw [← BitVec.xor_assoc, BitVec.xor_comm ((crc >>> 8) <<< 8), ← top]
    rw [lookup_eq (by decide) index, takeByte, split,
      shiftBits_xor 8 ((crc >>> 8) <<< 8), shiftBits_shiftLeft room]
  simp only [remainingBytes, one]

theorem addBytes_eq (host : ByteOrder) (crc : BitVec 32) (data : List UInt8) :
    addBytes host crc data = data.foldl takeByte crc := by
  induction crc, data using addBytes.induct host with
  | case1 crc a b c d e f g h rest induction =>
      rw [addBytes, induction, eightBytes_eq]
      rfl
  | case2 crc data short => rw [addBytes.eq_2 host crc data short, remainingBytes_eq]

/-- A machine of either byte order, and bytes that come in any pieces. -/
theorem add_checksum (host : ByteOrder) (message data : List UInt8) :
    add host (checksum message) data = checksum (message ++ data) := by
  rw [add, addBytes_eq, checksum, checksum, BitVec.not_not, List.foldl_append]

theorem getHash_eq_hex (hash : BitVec 32) : getHash hash = hex (putWord .big hash) := by
  have nibble : ∀ word : BitVec 32, (word &&& 15).toNat = word.toNat % 16 := by
    intro word
    rw [BitVec.toNat_and]
    exact Nat.and_two_pow_sub_one_eq_mod word.toNat 4
  have top : hash.toNat / 2 ^ 28 % 16 = hash.toNat / 2 ^ 28 := by
    have bound := hash.isLt
    omega
  simp only [getHash, putWord, hex, List.flatMap_cons, List.flatMap_nil, List.append_nil,
    List.cons_append, List.nil_append, hexDigits_byteAt (show 8 ≤ 32 by decide), nibble,
    BitVec.toNat_ushiftRight, Nat.shiftRight_eq_div_pow, Nat.reduceAdd, top, Nat.pow_zero,
    Nat.div_one]

/-- On a machine of either byte order, after any calls, every hash is the checksum of the bytes
added since the last reset. -/
theorem crc32_outputs (host : ByteOrder) (calls : List Call) :
    (answer host).outputs 0 calls = service.outputs [] calls := by
  have empty : checksum [] = 0 := by decide
  have fresh : ∀ data, add host 0 data = checksum data := by
    intro data
    rw [← empty, add_checksum, List.nil_append]
  apply Machine.outputs_of_related _ (fun hash message => hash = checksum message)
  · intro hash message call same
    subst same
    cases call with
    | add data => exact ⟨rfl, add_checksum host message data⟩
    | getHash => exact ⟨by simp only [answer, service, getHash_eq_hex, digest], rfl⟩
    | getHashBytes => exact ⟨rfl, rfl⟩
    | reset => exact ⟨rfl, empty.symm⟩
    | apply data =>
        exact ⟨by simp only [answer, service, getHash_eq_hex, digest, fresh], fresh data⟩
  · exact empty.symm

end Pmud.HashLibrary.CRC32
