import Mathlib.Tactic.IntervalCases
import Pmud.Common.ByteString

/-! # Words in memory

The hash classes read words through a pointer and swap their bytes when the
byte order of the machine is not that of the hash; they write words and lengths
byte by byte.
-/

namespace Pmud.HashLibrary

inductive ByteOrder
  | little
  | big
  deriving DecidableEq, Repr

/-- Bytes that are listed from the least one on, in the order they have in memory. -/
def ByteOrder.arrange (order : ByteOrder) (bytes : List UInt8) : List UInt8 :=
  match order with
  | .little => bytes
  | .big => bytes.reverse

/-- The word whose least byte is the first one. -/
def word32 (first second third fourth : UInt8) : BitVec 32 :=
  fourth.toBitVec ++ third.toBitVec ++ second.toBitVec ++ first.toBitVec

/-- What a machine of this byte order reads at four bytes. -/
def ByteOrder.load32 (order : ByteOrder) (first second third fourth : UInt8) : BitVec 32 :=
  match order with
  | .little => word32 first second third fourth
  | .big => word32 fourth third second first

def swap (x : BitVec 32) : BitVec 32 :=
  (x >>> 24) ||| ((x >>> 8) &&& 0x0000FF00#32) ||| ((x <<< 8) &&& 0x00FF0000#32) |||
    (x <<< 24)

/-- `#if __BYTE_ORDER == ...`. -/
def convert (host order : ByteOrder) (word : BitVec 32) : BitVec 32 :=
  if host = order then word else swap word

/-- The words at the front of a piece of memory. -/
def ByteOrder.words (order : ByteOrder) : List UInt8 → List (BitVec 32)
  | first :: second :: third :: fourth :: rest =>
      order.load32 first second third fourth :: order.words rest
  | _ => []

/-- `words[i] = swap(input[i])` for all words of a block. -/
def readWords (host order : ByteOrder) (data : List UInt8) : List (BitVec 32) :=
  (host.words data).map (convert host order)

/-- `(unsigned char)((value >> shift) & 0xFF)`. -/
def byteAt {width : Nat} (value : BitVec width) (shift : Nat) : UInt8 :=
  .ofBitVec ((value >>> shift &&& BitVec.ofNat width 255).setWidth 8)

/-- `*current++ = (m_hash[i] >> 24) & 0xFF; ...`. -/
def putWord (order : ByteOrder) (word : BitVec 32) : List UInt8 :=
  match order with
  | .little => [byteAt word 0, byteAt word 8, byteAt word 16, byteAt word 24]
  | .big => [byteAt word 24, byteAt word 16, byteAt word 8, byteAt word 0]

/-- `*addLength++ = msgBits & 0xFF; msgBits >>= 8;`. -/
def shiftOut : Nat → BitVec 64 → List UInt8
  | 0, _ => []
  | count + 1, msgBits => byteAt msgBits 0 :: shiftOut count (msgBits >>> 8)

/-- The length as `processBuffer` writes it. -/
def putLength (order : ByteOrder) (msgBits : BitVec 64) : List UInt8 :=
  match order with
  | .little => shiftOut 8 msgBits
  | .big =>
      [byteAt msgBits 56, byteAt msgBits 48, byteAt msgBits 40, byteAt msgBits 32,
        byteAt msgBits 24, byteAt msgBits 16, byteAt msgBits 8, byteAt msgBits 0]

/-- The given number of bytes of a number, from the least one on. -/
def leastBytes : Nat → Nat → List UInt8
  | 0, _ => []
  | count + 1, number => UInt8.ofNat number :: leastBytes count (number / 256)

/-- Where each bit comes from. -/
theorem swap_getLsbD (x : BitVec 32) {i : Nat} (bound : i < 32) :
    (swap x).getLsbD i =
      x.getLsbD (if i < 8 then 24 + i else if i < 16 then 8 + i else if i < 24 then i - 8
        else i - 24) := by
  have low : (0x0000FF00#32).getLsbD i = decide (8 ≤ i ∧ i < 16) := by
    interval_cases i <;> rfl
  have high : (0x00FF0000#32).getLsbD i = decide (16 ≤ i ∧ i < 24) := by
    interval_cases i <;> rfl
  simp only [swap, BitVec.getLsbD_or, BitVec.getLsbD_and, BitVec.getLsbD_ushiftRight,
    BitVec.getLsbD_shiftLeft, low, high, bound]
  grind

theorem swap_word32 (first second third fourth : UInt8) :
    swap (word32 first second third fourth) = word32 fourth third second first := by
  apply BitVec.eq_of_getLsbD_eq
  intro i bound
  rw [swap_getLsbD _ bound]
  simp only [word32, BitVec.getLsbD_append]
  grind

theorem swap_xor (left right : BitVec 32) : swap (left ^^^ right) = swap left ^^^ swap right := by
  apply BitVec.eq_of_getLsbD_eq
  intro i bound
  simp only [swap_getLsbD _ bound, BitVec.getLsbD_xor]

theorem convert_load32 (host order : ByteOrder) (first second third fourth : UInt8) :
    convert host order (host.load32 first second third fourth) =
      order.load32 first second third fourth := by
  cases host <;> cases order <;> simp [convert, ByteOrder.load32, swap_word32]

/-- The words do not depend on the machine. -/
theorem readWords_eq (host order : ByteOrder) (data : List UInt8) :
    readWords host order data = order.words data := by
  induction data using ByteOrder.words.induct with
  | case1 first second third fourth rest induction =>
      rw [readWords, ByteOrder.words, ByteOrder.words, List.map_cons, convert_load32]
      exact congrArg _ induction
  | case2 data short =>
      rw [readWords, ByteOrder.words.eq_2 host data short, ByteOrder.words.eq_2 order data short]
      rfl

theorem words_length (order : ByteOrder) (data : List UInt8) :
    (order.words data).length = data.length / 4 := by
  induction data using ByteOrder.words.induct with
  | case1 first second third fourth rest induction =>
      rw [ByteOrder.words, List.length_cons, induction]
      simp only [List.length_cons]
      omega
  | case2 data short =>
      rw [ByteOrder.words.eq_2 order data short]
      rcases data with _ | ⟨first, _ | ⟨second, _ | ⟨third, _ | ⟨fourth, rest⟩⟩⟩⟩
      · rfl
      · simp
      · simp
      · simp
      · exact absurd rfl (short first second third fourth rest)

theorem byteAt_eq {width : Nat} (wide : 8 ≤ width) (value : BitVec width) (shift : Nat) :
    byteAt value shift = UInt8.ofNat (value.toNat / 2 ^ shift) := by
  apply UInt8.toNat_inj.mp
  have small : 255 < 2 ^ width := by
    have := Nat.pow_le_pow_right (n := 2) (by decide) wide
    omega
  simp only [byteAt, UInt8.toNat_ofBitVec, BitVec.toNat_setWidth, BitVec.toNat_and,
    BitVec.toNat_ushiftRight, BitVec.toNat_ofNat, Nat.mod_eq_of_lt small, UInt8.toNat_ofNat',
    Nat.shiftRight_eq_div_pow]
  rw [show 255 = 2 ^ 8 - 1 from rfl, Nat.and_two_pow_sub_one_eq_mod, Nat.mod_mod]

theorem leastBytes_length (count number : Nat) : (leastBytes count number).length = count := by
  induction count generalizing number with
  | zero => rfl
  | succ count induction => rw [leastBytes, List.length_cons, induction]

theorem shiftOut_eq (count : Nat) (msgBits : BitVec 64) :
    shiftOut count msgBits = leastBytes count msgBits.toNat := by
  induction count generalizing msgBits with
  | zero => rfl
  | succ count induction =>
      rw [shiftOut, leastBytes, induction, byteAt_eq (by decide), BitVec.toNat_ushiftRight,
        Nat.shiftRight_eq_div_pow, Nat.pow_zero, Nat.div_one]

theorem putLength_eq (order : ByteOrder) (msgBits : BitVec 64) :
    putLength order msgBits = order.arrange (leastBytes 8 msgBits.toNat) := by
  cases order with
  | little => exact shiftOut_eq 8 msgBits
  | big =>
      simp only [putLength, byteAt_eq (show 8 ≤ 64 by decide), ByteOrder.arrange, leastBytes,
        Nat.div_div_eq_div_mul, List.reverse_cons, List.reverse_nil, List.nil_append,
        List.cons_append, Nat.pow_zero, Nat.div_one]
      rfl

theorem putWord_eq (order : ByteOrder) (word : BitVec 32) :
    putWord order word = order.arrange (leastBytes 4 word.toNat) := by
  cases order <;>
  · simp only [putWord, byteAt_eq (show 8 ≤ 32 by decide), ByteOrder.arrange, leastBytes,
      Nat.div_div_eq_div_mul, List.reverse_cons, List.reverse_nil, List.nil_append,
      List.cons_append, Nat.pow_zero, Nat.div_one]
    rfl

theorem leastBytes_mod (count number : Nat) :
    leastBytes count (number % 256 ^ count) = leastBytes count number := by
  induction count generalizing number with
  | zero => rfl
  | succ count induction =>
      rw [leastBytes, leastBytes, Nat.pow_succ, Nat.mul_comm, Nat.mod_mul_right_div_self,
        induction]
      congr 1
      apply UInt8.toNat_inj.mp
      simp

end Pmud.HashLibrary
