import Pmud.HashLibrary.MD5
import Pmud.HashLibrary.SHA1
import Pmud.HashLibrary.SHA256

/-! # Keyed hashes

`common/hash-library/hmac.h`: the template `hmac` for the classes that have a
`BlockSize` and a `HashBytes`, and the function of its standard.
-/

namespace Pmud.HashLibrary

open Foundation

/-- The classes the template can be used with. -/
inductive Algorithm
  | md5
  | sha1
  | sha256
  deriving DecidableEq

def Algorithm.method : Algorithm → HashMethod
  | .md5 => MD5.method
  | .sha1 => SHA1.method
  | .sha256 => SHA256.method

def Algorithm.standard : Algorithm → HashMethod
  | .md5 => MD5.standard
  | .sha1 => SHA1.standard
  | .sha256 => SHA256.standard

namespace HashMethod

variable (method : HashMethod) (host : ByteOrder)

/-- `adjust length of key: must contain exactly blockSize bytes`. -/
def adjustedKey (memory : method.State) (stack : Vector UInt8 blockBytes) (key : List UInt8) :
    Option (Vector UInt8 blockBytes) := do
  let usedKey : Vector UInt8 blockBytes := .replicate blockBytes 0
  if key.length ≤ blockBytes then
    Memory.storeAll usedKey 0 key
  else
    let keyHasher ← (method.construct memory).add blockBytes (method.processBlock host)
      key key.length
    let (_, rawHash) ← method.getHashBytes host stack keyHasher
    Memory.storeAll usedKey 0 rawHash

/-- `hmac<HashMethod>(data, numDataBytes, key, numKeyBytes)`. The three objects are built on
memory that held anything, and each call of `getHash` finds anything on the stack. -/
def hmac (objects : Fin 3 → method.State) (stack : Fin 3 → Vector UInt8 blockBytes)
    (data key : List UInt8) : Option ByteString := do
  let usedKey ← method.adjustedKey host (objects 0) (stack 0) key
  let usedKey := usedKey.map (· ^^^ 0x36)
  let insideHasher ← (method.construct (objects 1)).add blockBytes (method.processBlock host)
    usedKey.toList blockBytes
  let insideHasher ← insideHasher.add blockBytes (method.processBlock host) data data.length
  let (_, inside) ← method.getHashBytes host (stack 1) insideHasher
  let usedKey := usedKey.map (· ^^^ (0x5C ^^^ 0x36))
  let finalHasher ← (method.construct (objects 2)).add blockBytes (method.processBlock host)
    usedKey.toList blockBytes
  let finalHasher ← finalHasher.add blockBytes (method.processBlock host) inside method.hashBytes
  let (_, rawHash) ← method.getHashBytes host (stack 2) finalHasher
  return hex rawHash

/-- The key of the standard, as long as a block. -/
def blockKey (key : List UInt8) : List UInt8 :=
  let short := if key.length ≤ blockBytes then key else method.digest key
  short ++ List.replicate (blockBytes - short.length) 0

/-- Hash of the outer key in front of the hash of the inner key in front of the text. -/
def keyedDigest (data key : List UInt8) : List UInt8 :=
  method.digest ((method.blockKey key).map (· ^^^ 0x5C) ++
    method.digest ((method.blockKey key).map (· ^^^ 0x36) ++ data))

variable {method host}

theorem digest_length (message : List UInt8) :
    (method.digest message).length = method.hashBytes := by
  have four : ∀ word : BitVec 32,
      (method.order.arrange (leastBytes 4 word.toNat)).length = 4 := by
    intro word
    cases method.order <;> simp [ByteOrder.arrange, leastBytes_length]
  rw [digest, List.length_flatMap]
  simp [four, hashBytes, Nat.mul_comm]

/-- A key that fits is written to the front of the zeros. -/
theorem storeAll_key (key : List UInt8) (fits : key.length ≤ blockBytes) :
    ∃ usedKey, Memory.storeAll (Vector.replicate blockBytes (0 : UInt8)) 0 key = some usedKey ∧
      usedKey.toList = key ++ List.replicate (blockBytes - key.length) 0 := by
  have split : (Vector.replicate blockBytes (0 : UInt8)).toList =
      [] ++ List.replicate key.length 0 ++ List.replicate (blockBytes - key.length) 0 := by
    rw [Vector.toList_replicate, List.nil_append, ← List.replicate_add, Nat.add_sub_cancel' fits]
  exact Memory.storeAll_piece split key (by simp)

/-- A new object that is given two pieces has the hash of both. -/
theorem hash_two (host : ByteOrder) (memory : method.State) (stack : Vector UInt8 blockBytes)
    (first second : List UInt8) :
    ∃ middle final next,
      (method.construct memory).add blockBytes (method.processBlock host) first first.length =
        some middle ∧
      middle.add blockBytes (method.processBlock host) second second.length = some final ∧
      method.getHashBytes host stack final = some (next, method.digest (first ++ second)) := by
  have positive : 0 < blockBytes := by decide
  rcases (reset_represents host memory).add positive (Nat.le_refl _) first with
    ⟨middle, added, here⟩
  rcases here.add positive (Nat.le_refl _) second with ⟨final, more, there⟩
  rcases getHashBytes_eq_some there stack with ⟨next, got, -⟩
  exact ⟨middle, final, next, added, more, got⟩

theorem adjustedKey_eq_some (host : ByteOrder) (fits : method.hashBytes ≤ blockBytes)
    (memory : method.State)
    (stack : Vector UInt8 blockBytes) (key : List UInt8) :
    ∃ usedKey, method.adjustedKey host memory stack key = some usedKey ∧
      usedKey.toList = method.blockKey key := by
  by_cases short : key.length ≤ blockBytes
  · rw [adjustedKey, if_pos short, blockKey, if_pos short]
    exact storeAll_key key short
  · rcases (reset_represents host memory).add (by decide) (Nat.le_refl _) key with
      ⟨keyHasher, added, here⟩
    rcases getHashBytes_eq_some here stack with ⟨next, got, -⟩
    rcases storeAll_key (method.digest key) (by rw [digest_length]; exact fits) with
      ⟨usedKey, stored, content⟩
    refine ⟨usedKey, ?_, ?_⟩
    · rw [adjustedKey, if_neg short, construct, added]
      simp only [Option.bind_eq_bind, Option.bind_some, got]
      exact stored
    · rw [blockKey, if_neg short]
      exact content

/-- `usedKey[i] ^= 0x5C ^ 0x36` takes the first exclusive or back. -/
theorem xor_again (byte : UInt8) : byte ^^^ 0x36 ^^^ (0x5C ^^^ 0x36) = byte ^^^ 0x5C := by
  rw [UInt8.xor_comm 0x5C 0x36, ← UInt8.xor_assoc, UInt8.xor_assoc byte, UInt8.xor_self,
    UInt8.xor_zero]

theorem hmac_eq_some (fits : method.hashBytes ≤ blockBytes) (objects : Fin 3 → method.State)
    (stack : Fin 3 → Vector UInt8 blockBytes) (data key : List UInt8) :
    method.hmac host objects stack data key = some (hex (method.keyedDigest data key)) := by
  rcases adjustedKey_eq_some host fits (objects 0) (stack 0) key with
    ⟨usedKey, adjusted, content⟩
  let inner := usedKey.map (· ^^^ 0x36)
  let outer := inner.map (· ^^^ (0x5C ^^^ 0x36))
  have innerContent : inner.toList = (method.blockKey key).map (· ^^^ 0x36) := by
    rw [Vector.toList_map, content]
  have outerContent : outer.toList = (method.blockKey key).map (· ^^^ 0x5C) := by
    rw [Vector.toList_map, innerContent, List.map_map]
    exact List.map_congr_left fun byte _ => xor_again byte
  have innerLength : inner.toList.length = blockBytes := Vector.length_toList
  have outerLength : outer.toList.length = blockBytes := Vector.length_toList
  rcases hash_two host (objects 1) (stack 1) inner.toList data with
    ⟨insideHasher, insideFull, insideNext, keyed, filled, inside⟩
  rcases hash_two host (objects 2) (stack 2) outer.toList
    (method.digest (inner.toList ++ data)) with
    ⟨finalHasher, finalFull, finalNext, rekeyed, refilled, final⟩
  rw [innerLength] at keyed
  rw [outerLength] at rekeyed
  rw [digest_length] at refilled
  rw [hmac, adjusted]
  simp only [Option.bind_eq_bind, Option.bind_some]
  rw [keyed]
  simp only [Option.bind_some]
  rw [filled]
  simp only [Option.bind_some, inside]
  rw [rekeyed]
  simp only [Option.bind_some]
  rw [refilled]
  simp only [Option.bind_some, final]
  rw [keyedDigest, ← innerContent, ← outerContent]
  rfl

end HashMethod

theorem Algorithm.digest_eq (algorithm : Algorithm) (message : List UInt8) :
    algorithm.method.digest message = algorithm.standard.digest message := by
  cases algorithm with
  | md5 => exact HashMethod.digest_congr (fun hash block _ => MD5.mix_eq hash block) message
  | sha1 => exact HashMethod.digest_congr (fun hash _ full => SHA1.mix_eq hash full) message
  | sha256 => exact HashMethod.digest_congr (fun hash _ full => SHA256.mix_eq hash full) message

theorem Algorithm.hashBytes_le (algorithm : Algorithm) :
    algorithm.method.hashBytes ≤ blockBytes := by
  cases algorithm <;> decide

/-- The keyed hash of any data under any key, on a machine of either byte order. -/
theorem hmac_eq_keyedDigest (algorithm : Algorithm) (host : ByteOrder)
    (objects : Fin 3 → algorithm.method.State) (stack : Fin 3 → Vector UInt8 blockBytes)
    (data key : List UInt8) :
    algorithm.method.hmac host objects stack data key =
      some (hex (algorithm.standard.keyedDigest data key)) := by
  rw [HashMethod.hmac_eq_some algorithm.hashBytes_le]
  simp only [HashMethod.keyedDigest, HashMethod.blockKey, algorithm.digest_eq]

end Pmud.HashLibrary
