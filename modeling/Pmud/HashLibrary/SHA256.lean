import Mathlib.Tactic.NormNum.Prime
import Pmud.Foundation.Lists
import Pmud.HashLibrary.HashMethod

/-! # SHA256

`common/hash-library/sha256.cpp`: `processBlock` with its sixty-four unrolled
lines and the extension of the words between its rounds, and the compression of
the standard with its message schedule.
-/

namespace Pmud.HashLibrary.SHA256

open Foundation

def rotate (a : BitVec 32) (c : Nat) : BitVec 32 := (a >>> c) ||| (a <<< (32 - c))

def f1 (e f g : BitVec 32) : BitVec 32 :=
  let term1 := rotate e 6 ^^^ rotate e 11 ^^^ rotate e 25
  let term2 := (e &&& f) ^^^ (~~~e &&& g)
  term1 + term2

def f2 (a b c : BitVec 32) : BitVec 32 :=
  let term1 := rotate a 2 ^^^ rotate a 13 ^^^ rotate a 22
  let term2 := ((a ||| b) &&& c) ||| (a &&& b)
  term1 + term2

/-- The variables `a` to `h` of `processBlock`. -/
structure Working where
  a : BitVec 32
  b : BitVec 32
  c : BitVec 32
  d : BitVec 32
  e : BitVec 32
  f : BitVec 32
  g : BitVec 32
  h : BitVec 32
  deriving DecidableEq

/-- `get last hash`. -/
def Working.ofHash (hash : Vector (BitVec 32) 8) : Working :=
  ⟨hash[0], hash[1], hash[2], hash[3], hash[4], hash[5], hash[6], hash[7]⟩

/-- `update hash`. -/
def Working.update (working : Working) (hash : Vector (BitVec 32) 8) : Vector (BitVec 32) 8 :=
  #v[hash[0] + working.a, hash[1] + working.b, hash[2] + working.c, hash[3] + working.d,
    hash[4] + working.e, hash[5] + working.f, hash[6] + working.g, hash[7] + working.h]

/-- `x = h + f1(e,f,g) + constant + word; y = f2(a,b,c); d += x; h = x + y;`, with the new
values of `d` and `h`. -/
def line (a b c d e f g h constant word : BitVec 32) : BitVec 32 × BitVec 32 :=
  let x := h + f1 e f g + constant + word
  let y := f2 a b c
  (d + x, x + y)

/-- The eight lines of a round, each with the variables moved on by one. -/
def round (words : List (BitVec 32)) (offset : Nat) (constants : Vector (BitVec 32) 8)
    (working : Working) : Working :=
  let ⟨a, b, c, d, e, f, g, h⟩ := working
  let (d, h) := line a b c d e f g h constants[0] (words.getD offset 0)
  let (c, g) := line h a b c d e f g constants[1] (words.getD (offset + 1) 0)
  let (b, f) := line g h a b c d e f constants[2] (words.getD (offset + 2) 0)
  let (a, e) := line f g h a b c d e constants[3] (words.getD (offset + 3) 0)
  let (h, d) := line e f g h a b c d constants[4] (words.getD (offset + 4) 0)
  let (g, c) := line d e f g h a b c constants[5] (words.getD (offset + 5) 0)
  let (f, b) := line c d e f g h a b constants[6] (words.getD (offset + 6) 0)
  let (e, a) := line b c d e f g h a constants[7] (words.getD (offset + 7) 0)
  ⟨a, b, c, d, e, f, g, h⟩

/-- `words[i]` of the extensions. -/
def nextWord (words : List (BitVec 32)) (i : Nat) : BitVec 32 :=
  words.getD (i - 16) 0 +
    (rotate (words.getD (i - 15) 0) 7 ^^^ rotate (words.getD (i - 15) 0) 18 ^^^
      (words.getD (i - 15) 0 >>> 3)) +
    words.getD (i - 7) 0 +
    (rotate (words.getD (i - 2) 0) 17 ^^^ rotate (words.getD (i - 2) 0) 19 ^^^
      (words.getD (i - 2) 0 >>> 10))

/-- `for (; i < limit; i++)`, where `i` is the number of words so far. -/
def extend (limit : Nat) (words : List (BitVec 32)) : List (BitVec 32) :=
  (List.range' words.length (limit - words.length)).foldl
    (fun words i => words ++ [nextWord words i]) words

/-- The eight rounds with the extensions of the words between them. -/
def rounds (words : List (BitVec 32)) (working : Working) : Working :=
  let first := round words 0
    #v[0x428a2f98#32, 0x71374491#32, 0xb5c0fbcf#32, 0xe9b5dba5#32,
      0x3956c25b#32, 0x59f111f1#32, 0x923f82a4#32, 0xab1c5ed5#32] working
  let second := round words 8
    #v[0xd807aa98#32, 0x12835b01#32, 0x243185be#32, 0x550c7dc3#32,
      0x72be5d74#32, 0x80deb1fe#32, 0x9bdc06a7#32, 0xc19bf174#32] first
  let words := extend 24 words
  let third := round words 16
    #v[0xe49b69c1#32, 0xefbe4786#32, 0x0fc19dc6#32, 0x240ca1cc#32,
      0x2de92c6f#32, 0x4a7484aa#32, 0x5cb0a9dc#32, 0x76f988da#32] second
  let words := extend 32 words
  let fourth := round words 24
    #v[0x983e5152#32, 0xa831c66d#32, 0xb00327c8#32, 0xbf597fc7#32,
      0xc6e00bf3#32, 0xd5a79147#32, 0x06ca6351#32, 0x14292967#32] third
  let words := extend 40 words
  let fifth := round words 32
    #v[0x27b70a85#32, 0x2e1b2138#32, 0x4d2c6dfc#32, 0x53380d13#32,
      0x650a7354#32, 0x766a0abb#32, 0x81c2c92e#32, 0x92722c85#32] fourth
  let words := extend 48 words
  let sixth := round words 40
    #v[0xa2bfe8a1#32, 0xa81a664b#32, 0xc24b8b70#32, 0xc76c51a3#32,
      0xd192e819#32, 0xd6990624#32, 0xf40e3585#32, 0x106aa070#32] fifth
  let words := extend 56 words
  let seventh := round words 48
    #v[0x19a4c116#32, 0x1e376c08#32, 0x2748774c#32, 0x34b0bcb5#32,
      0x391c0cb3#32, 0x4ed8aa4a#32, 0x5b9cca4f#32, 0x682e6ff3#32] sixth
  let words := extend 64 words
  round words 56
    #v[0x748f82ee#32, 0x78a5636f#32, 0x84c87814#32, 0x8cc70208#32,
      0x90befffa#32, 0xa4506ceb#32, 0xbef9a3f7#32, 0xc67178f2#32] seventh

/-- `processBlock` behind the conversion of the sixteen words. -/
def mix (hash : Vector (BitVec 32) 8) (words : List (BitVec 32)) : Vector (BitVec 32) 8 :=
  (rounds words (.ofHash hash)).update hash

def method : HashMethod where
  hashValues := 8
  order := .big
  initial := #v[0x6a09e667#32, 0xbb67ae85#32, 0x3c6ef372#32, 0xa54ff53a#32,
    0x510e527f#32, 0x9b05688c#32, 0x1f83d9ab#32, 0x5be0cd19#32]
  mix := mix

/-! ## The standard -/

def ch (e f g : BitVec 32) : BitVec 32 := (e &&& f) ^^^ (~~~e &&& g)

def maj (a b c : BitVec 32) : BitVec 32 := (a &&& b) ^^^ (a &&& c) ^^^ (b &&& c)

def bigSigma0 (a : BitVec 32) : BitVec 32 :=
  a.rotateRight 2 ^^^ a.rotateRight 13 ^^^ a.rotateRight 22

def bigSigma1 (e : BitVec 32) : BitVec 32 :=
  e.rotateRight 6 ^^^ e.rotateRight 11 ^^^ e.rotateRight 25

def smallSigma0 (word : BitVec 32) : BitVec 32 :=
  word.rotateRight 7 ^^^ word.rotateRight 18 ^^^ (word >>> 3)

def smallSigma1 (word : BitVec 32) : BitVec 32 :=
  word.rotateRight 17 ^^^ word.rotateRight 19 ^^^ (word >>> 10)

/-- The words of the sixty-four steps. -/
def schedule (block : List (BitVec 32)) (t : Nat) : BitVec 32 :=
  if t < 16 then
    block.getD t 0
  else
    smallSigma1 (schedule block (t - 2)) + schedule block (t - 7) +
      smallSigma0 (schedule block (t - 15)) + schedule block (t - 16)

def constants : List (BitVec 32) :=
  [0x428a2f98#32, 0x71374491#32, 0xb5c0fbcf#32, 0xe9b5dba5#32,
    0x3956c25b#32, 0x59f111f1#32, 0x923f82a4#32, 0xab1c5ed5#32,
    0xd807aa98#32, 0x12835b01#32, 0x243185be#32, 0x550c7dc3#32,
    0x72be5d74#32, 0x80deb1fe#32, 0x9bdc06a7#32, 0xc19bf174#32,
    0xe49b69c1#32, 0xefbe4786#32, 0x0fc19dc6#32, 0x240ca1cc#32,
    0x2de92c6f#32, 0x4a7484aa#32, 0x5cb0a9dc#32, 0x76f988da#32,
    0x983e5152#32, 0xa831c66d#32, 0xb00327c8#32, 0xbf597fc7#32,
    0xc6e00bf3#32, 0xd5a79147#32, 0x06ca6351#32, 0x14292967#32,
    0x27b70a85#32, 0x2e1b2138#32, 0x4d2c6dfc#32, 0x53380d13#32,
    0x650a7354#32, 0x766a0abb#32, 0x81c2c92e#32, 0x92722c85#32,
    0xa2bfe8a1#32, 0xa81a664b#32, 0xc24b8b70#32, 0xc76c51a3#32,
    0xd192e819#32, 0xd6990624#32, 0xf40e3585#32, 0x106aa070#32,
    0x19a4c116#32, 0x1e376c08#32, 0x2748774c#32, 0x34b0bcb5#32,
    0x391c0cb3#32, 0x4ed8aa4a#32, 0x5b9cca4f#32, 0x682e6ff3#32,
    0x748f82ee#32, 0x78a5636f#32, 0x84c87814#32, 0x8cc70208#32,
    0x90befffa#32, 0xa4506ceb#32, 0xbef9a3f7#32, 0xc67178f2#32]

def step (constant word : BitVec 32) : Working → Working
  | ⟨a, b, c, d, e, f, g, h⟩ =>
      let t1 := h + bigSigma1 e + ch e f g + constant + word
      let t2 := bigSigma0 a + maj a b c
      ⟨t1 + t2, a, b, c, d + t1, e, f, g⟩

def compress (hash : Vector (BitVec 32) 8) (block : List (BitVec 32)) : Vector (BitVec 32) 8 :=
  let final := (List.range 64).foldl
    (fun working t => step (constants.getD t 0) (schedule block t) working) (.ofHash hash)
  final.update hash

def standard : HashMethod where
  hashValues := 8
  order := .big
  initial := #v[0x6a09e667#32, 0xbb67ae85#32, 0x3c6ef372#32, 0xa54ff53a#32,
    0x510e527f#32, 0x9b05688c#32, 0x1f83d9ab#32, 0x5be0cd19#32]
  mix := compress

/-- The first thirty-two bits behind the point of the root of this degree. -/
def IsRootFraction (degree number : Nat) (word : BitVec 32) : Prop :=
  ∃ whole < number, (whole * 2 ^ 32 + word.toNat) ^ degree ≤ number * 2 ^ (32 * degree) ∧
    number * 2 ^ (32 * degree) < (whole * 2 ^ 32 + word.toNat + 1) ^ degree

instance (degree number : Nat) (word : BitVec 32) :
    Decidable (IsRootFraction degree number word) :=
  inferInstanceAs (Decidable (∃ whole < number, _))

def primes : List Nat :=
  [2, 3, 5, 7, 11, 13, 17, 19, 23, 29, 31, 37, 41, 43, 47, 53,
    59, 61, 67, 71, 73, 79, 83, 89, 97, 101, 103, 107, 109, 113, 127, 131,
    137, 139, 149, 151, 157, 163, 167, 173, 179, 181, 191, 193, 197, 199, 211, 223,
    227, 229, 233, 239, 241, 251, 257, 263, 269, 271, 277, 281, 283, 293, 307, 311]

theorem primes_prime : ∀ prime ∈ primes, prime.Prime := by
  simp only [primes, List.forall_mem_cons]
  norm_num

/-- Square roots behind the words a hash starts from, cube roots behind the constants. -/
theorem root_fractions :
    (∀ entry ∈ (primes.take 8).zip standard.initial.toList, IsRootFraction 2 entry.1 entry.2) ∧
      ∀ entry ∈ primes.zip constants, IsRootFraction 3 entry.1 entry.2 := by
  decide +kernel

theorem rotate_eq (a : BitVec 32) {c : Nat} (small : c < 32) : rotate a c = a.rotateRight c := by
  rw [rotate, BitVec.rotateRight_def, Nat.mod_eq_of_lt small]

theorem f1_eq (e f g : BitVec 32) : f1 e f g = bigSigma1 e + ch e f g := by
  simp only [f1, bigSigma1, ch, rotate_eq _ (show 6 < 32 by decide),
    rotate_eq _ (show 11 < 32 by decide), rotate_eq _ (show 25 < 32 by decide)]

theorem f2_eq (a b c : BitVec 32) : f2 a b c = bigSigma0 a + maj a b c := by
  have majority : ((a ||| b) &&& c) ||| (a &&& b) = maj a b c := by
    apply BitVec.eq_of_getLsbD_eq
    intro i bound
    simp only [maj, BitVec.getLsbD_or, BitVec.getLsbD_and, BitVec.getLsbD_xor]
    cases a.getLsbD i <;> cases b.getLsbD i <;> cases c.getLsbD i <;> rfl
  simp only [f2, bigSigma0, majority, rotate_eq _ (show 2 < 32 by decide),
    rotate_eq _ (show 13 < 32 by decide), rotate_eq _ (show 22 < 32 by decide)]

/-- A line is a step that leaves the other six variables where they are. -/
theorem line_eq (a b c d e f g h constant word : BitVec 32) :
    line a b c d e f g h constant word =
      ((step constant word ⟨a, b, c, d, e, f, g, h⟩).e,
        (step constant word ⟨a, b, c, d, e, f, g, h⟩).a) := by
  simp only [line, step, f1_eq, f2_eq, BitVec.add_assoc]

theorem round_eq (words : List (BitVec 32)) (offset : Nat) (constants : Vector (BitVec 32) 8)
    (working : Working) :
    round words offset constants working =
      step constants[7] (words.getD (offset + 7) 0)
        (step constants[6] (words.getD (offset + 6) 0)
          (step constants[5] (words.getD (offset + 5) 0)
            (step constants[4] (words.getD (offset + 4) 0)
              (step constants[3] (words.getD (offset + 3) 0)
                (step constants[2] (words.getD (offset + 2) 0)
                  (step constants[1] (words.getD (offset + 1) 0)
                    (step constants[0] (words.getD offset 0) working))))))) := by
  simp only [round, line_eq]
  rfl

/-- The words computed so far are those of the schedule. -/
theorem nextWord_eq (block : List (BitVec 32)) {i : Nat} (late : 16 ≤ i) :
    nextWord ((List.range i).map (schedule block)) i = schedule block i := by
  have read : ∀ back, 0 < back → ((List.range i).map (schedule block)).getD (i - back) 0 =
      schedule block (i - back) := by
    intro back positive
    exact List.getD_map_range (by omega) 0
  rw [nextWord, read 16 (by decide), read 15 (by decide), read 7 (by decide), read 2 (by decide),
    schedule.eq_1 block i, if_neg (by omega)]
  simp only [smallSigma0, smallSigma1, rotate_eq _ (show 7 < 32 by decide),
    rotate_eq _ (show 18 < 32 by decide), rotate_eq _ (show 17 < 32 by decide),
    rotate_eq _ (show 19 < 32 by decide)]
  ac_rfl

theorem extend_eq (block : List (BitVec 32)) {count limit : Nat} (late : 16 ≤ count)
    (more : count ≤ limit) :
    extend limit ((List.range count).map (schedule block)) =
      (List.range limit).map (schedule block) := by
  have known : ∀ i, count ≤ i →
      nextWord ((List.range i).map (schedule block)) i = schedule block i := by
    intro i more
    exact nextWord_eq block (by omega)
  rw [extend, List.length_map, List.length_range, List.foldl_extend known,
    Nat.add_sub_cancel' more]

/-- The steps of the standard from `offset` on. -/
def steps (block : List (BitVec 32)) (offset count : Nat) (working : Working) : Working :=
  (List.range' offset count).foldl
    (fun working t => step (constants.getD t 0) (schedule block t) working) working

theorem steps_add (block : List (BitVec 32)) (offset first later : Nat) (working : Working) :
    steps block (offset + first) later (steps block offset first working) =
      steps block offset (first + later) working := by
  exact List.foldl_range'_add _ offset first later working

/-- Eight lines of the source are eight steps of the standard. -/
theorem round_eq_steps (block : List (BitVec 32)) {count offset : Nat}
    (known : offset + 8 ≤ count) {literals : Vector (BitVec 32) 8}
    (same : literals.toList = (constants.drop offset).take 8) (working : Working) :
    round ((List.range count).map (schedule block)) offset literals working =
      steps block offset 8 working := by
  have literal : ∀ index (small : index < 8),
      literals[index] = constants.getD (offset + index) 0 := by
    intro index small
    have entry := congrArg (fun list => list.getD index 0) same
    simpa [List.getD_eq_getElem?_getD, List.getElem?_take, small] using entry
  have read : ∀ index, index < 8 →
      ((List.range count).map (schedule block)).getD (offset + index) 0 =
        schedule block (offset + index) := by
    intro index small
    exact List.getD_map_range (by omega) 0
  have first := read 0 (by decide)
  rw [Nat.add_zero] at first
  rw [round_eq]
  simp only [literal, first, read _ (show 1 < 8 by decide), read _ (show 2 < 8 by decide),
    read _ (show 3 < 8 by decide), read _ (show 4 < 8 by decide), read _ (show 5 < 8 by decide),
    read _ (show 6 < 8 by decide), read _ (show 7 < 8 by decide)]
  rfl

theorem rounds_eq_steps (block : List (BitVec 32)) (working : Working) :
    rounds ((List.range 16).map (schedule block)) working = steps block 0 64 working := by
  simp only [rounds]
  rw [extend_eq block (Nat.le_refl 16) (show 16 ≤ 24 by decide),
    extend_eq block (show 16 ≤ 24 by decide) (show 24 ≤ 32 by decide),
    extend_eq block (show 16 ≤ 32 by decide) (show 32 ≤ 40 by decide),
    extend_eq block (show 16 ≤ 40 by decide) (show 40 ≤ 48 by decide),
    extend_eq block (show 16 ≤ 48 by decide) (show 48 ≤ 56 by decide),
    extend_eq block (show 16 ≤ 56 by decide) (show 56 ≤ 64 by decide),
    round_eq_steps block (show 0 + 8 ≤ 16 by decide) rfl,
    round_eq_steps block (show 8 + 8 ≤ 16 by decide) rfl,
    round_eq_steps block (show 16 + 8 ≤ 24 by decide) rfl,
    round_eq_steps block (show 24 + 8 ≤ 32 by decide) rfl,
    round_eq_steps block (show 32 + 8 ≤ 40 by decide) rfl,
    round_eq_steps block (show 40 + 8 ≤ 48 by decide) rfl,
    round_eq_steps block (show 48 + 8 ≤ 56 by decide) rfl,
    round_eq_steps block (show 56 + 8 ≤ 64 by decide) rfl]
  rw [steps_add block 0 8, steps_add block 0 16, steps_add block 0 24, steps_add block 0 32,
    steps_add block 0 40, steps_add block 0 48, steps_add block 0 56]

theorem mix_eq (hash : Vector (BitVec 32) 8) {block : List (BitVec 32)}
    (full : block.length = 16) : mix hash block = compress hash block := by
  have words : (List.range 16).map (schedule block) = block := by
    rw [← List.map_range_getD full 0]
    apply List.map_congr_left
    intro t early
    rw [List.mem_range] at early
    rw [schedule, if_pos early, List.getD_map_range early]
  have sixty_four : ∀ working, steps block 0 64 working = (List.range 64).foldl
      (fun working t => step (constants.getD t 0) (schedule block t) working) working := by
    intro working
    rw [steps, List.range_eq_range']
  rw [mix, compress, ← sixty_four, ← rounds_eq_steps, words]

/-- On a machine of either byte order, after any calls, every hash is the SHA-256 of the bytes
added since the last reset. -/
theorem sha256_outputs (host : ByteOrder) (memory : method.State)
    (calls : List (Call × Vector UInt8 blockBytes)) :
    ∃ final, (method.answer host).run (method.construct memory) calls =
      some (final, standard.service.outputs [] (calls.map Prod.fst)) := by
  have same : method.service = standard.service :=
    HashMethod.service_congr fun hash block full => mix_eq hash full
  rw [← same]
  exact HashMethod.run_eq_some memory calls

end Pmud.HashLibrary.SHA256
