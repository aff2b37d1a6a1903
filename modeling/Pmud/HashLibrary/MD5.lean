import Pmud.Foundation.Lists
import Pmud.HashLibrary.HashMethod

/-! # MD5

`common/hash-library/md5.cpp`: `processBlock` with its sixty-four unrolled
lines, and the compression of the standard with its formulas for the words.
-/

namespace Pmud.HashLibrary.MD5

open Foundation

def f1 (b c d : BitVec 32) : BitVec 32 := d ^^^ (b &&& (c ^^^ d))

def f2 (b c d : BitVec 32) : BitVec 32 := c ^^^ (d &&& (b ^^^ c))

def f3 (b c d : BitVec 32) : BitVec 32 := b ^^^ c ^^^ d

def f4 (b c d : BitVec 32) : BitVec 32 := c ^^^ (b ||| ~~~d)

def rotate (a : BitVec 32) (c : Nat) : BitVec 32 := (a <<< c) ||| (a >>> (32 - c))

/-- The variables `a` to `d` of `processBlock`. -/
structure Working where
  a : BitVec 32
  b : BitVec 32
  c : BitVec 32
  d : BitVec 32
  deriving DecidableEq

/-- `get last hash`. -/
def Working.ofHash (hash : Vector (BitVec 32) 4) : Working :=
  ⟨hash[0], hash[1], hash[2], hash[3]⟩

/-- `update hash`. -/
def Working.update (working : Working) (hash : Vector (BitVec 32) 4) : Vector (BitVec 32) 4 :=
  #v[hash[0] + working.a, hash[1] + working.b, hash[2] + working.c, hash[3] + working.d]

/-- `rotate(a + f(b,c,d) + word + constant, shift) + b`. -/
def line (f : WordFunction) (shift : Nat) (a b c d word constant : BitVec 32) : BitVec 32 :=
  rotate (a + f b c d + word + constant) shift + b

/-- Four lines, which set `a`, `d`, `c` and `b`, each with its word and its constant. -/
def fourLines (f : WordFunction) (shifts : Vector Nat 4) (words : List (BitVec 32))
    (entries : Vector (Nat × BitVec 32) 4) (working : Working) : Working :=
  let ⟨a, b, c, d⟩ := working
  let a := line f shifts[0] a b c d (words.getD entries[0].1 0) entries[0].2
  let d := line f shifts[1] d a b c (words.getD entries[1].1 0) entries[1].2
  let c := line f shifts[2] c d a b (words.getD entries[2].1 0) entries[2].2
  let b := line f shifts[3] b c d a (words.getD entries[3].1 0) entries[3].2
  ⟨a, b, c, d⟩

def firstRound (words : List (BitVec 32)) (working : Working) : Working :=
  let shifts := #v[7, 12, 17, 22]
  let working := fourLines f1 shifts words
    #v[(0, 0xd76aa478#32), (1, 0xe8c7b756#32), (2, 0x242070db#32), (3, 0xc1bdceee#32)] working
  let working := fourLines f1 shifts words
    #v[(4, 0xf57c0faf#32), (5, 0x4787c62a#32), (6, 0xa8304613#32), (7, 0xfd469501#32)] working
  let working := fourLines f1 shifts words
    #v[(8, 0x698098d8#32), (9, 0x8b44f7af#32), (10, 0xffff5bb1#32), (11, 0x895cd7be#32)] working
  fourLines f1 shifts words
    #v[(12, 0x6b901122#32), (13, 0xfd987193#32), (14, 0xa679438e#32), (15, 0x49b40821#32)] working

def secondRound (words : List (BitVec 32)) (working : Working) : Working :=
  let shifts := #v[5, 9, 14, 20]
  let working := fourLines f2 shifts words
    #v[(1, 0xf61e2562#32), (6, 0xc040b340#32), (11, 0x265e5a51#32), (0, 0xe9b6c7aa#32)] working
  let working := fourLines f2 shifts words
    #v[(5, 0xd62f105d#32), (10, 0x02441453#32), (15, 0xd8a1e681#32), (4, 0xe7d3fbc8#32)] working
  let working := fourLines f2 shifts words
    #v[(9, 0x21e1cde6#32), (14, 0xc33707d6#32), (3, 0xf4d50d87#32), (8, 0x455a14ed#32)] working
  fourLines f2 shifts words
    #v[(13, 0xa9e3e905#32), (2, 0xfcefa3f8#32), (7, 0x676f02d9#32), (12, 0x8d2a4c8a#32)] working

def thirdRound (words : List (BitVec 32)) (working : Working) : Working :=
  let shifts := #v[4, 11, 16, 23]
  let working := fourLines f3 shifts words
    #v[(5, 0xfffa3942#32), (8, 0x8771f681#32), (11, 0x6d9d6122#32), (14, 0xfde5380c#32)] working
  let working := fourLines f3 shifts words
    #v[(1, 0xa4beea44#32), (4, 0x4bdecfa9#32), (7, 0xf6bb4b60#32), (10, 0xbebfbc70#32)] working
  let working := fourLines f3 shifts words
    #v[(13, 0x289b7ec6#32), (0, 0xeaa127fa#32), (3, 0xd4ef3085#32), (6, 0x04881d05#32)] working
  fourLines f3 shifts words
    #v[(9, 0xd9d4d039#32), (12, 0xe6db99e5#32), (15, 0x1fa27cf8#32), (2, 0xc4ac5665#32)] working

def fourthRound (words : List (BitVec 32)) (working : Working) : Working :=
  let shifts := #v[6, 10, 15, 21]
  let working := fourLines f4 shifts words
    #v[(0, 0xf4292244#32), (7, 0x432aff97#32), (14, 0xab9423a7#32), (5, 0xfc93a039#32)] working
  let working := fourLines f4 shifts words
    #v[(12, 0x655b59c3#32), (3, 0x8f0ccc92#32), (10, 0xffeff47d#32), (1, 0x85845dd1#32)] working
  let working := fourLines f4 shifts words
    #v[(8, 0x6fa87e4f#32), (15, 0xfe2ce6e0#32), (6, 0xa3014314#32), (13, 0x4e0811a1#32)] working
  fourLines f4 shifts words
    #v[(4, 0xf7537e82#32), (11, 0xbd3af235#32), (2, 0x2ad7d2bb#32), (9, 0xeb86d391#32)] working

/-- `processBlock` behind the conversion of the sixteen words. -/
def mix (hash : Vector (BitVec 32) 4) (words : List (BitVec 32)) : Vector (BitVec 32) 4 :=
  let first := firstRound words (.ofHash hash)
  let second := secondRound words first
  let third := thirdRound words second
  let fourth := fourthRound words third
  fourth.update hash

def method : HashMethod where
  hashValues := 4
  order := .little
  initial := #v[0x67452301#32, 0xefcdab89#32, 0x98badcfe#32, 0x10325476#32]
  mix := mix

/-! ## The standard -/

/-- A round: its function, its shifts, and the word a step of it reads. -/
structure Round where
  function : WordFunction
  shifts : Vector Nat 4
  word : Nat → Nat

def rounds : Vector Round 4 :=
  #v[{ function := fun x y z => (x &&& y) ||| (~~~x &&& z)
       shifts := #v[7, 12, 17, 22]
       word := fun t => t % 16 },
     { function := fun x y z => (x &&& z) ||| (y &&& ~~~z)
       shifts := #v[5, 9, 14, 20]
       word := fun t => (5 * t + 1) % 16 },
     { function := fun x y z => x ^^^ y ^^^ z
       shifts := #v[4, 11, 16, 23]
       word := fun t => (3 * t + 5) % 16 },
     { function := fun x y z => y ^^^ (x ||| ~~~z)
       shifts := #v[6, 10, 15, 21]
       word := fun t => 7 * t % 16 }]

def constants : List (BitVec 32) :=
  [0xd76aa478#32, 0xe8c7b756#32, 0x242070db#32, 0xc1bdceee#32,
    0xf57c0faf#32, 0x4787c62a#32, 0xa8304613#32, 0xfd469501#32,
    0x698098d8#32, 0x8b44f7af#32, 0xffff5bb1#32, 0x895cd7be#32,
    0x6b901122#32, 0xfd987193#32, 0xa679438e#32, 0x49b40821#32,
    0xf61e2562#32, 0xc040b340#32, 0x265e5a51#32, 0xe9b6c7aa#32,
    0xd62f105d#32, 0x02441453#32, 0xd8a1e681#32, 0xe7d3fbc8#32,
    0x21e1cde6#32, 0xc33707d6#32, 0xf4d50d87#32, 0x455a14ed#32,
    0xa9e3e905#32, 0xfcefa3f8#32, 0x676f02d9#32, 0x8d2a4c8a#32,
    0xfffa3942#32, 0x8771f681#32, 0x6d9d6122#32, 0xfde5380c#32,
    0xa4beea44#32, 0x4bdecfa9#32, 0xf6bb4b60#32, 0xbebfbc70#32,
    0x289b7ec6#32, 0xeaa127fa#32, 0xd4ef3085#32, 0x04881d05#32,
    0xd9d4d039#32, 0xe6db99e5#32, 0x1fa27cf8#32, 0xc4ac5665#32,
    0xf4292244#32, 0x432aff97#32, 0xab9423a7#32, 0xfc93a039#32,
    0x655b59c3#32, 0x8f0ccc92#32, 0xffeff47d#32, 0x85845dd1#32,
    0x6fa87e4f#32, 0xfe2ce6e0#32, 0xa3014314#32, 0x4e0811a1#32,
    0xf7537e82#32, 0xbd3af235#32, 0x2ad7d2bb#32, 0xeb86d391#32]

def step (f : WordFunction) (shift : Nat) (constant word : BitVec 32) : Working → Working
  | ⟨a, b, c, d⟩ => ⟨d, b + (a + f b c d + constant + word).rotateLeft shift, b, c⟩

def stepAt (block : List (BitVec 32)) (round : Fin 4) (working : Working) (t : Nat) : Working :=
  step rounds[round].function rounds[round].shifts[t % 4] (constants.getD t 0)
    (block.getD (rounds[round].word t) 0) working

/-- The steps of a round from `offset` on. -/
def steps (block : List (BitVec 32)) (round : Fin 4) (offset count : Nat) (working : Working) :
    Working :=
  (List.range' offset count).foldl (stepAt block round) working

def compress (hash : Vector (BitVec 32) 4) (block : List (BitVec 32)) : Vector (BitVec 32) 4 :=
  let final := (List.finRange 4).foldl
    (fun working round => steps block round (16 * round.val) 16 working) (.ofHash hash)
  final.update hash

def standard : HashMethod where
  hashValues := 4
  order := .little
  initial := #v[0x67452301#32, 0xefcdab89#32, 0x98badcfe#32, 0x10325476#32]
  mix := compress

theorem rotate_eq (a : BitVec 32) {c : Nat} (small : c < 32) : rotate a c = a.rotateLeft c := by
  rw [rotate, BitVec.rotateLeft_def, Nat.mod_eq_of_lt small]

theorem f1_eq : f1 = rounds[(0 : Fin 4)].function := by
  funext b c d
  change f1 b c d = (b &&& c) ||| (~~~b &&& d)
  apply BitVec.eq_of_getLsbD_eq
  intro i bound
  simp only [f1, BitVec.getLsbD_or, BitVec.getLsbD_and, BitVec.getLsbD_xor, BitVec.getLsbD_not,
    bound]
  cases b.getLsbD i <;> cases c.getLsbD i <;> cases d.getLsbD i <;> rfl

theorem f2_eq : f2 = rounds[(1 : Fin 4)].function := by
  funext b c d
  change f2 b c d = (b &&& d) ||| (c &&& ~~~d)
  apply BitVec.eq_of_getLsbD_eq
  intro i bound
  simp only [f2, BitVec.getLsbD_or, BitVec.getLsbD_and, BitVec.getLsbD_xor, BitVec.getLsbD_not,
    bound]
  cases b.getLsbD i <;> cases c.getLsbD i <;> cases d.getLsbD i <;> rfl

theorem f3_eq : f3 = rounds[(2 : Fin 4)].function := rfl

theorem f4_eq : f4 = rounds[(3 : Fin 4)].function := rfl

/-- A line is a step that leaves the other three variables where they are. -/
theorem line_eq (f : WordFunction) {shift : Nat} (small : shift < 32)
    (a b c d word constant : BitVec 32) :
    line f shift a b c d word constant = (step f shift constant word ⟨a, b, c, d⟩).b := by
  simp only [line, step, rotate_eq _ small]
  rw [BitVec.add_comm, BitVec.add_assoc, BitVec.add_assoc, BitVec.add_comm word,
    ← BitVec.add_assoc, ← BitVec.add_assoc]

theorem steps_add (block : List (BitVec 32)) (round : Fin 4) (offset first later : Nat)
    (working : Working) :
    steps block round (offset + first) later (steps block round offset first working) =
      steps block round offset (first + later) working :=
  List.foldl_range'_add _ offset first later working

theorem shifts_lt : ∀ round index : Fin 4, rounds[round].shifts[index] < 32 := by decide

/-- The table of four lines agrees with the standard from step `offset` on. -/
def Agrees (round : Fin 4) (offset : Nat) (entries : Vector (Nat × BitVec 32) 4) : Prop :=
  ∀ index : Fin 4, entries[index] =
    (rounds[round].word (offset + index.val), constants.getD (offset + index.val) 0)

instance (round : Fin 4) (offset : Nat) (entries : Vector (Nat × BitVec 32) 4) :
    Decidable (Agrees round offset entries) :=
  inferInstanceAs (Decidable (∀ _ : Fin 4, _))

/-- Four lines of the source are four steps of the standard. -/
theorem fourLines_eq_steps (words : List (BitVec 32)) (round : Fin 4) {offset : Nat}
    (aligned : offset % 4 = 0) {f : WordFunction} (same : f = rounds[round].function)
    {shifts : Vector Nat 4} (sameShifts : shifts = rounds[round].shifts)
    {entries : Vector (Nat × BitVec 32) 4}
    (table : Agrees round offset entries) (working : Working) :
    fourLines f shifts words entries working = steps words round offset 4 working := by
  subst same sameShifts
  have first : entries[0] = _ := table 0
  have second : entries[1] = _ := table 1
  have third : entries[2] = _ := table 2
  have fourth : entries[3] = _ := table 3
  have turn : ∀ (index : Fin 4) working, stepAt words round working (offset + index.val) =
      step rounds[round].function rounds[round].shifts[index]
        (constants.getD (offset + index.val) 0)
        (words.getD (rounds[round].word (offset + index.val)) 0) working := by
    intro index working
    have position : (offset + index.val) % 4 = index.val := by omega
    simp only [stepAt, position]
    rfl
  simp only [fourLines, first, second, third, fourth,
    line_eq _ (show rounds[round].shifts[0] < 32 from shifts_lt round 0),
    line_eq _ (show rounds[round].shifts[1] < 32 from shifts_lt round 1),
    line_eq _ (show rounds[round].shifts[2] < 32 from shifts_lt round 2),
    line_eq _ (show rounds[round].shifts[3] < 32 from shifts_lt round 3)]
  have unrolled : steps words round offset 4 working =
      stepAt words round (stepAt words round (stepAt words round
        (stepAt words round working (offset + (0 : Fin 4).val)) (offset + (1 : Fin 4).val))
          (offset + (2 : Fin 4).val)) (offset + (3 : Fin 4).val) := rfl
  rw [unrolled, turn, turn, turn, turn]
  rfl

/-- The sixteen lines of a round of the source are a round of the standard. -/
theorem round_eq_steps (words : List (BitVec 32)) (round : Fin 4) {f : WordFunction}
    (same : f = rounds[round].function) {shifts : Vector Nat 4}
    (sameShifts : shifts = rounds[round].shifts)
    {first second third fourth : Vector (Nat × BitVec 32) 4}
    (tables : Agrees round (16 * round.val) first ∧ Agrees round (16 * round.val + 4) second ∧
      Agrees round (16 * round.val + 8) third ∧ Agrees round (16 * round.val + 12) fourth)
    (working : Working) :
    fourLines f shifts words fourth (fourLines f shifts words third
        (fourLines f shifts words second (fourLines f shifts words first working))) =
      steps words round (16 * round.val) 16 working := by
  rw [fourLines_eq_steps words round (by omega) same sameShifts tables.1,
    fourLines_eq_steps words round (by omega) same sameShifts tables.2.1,
    fourLines_eq_steps words round (by omega) same sameShifts tables.2.2.1,
    fourLines_eq_steps words round (by omega) same sameShifts tables.2.2.2, steps_add,
    steps_add words round _ 8, steps_add words round _ 12]

theorem firstRound_eq (words : List (BitVec 32)) (working : Working) :
    firstRound words working = steps words 0 0 16 working :=
  round_eq_steps words 0 f1_eq rfl (by decide) working

theorem secondRound_eq (words : List (BitVec 32)) (working : Working) :
    secondRound words working = steps words 1 16 16 working :=
  round_eq_steps words 1 f2_eq rfl (by decide) working

theorem thirdRound_eq (words : List (BitVec 32)) (working : Working) :
    thirdRound words working = steps words 2 32 16 working :=
  round_eq_steps words 2 f3_eq rfl (by decide) working

theorem fourthRound_eq (words : List (BitVec 32)) (working : Working) :
    fourthRound words working = steps words 3 48 16 working :=
  round_eq_steps words 3 f4_eq rfl (by decide) working

theorem mix_eq (hash : Vector (BitVec 32) 4) (block : List (BitVec 32)) :
    mix hash block = compress hash block := by
  have order : List.finRange 4 = [0, 1, 2, 3] := rfl
  rw [mix, compress, order, firstRound_eq, secondRound_eq, thirdRound_eq, fourthRound_eq]
  simp only [List.foldl_cons, List.foldl_nil]
  rfl

/-- On a machine of either byte order, after any calls, every hash is the MD5 of the bytes
added since the last reset. -/
theorem md5_outputs (host : ByteOrder) (memory : method.State)
    (calls : List (Call × Vector UInt8 blockBytes)) :
    ∃ final, (method.answer host).run (method.construct memory) calls =
      some (final, standard.service.outputs [] (calls.map Prod.fst)) := by
  have same : method.service = standard.service :=
    HashMethod.service_congr fun hash block _ => mix_eq hash block
  rw [← same]
  exact HashMethod.run_eq_some memory calls

end Pmud.HashLibrary.MD5
