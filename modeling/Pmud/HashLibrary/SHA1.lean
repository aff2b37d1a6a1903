import Pmud.Foundation.Lists
import Pmud.HashLibrary.HashMethod

/-! # SHA1

`common/hash-library/sha1.cpp`: `processBlock` with its four rounds of four
times five lines, and the compression of the standard.
-/

namespace Pmud.HashLibrary.SHA1

open Foundation

def f1 (b c d : BitVec 32) : BitVec 32 := d ^^^ (b &&& (c ^^^ d))

def f2 (b c d : BitVec 32) : BitVec 32 := b ^^^ c ^^^ d

def f3 (b c d : BitVec 32) : BitVec 32 := (b &&& c) ||| (b &&& d) ||| (c &&& d)

def rotate (a : BitVec 32) (c : Nat) : BitVec 32 := (a <<< c) ||| (a >>> (32 - c))

/-- The variables `a` to `e` of `processBlock`. -/
structure Working where
  a : BitVec 32
  b : BitVec 32
  c : BitVec 32
  d : BitVec 32
  e : BitVec 32
  deriving DecidableEq

/-- `get last hash`. -/
def Working.ofHash (hash : Vector (BitVec 32) 5) : Working :=
  ⟨hash[0], hash[1], hash[2], hash[3], hash[4]⟩

/-- `update hash`. -/
def Working.update (working : Working) (hash : Vector (BitVec 32) 5) : Vector (BitVec 32) 5 :=
  #v[hash[0] + working.a, hash[1] + working.b, hash[2] + working.c, hash[3] + working.d,
    hash[4] + working.e]

/-- `e += rotate(a,5) + f(b,c,d) + word + constant; b = rotate(b,30);`, with the new values of
`e` and `b`. -/
def line (f : WordFunction) (constant a b c d e word : BitVec 32) : BitVec 32 × BitVec 32 :=
  (e + (rotate a 5 + f b c d + word + constant), rotate b 30)

/-- The body of the loop of a round. -/
def fiveLines (f : WordFunction) (constant : BitVec 32) (words : List (BitVec 32))
    (working : Working) (i : Nat) : Working :=
  let offset := 5 * i
  let ⟨a, b, c, d, e⟩ := working
  let (e, b) := line f constant a b c d e (words.getD offset 0)
  let (d, a) := line f constant e a b c d (words.getD (offset + 1) 0)
  let (c, e) := line f constant d e a b c (words.getD (offset + 2) 0)
  let (b, d) := line f constant c d e a b (words.getD (offset + 3) 0)
  let (a, c) := line f constant b c d e a (words.getD (offset + 4) 0)
  ⟨a, b, c, d, e⟩

/-- `for (int i = first; i < first + 4; i++)`. -/
def round (words : List (BitVec 32)) (f : WordFunction) (constant : BitVec 32) (first : Nat)
    (working : Working) : Working :=
  (List.range' first 4).foldl (fiveLines f constant words) working

/-- `words[i]` of the extension. -/
def nextWord (words : List (BitVec 32)) (i : Nat) : BitVec 32 :=
  rotate (words.getD (i - 3) 0 ^^^ words.getD (i - 8) 0 ^^^ words.getD (i - 14) 0 ^^^
    words.getD (i - 16) 0) 1

/-- `for (int i = 16; i < 80; i++)`. -/
def extend (words : List (BitVec 32)) : List (BitVec 32) :=
  (List.range' 16 64).foldl (fun words i => words ++ [nextWord words i]) words

/-- `processBlock` behind the conversion of the sixteen words. -/
def mix (hash : Vector (BitVec 32) 5) (input : List (BitVec 32)) : Vector (BitVec 32) 5 :=
  let words := extend input
  let first := round words f1 0x5a827999#32 0 (.ofHash hash)
  let second := round words f2 0x6ed9eba1#32 4 first
  let third := round words f3 0x8f1bbcdc#32 8 second
  let fourth := round words f2 0xca62c1d6#32 12 third
  fourth.update hash

def method : HashMethod where
  hashValues := 5
  order := .big
  initial := #v[0x67452301#32, 0xefcdab89#32, 0x98badcfe#32, 0x10325476#32, 0xc3d2e1f0#32]
  mix := mix

/-! ## The standard -/

def ch (b c d : BitVec 32) : BitVec 32 := (b &&& c) ^^^ (~~~b &&& d)

def parity (b c d : BitVec 32) : BitVec 32 := b ^^^ c ^^^ d

def maj (b c d : BitVec 32) : BitVec 32 := (b &&& c) ^^^ (b &&& d) ^^^ (c &&& d)

/-- The words of the eighty steps. -/
def schedule (block : List (BitVec 32)) (t : Nat) : BitVec 32 :=
  if t < 16 then
    block.getD t 0
  else
    (schedule block (t - 3) ^^^ schedule block (t - 8) ^^^ schedule block (t - 14) ^^^
      schedule block (t - 16)).rotateLeft 1

/-- The function and the constant of the twenty steps of each kind. -/
def kinds : List (WordFunction × BitVec 32) :=
  [(ch, 0x5a827999#32), (parity, 0x6ed9eba1#32), (maj, 0x8f1bbcdc#32), (parity, 0xca62c1d6#32)]

def step (kind : WordFunction × BitVec 32) (word : BitVec 32) : Working → Working
  | ⟨a, b, c, d, e⟩ =>
      ⟨a.rotateLeft 5 + kind.1 b c d + e + kind.2 + word, a, b.rotateLeft 30, c, d⟩

def stepAt (block : List (BitVec 32)) (working : Working) (t : Nat) : Working :=
  step (kinds.getD (t / 20) (ch, 0)) (schedule block t) working

def compress (hash : Vector (BitVec 32) 5) (block : List (BitVec 32)) : Vector (BitVec 32) 5 :=
  ((List.range 80).foldl (stepAt block) (.ofHash hash)).update hash

def standard : HashMethod where
  hashValues := 5
  order := .big
  initial := #v[0x67452301#32, 0xefcdab89#32, 0x98badcfe#32, 0x10325476#32, 0xc3d2e1f0#32]
  mix := compress

theorem rotate_eq (a : BitVec 32) {c : Nat} (small : c < 32) : rotate a c = a.rotateLeft c := by
  rw [rotate, BitVec.rotateLeft_def, Nat.mod_eq_of_lt small]

theorem f1_eq : f1 = ch := by
  funext b c d
  apply BitVec.eq_of_getLsbD_eq
  intro i bound
  simp only [f1, ch, BitVec.getLsbD_and, BitVec.getLsbD_xor, BitVec.getLsbD_not, bound]
  cases b.getLsbD i <;> cases c.getLsbD i <;> cases d.getLsbD i <;> rfl

theorem f3_eq : f3 = maj := by
  funext b c d
  apply BitVec.eq_of_getLsbD_eq
  intro i bound
  simp only [f3, maj, BitVec.getLsbD_or, BitVec.getLsbD_and, BitVec.getLsbD_xor]
  cases b.getLsbD i <;> cases c.getLsbD i <;> cases d.getLsbD i <;> rfl

/-- A line is a step that leaves the other three variables where they are. -/
theorem line_eq (f : WordFunction) (constant a b c d e word : BitVec 32) :
    line f constant a b c d e word =
      ((step (f, constant) word ⟨a, b, c, d, e⟩).a,
        (step (f, constant) word ⟨a, b, c, d, e⟩).c) := by
  simp only [line, step, rotate_eq _ (show 5 < 32 by decide),
    rotate_eq _ (show 30 < 32 by decide)]
  congr 1
  ac_rfl

theorem nextWord_eq (block : List (BitVec 32)) {i : Nat} (late : 16 ≤ i) :
    nextWord ((List.range i).map (schedule block)) i = schedule block i := by
  have read : ∀ back, 0 < back → ((List.range i).map (schedule block)).getD (i - back) 0 =
      schedule block (i - back) := by
    intro back positive
    exact List.getD_map_range (by omega) 0
  rw [nextWord, read 3 (by decide), read 8 (by decide), read 14 (by decide),
    read 16 (by decide), schedule.eq_1 block i, if_neg (by omega), rotate_eq _ (by decide)]

theorem extend_eq {block : List (BitVec 32)} (full : block.length = 16) :
    extend block = (List.range 80).map (schedule block) := by
  have words : (List.range 16).map (schedule block) = block := by
    rw [← List.map_range_getD full 0]
    apply List.map_congr_left
    intro t early
    rw [List.mem_range] at early
    rw [schedule, if_pos early, List.getD_map_range early]
  have extended := List.foldl_extend (fun i late => nextWord_eq block late) 64
  rw [words] at extended
  exact extended

/-- The steps of the standard from `offset` on. -/
def steps (block : List (BitVec 32)) (offset count : Nat) (working : Working) : Working :=
  (List.range' offset count).foldl (stepAt block) working

theorem steps_add (block : List (BitVec 32)) (offset first later : Nat) (working : Working) :
    steps block (offset + first) later (steps block offset first working) =
      steps block offset (first + later) working :=
  List.foldl_range'_add _ offset first later working

theorem fiveLines_eq (block : List (BitVec 32)) (working : Working) {i : Nat} (inside : i < 16)
    {f : WordFunction} {constant : BitVec 32}
    (same : kinds.getD (i / 4) (ch, 0) = (f, constant)) :
    fiveLines f constant ((List.range 80).map (schedule block)) working i =
      steps block (5 * i) 5 working := by
  have read : ∀ index, index < 5 →
      ((List.range 80).map (schedule block)).getD (5 * i + index) 0 =
        schedule block (5 * i + index) := by
    intro index small
    exact List.getD_map_range (by omega) 0
  have kindAt : ∀ index, index < 5 →
      kinds.getD ((5 * i + index) / 20) (ch, 0) = (f, constant) := by
    intro index small
    rw [show (5 * i + index) / 20 = i / 4 by omega, same]
  have first := read 0 (by decide)
  have firstKind := kindAt 0 (by decide)
  rw [Nat.add_zero] at first firstKind
  simp only [fiveLines, line_eq, first, read _ (show 1 < 5 by decide),
    read _ (show 2 < 5 by decide), read _ (show 3 < 5 by decide), read _ (show 4 < 5 by decide)]
  simp only [steps, List.range'_succ, List.range'_zero, List.foldl_cons, List.foldl_nil, stepAt,
    Nat.add_assoc, Nat.reduceAdd, firstKind, kindAt _ (show 1 < 5 by decide),
    kindAt _ (show 2 < 5 by decide), kindAt _ (show 3 < 5 by decide),
    kindAt _ (show 4 < 5 by decide)]
  rfl

theorem round_eq_steps (block : List (BitVec 32)) (working : Working) {index : Nat}
    (inside : index < 4) {f : WordFunction} {constant : BitVec 32}
    (same : kinds.getD index (ch, 0) = (f, constant)) :
    round ((List.range 80).map (schedule block)) f constant (4 * index) working =
      steps block (20 * index) 20 working := by
  have general : ∀ count, count ≤ 4 →
      (List.range' (4 * index) count).foldl
          (fiveLines f constant ((List.range 80).map (schedule block))) working =
        steps block (20 * index) (5 * count) working := by
    intro count small
    induction count with
    | zero => rfl
    | succ count induction =>
        have here : kinds.getD ((4 * index + count) / 4) (ch, 0) = (f, constant) := by
          rw [show (4 * index + count) / 4 = index by omega, same]
        have place : 5 * (4 * index + count) = 20 * index + 5 * count := by omega
        rw [List.range'_concat, List.foldl_append, induction (by omega), Nat.one_mul,
          List.foldl_cons, List.foldl_nil, fiveLines_eq block _ (by omega) here, place, steps_add]
        rfl
  exact general 4 (Nat.le_refl 4)

theorem mix_eq (hash : Vector (BitVec 32) 5) {block : List (BitVec 32)}
    (full : block.length = 16) : mix hash block = compress hash block := by
  have eighty : (List.range 80).foldl (stepAt block) (.ofHash hash) =
      steps block 0 80 (.ofHash hash) := by
    rw [steps, List.range_eq_range']
  have first := round_eq_steps block (.ofHash hash) (show 0 < 4 by decide) rfl
  have second := round_eq_steps block (steps block 0 20 (.ofHash hash))
    (show 1 < 4 by decide) rfl
  have third := round_eq_steps block (steps block 0 40 (.ofHash hash)) (show 2 < 4 by decide) rfl
  have fourth := round_eq_steps block (steps block 0 60 (.ofHash hash))
    (show 3 < 4 by decide) rfl
  rw [compress, eighty, mix, extend_eq full, f1_eq, f3_eq, show f2 = parity from rfl]
  rw [first, second, steps_add block 0 20, third, steps_add block 0 40, fourth,
    steps_add block 0 60]

/-- On a machine of either byte order, after any calls, every hash is the SHA-1 of the bytes
added since the last reset. -/
theorem sha1_outputs (host : ByteOrder) (memory : method.State)
    (calls : List (Call × Vector UInt8 blockBytes)) :
    ∃ final, (method.answer host).run (method.construct memory) calls =
      some (final, standard.service.outputs [] (calls.map Prod.fst)) := by
  have same : method.service = standard.service :=
    HashMethod.service_congr fun hash block full => mix_eq hash full
  rw [← same]
  exact HashMethod.run_eq_some memory calls

end Pmud.HashLibrary.SHA1
