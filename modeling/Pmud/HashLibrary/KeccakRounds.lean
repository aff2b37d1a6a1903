import Mathlib.Tactic.IntervalCases
import Pmud.Foundation.Lists
import Pmud.Foundation.Memory

/-! # The rounds of Keccak

`processBlock` of `common/hash-library/keccak.cpp` and `sha3.cpp` behind the
mixing of the data: twenty-four rounds that work in place on twenty-five lanes.
The standard describes a round as five maps of a sheet of lanes.
-/

namespace Pmud.HashLibrary.Keccak

open Foundation

/-- `m_hash`. -/
abbrev Lanes : Type := Vector (BitVec 64) 25

def lane (hash : Lanes) (index : Nat) : BitVec 64 := hash[index]?.getD 0

def put (hash : Lanes) (index : Nat) (value : BitVec 64) : Lanes :=
  hash.setIfInBounds index value

/-- `m_hash[index] ^= value`. -/
def xorAt (hash : Lanes) (index : Nat) (value : BitVec 64) : Lanes :=
  put hash index (lane hash index ^^^ value)

def rotateLeft (x : BitVec 64) (numBits : Nat) : BitVec 64 :=
  (x <<< numBits) ||| (x >>> (64 - numBits))

def mod5 (x : Nat) : Nat := if x < 5 then x else x - 5

/-- Theta. -/
def coefficient (hash : Lanes) (i : Nat) : BitVec 64 :=
  lane hash i ^^^ lane hash (i + 5) ^^^ lane hash (i + 10) ^^^ lane hash (i + 15) ^^^
    lane hash (i + 20)

def thetaColumn (coefficients : List (BitVec 64)) (hash : Lanes) (i : Nat) : Lanes :=
  let one := coefficients.getD (mod5 (i + 4)) 0 ^^^
    rotateLeft (coefficients.getD (mod5 (i + 1)) 0) 1
  let hash := xorAt hash i one
  let hash := xorAt hash (i + 5) one
  let hash := xorAt hash (i + 10) one
  let hash := xorAt hash (i + 15) one
  xorAt hash (i + 20) one

def theta (hash : Lanes) : Lanes :=
  let coefficients := (List.range 5).map (coefficient hash)
  (List.range 5).foldl (thetaColumn coefficients) hash

/-- The lines of Rho Pi: the lane that is written, and by how much `last` is rotated. -/
def rhoPiLines : List (Nat × Nat) :=
  [(10, 1), (7, 3), (11, 6), (17, 10), (18, 15), (3, 21), (5, 28), (16, 36),
    (8, 45), (21, 55), (24, 2), (4, 14), (15, 27), (23, 41), (19, 56), (13, 8),
    (12, 25), (2, 43), (20, 62), (14, 18), (22, 39), (9, 61), (6, 20), (1, 44)]

/-- `one = m_hash[index]; m_hash[index] = rotateLeft(last, numBits); last = one;`. -/
def rhoPiLine (state : Lanes × BitVec 64) (line : Nat × Nat) : Lanes × BitVec 64 :=
  let one := lane state.1 line.1
  (put state.1 line.1 (rotateLeft state.2 line.2), one)

def rhoPi (hash : Lanes) : Lanes := (rhoPiLines.foldl rhoPiLine (hash, lane hash 1)).1

/-- Chi: the body of the loop for `j`. -/
def chiPlane (hash : Lanes) (j : Nat) : Lanes :=
  let one := lane hash j
  let two := lane hash (j + 1)
  let hash := xorAt hash j (lane hash (j + 2) &&& ~~~two)
  let hash := xorAt hash (j + 1) (lane hash (j + 3) &&& ~~~(lane hash (j + 2)))
  let hash := xorAt hash (j + 2) (lane hash (j + 4) &&& ~~~(lane hash (j + 3)))
  let hash := xorAt hash (j + 3) (one &&& ~~~(lane hash (j + 4)))
  xorAt hash (j + 4) (two &&& ~~~one)

/-- `for (unsigned int j = 0; j < StateSize; j += 5)`. -/
def chi (hash : Lanes) : Lanes :=
  (List.range 5).foldl (fun hash row => chiPlane hash (5 * row)) hash

def xorMasks : List (BitVec 64) :=
  [0x0000000000000001#64, 0x0000000000008082#64, 0x800000000000808a#64,
    0x8000000080008000#64, 0x000000000000808b#64, 0x0000000080000001#64,
    0x8000000080008081#64, 0x8000000000008009#64, 0x000000000000008a#64,
    0x0000000000000088#64, 0x0000000080008009#64, 0x000000008000000a#64,
    0x000000008000808b#64, 0x800000000000008b#64, 0x8000000000008089#64,
    0x8000000000008003#64, 0x8000000000008002#64, 0x8000000000000080#64,
    0x000000000000800a#64, 0x800000008000000a#64, 0x8000000080008081#64,
    0x8000000000008080#64, 0x0000000080000001#64, 0x8000000080008008#64]

def round (hash : Lanes) (xorMask : BitVec 64) : Lanes :=
  xorAt (chi (rhoPi (theta hash))) 0 xorMask

/-- `re-compute state`. -/
def recompute (hash : Lanes) : Lanes := xorMasks.foldl round hash

/-! ## The standard -/

abbrev Sheet : Type := Fin 5 → Fin 5 → BitVec 64

namespace Sheet

def column (a : Sheet) (x : Fin 5) : BitVec 64 := a x 0 ^^^ a x 1 ^^^ a x 2 ^^^ a x 3 ^^^ a x 4

def theta (a : Sheet) : Sheet := fun x y =>
  a x y ^^^ (column a (x - 1) ^^^ (column a (x + 1)).rotateLeft 1)

/-- The lanes in the order in which the offsets are given to them. -/
def walk : Nat → Fin 5 × Fin 5
  | 0 => (1, 0)
  | t + 1 => ((walk t).2, 2 * (walk t).1 + 3 * (walk t).2)

def offset (x y : Fin 5) : Nat :=
  match (List.range 24).find? fun t => walk t = (x, y) with
  | some t => (t + 1) * (t + 2) / 2 % 64
  | none => 0

def rho (a : Sheet) : Sheet := fun x y => (a x y).rotateLeft (offset x y)

def pi (a : Sheet) : Sheet := fun x y => a (x + 3 * y) x

def chi (a : Sheet) : Sheet := fun x y => a x y ^^^ (~~~(a (x + 1) y) &&& a (x + 2) y)

def iota (constant : BitVec 64) (a : Sheet) : Sheet := fun x y =>
  if x = 0 ∧ y = 0 then a x y ^^^ constant else a x y

/-- The register of eight bits behind the round constants. -/
def feedback (register : BitVec 8) : BitVec 8 :=
  (register <<< 1) ^^^ (if register.msb then 0x71#8 else 0)

def registerBit (t : Nat) : Bool :=
  ((List.range t).foldl (fun register _ => feedback register) 1).getLsbD 0

def roundConstant (index : Nat) : BitVec 64 :=
  (List.range 7).foldl (fun constant j =>
    if registerBit (j + 7 * index) then constant ||| 1#64 <<< (2 ^ j - 1) else constant) 0

def round (a : Sheet) (index : Nat) : Sheet :=
  iota (roundConstant index) (chi (pi (rho (theta a))))

def permutation (a : Sheet) : Sheet := (List.range 24).foldl round a

end Sheet

/-- The bytes of a sheet, lane after lane. -/
def sheetByte (a : Sheet) (index : Nat) : UInt8 :=
  UInt8.ofNat ((a (Fin.ofNat 5 (index / 8)) (Fin.ofNat 5 (index / 8 / 5))).toNat /
    2 ^ (8 * (index % 8)))

/-- The lanes of the code as the standard names them. -/
def sheet (hash : Lanes) : Sheet := fun x y => lane hash (x.val + 5 * y.val)

theorem xorMasks_eq : xorMasks = (List.range 24).map Sheet.roundConstant := by decide +kernel

theorem rotateLeft_eq (x : BitVec 64) {numBits : Nat} (small : numBits < 64) :
    rotateLeft x numBits = x.rotateLeft numBits := by
  rw [rotateLeft, BitVec.rotateLeft_def, Nat.mod_eq_of_lt small]

theorem lane_put (hash : Lanes) (index : Nat) (value : BitVec 64) (other : Nat)
    (inside : index < 25) :
    lane (put hash index value) other = if other = index then value else lane hash other := by
  by_cases same : other = index
  · subst same
    simp [lane, put, inside]
  · simp [lane, put, same, Ne.symm same]

theorem lane_xorAt (hash : Lanes) {index : Nat} (inside : index < 25) (value : BitVec 64)
    (other : Nat) :
    lane (xorAt hash index value) other =
      if other = index then lane hash other ^^^ value else lane hash other := by
  rw [xorAt, lane_put _ _ _ _ inside]
  by_cases same : other = index
  · rw [if_pos same, if_pos same, same]
  · rw [if_neg same, if_neg same]

/-! ## Theta -/

/-- What a column is mixed with. -/
def thetaMix (coefficients : List (BitVec 64)) (i : Nat) : BitVec 64 :=
  coefficients.getD (mod5 (i + 4)) 0 ^^^ rotateLeft (coefficients.getD (mod5 (i + 1)) 0) 1

theorem lane_thetaColumn (coefficients : List (BitVec 64)) (hash : Lanes) {i cell : Nat}
    (column : i < 5) (inside : cell < 25) :
    lane (thetaColumn coefficients hash i) cell =
      if cell % 5 = i then lane hash cell ^^^ thetaMix coefficients (cell % 5)
      else lane hash cell := by
  simp only [thetaColumn, lane_xorAt _ (show i < 25 by omega),
    lane_xorAt _ (show i + 5 < 25 by omega), lane_xorAt _ (show i + 10 < 25 by omega),
    lane_xorAt _ (show i + 15 < 25 by omega), lane_xorAt _ (show i + 20 < 25 by omega)]
  by_cases same : cell % 5 = i
  · rw [if_pos same, same, thetaMix]
    have row : cell = i + 5 * (cell / 5) := by omega
    have small : cell / 5 < 5 := by omega
    generalize cell / 5 = quotient at row small
    subst row
    interval_cases quotient <;> simp
  · rw [if_neg same, if_neg (by omega), if_neg (by omega), if_neg (by omega), if_neg (by omega),
      if_neg (by omega)]

theorem theta_eq (hash : Lanes) : sheet (theta hash) = Sheet.theta (sheet hash) := by
  funext x y
  have fifth : (x.val + 5 * y.val) % 5 = x.val := by omega
  have columns : ∀ x : Fin 5,
      ((List.range 5).map (coefficient hash)).getD x.val 0 = Sheet.column (sheet hash) x := by
    intro x
    exact List.getD_map_range x.isLt 0
  have left : ∀ x : Fin 5, mod5 (x.val + 4) = (x - 1).val := by decide
  have right : ∀ x : Fin 5, mod5 (x.val + 1) = (x + 1).val := by decide
  have lanes := Memory.foldl_classes (fun cell => cell % 5)
    (fun state cell => lane state cell ^^^
      thetaMix ((List.range 5).map (coefficient hash)) (cell % 5))
    (fun state i member cell inside =>
      lane_thetaColumn _ state (List.mem_range.mp member) inside)
    (fun state other cell inside near => by rw [near cell inside rfl])
    List.nodup_range hash (x.val + 5 * y.val) (by omega)
  rw [sheet, theta, lanes, if_pos (by rw [fifth]; simp), fifth, thetaMix, left, right, columns,
    columns, rotateLeft_eq _ (by decide)]
  rfl

/-! ## Rho and Pi -/

/-- The lines follow the walk of the standard. -/
theorem rhoPiLines_walk : ∀ x y : Fin 5, (x, y) ≠ (0, 0) → ∃ index < 24,
    rhoPiLines[index]? = some (x.val + 5 * y.val, Sheet.offset (x + 3 * y) x) ∧
      (1 :: rhoPiLines.map Prod.fst)[index]? = some ((x + 3 * y).val + 5 * x.val) := by
  decide +kernel

theorem rhoPi_eq (hash : Lanes) : sheet (rhoPi hash) = Sheet.pi (Sheet.rho (sheet hash)) := by
  funext x y
  have valid : ∀ line ∈ rhoPiLines, line.1 < 25 := by decide
  have small : ∀ line ∈ rhoPiLines, line.2 < 64 := by decide
  by_cases origin : (x, y) = (0, 0)
  · cases origin
    have other := Memory.foldl_move_other rotateLeft lane_put valid (hash, lane hash 1) 0
      (by decide)
    have zero : Sheet.offset 0 0 = 0 := by decide
    change lane (rhoPiLines.foldl rhoPiLine (hash, lane hash 1)).1 0 =
      (lane hash 0).rotateLeft (Sheet.offset 0 0)
    rw [zero]
    exact other.trans (by simp [BitVec.rotateLeft_def, BitVec.ushiftRight_eq_zero])
  · rcases rhoPiLines_walk x y origin with ⟨index, _, line, source⟩
    have before : (lane hash 1 :: rhoPiLines.map fun line => lane hash line.1)[index]? =
        some (lane hash ((x + 3 * y).val + 5 * x.val)) := by
      have mapped := congrArg (Option.map (lane hash)) source
      rw [← List.getElem?_map, List.map_cons, List.map_map] at mapped
      exact mapped
    have moved := Memory.foldl_move rotateLeft lane_put valid (by decide) hash
      (lane hash 1) line before
    change lane (rhoPiLines.foldl rhoPiLine (hash, lane hash 1)).1 (x.val + 5 * y.val) = _
    refine (moved.trans ?_)
    rw [rotateLeft_eq _ (small _ (List.mem_of_getElem? line))]
    rfl

/-! ## Chi -/

/-- The new lane of a plane. -/
def chiMix (hash : Lanes) (cell : Nat) : BitVec 64 :=
  lane hash cell ^^^ (lane hash (5 * (cell / 5) + (cell % 5 + 2) % 5) &&&
    ~~~(lane hash (5 * (cell / 5) + (cell % 5 + 1) % 5)))

theorem lane_chiPlane (hash : Lanes) {row cell : Nat} (plane : row < 5) (inside : cell < 25) :
    lane (chiPlane hash (5 * row)) cell =
      if cell / 5 = row then chiMix hash cell else lane hash cell := by
  simp only [chiPlane, lane_xorAt _ (show 5 * row < 25 by omega),
    lane_xorAt _ (show 5 * row + 1 < 25 by omega), lane_xorAt _ (show 5 * row + 2 < 25 by omega),
    lane_xorAt _ (show 5 * row + 3 < 25 by omega), lane_xorAt _ (show 5 * row + 4 < 25 by omega)]
  by_cases same : cell / 5 = row
  · rw [if_pos same, chiMix, same]
    have place : cell = 5 * row + cell % 5 := by omega
    have small : cell % 5 < 5 := by omega
    generalize cell % 5 = remainder at place small
    subst place
    interval_cases remainder <;> simp
  · rw [if_neg same, if_neg (by omega), if_neg (by omega), if_neg (by omega), if_neg (by omega),
      if_neg (by omega)]

theorem chi_eq (hash : Lanes) : sheet (chi hash) = Sheet.chi (sheet hash) := by
  funext x y
  have row : (x.val + 5 * y.val) / 5 = y.val := by omega
  have lanes := Memory.foldl_classes (fun cell => cell / 5) chiMix
    (fun state i member cell inside => lane_chiPlane state (List.mem_range.mp member) inside)
    (fun state other cell inside near => by
      rw [chiMix, chiMix, near cell inside rfl, near _ (by omega) (by omega),
        near _ (by omega) (by omega)])
    List.nodup_range hash (x.val + 5 * y.val) (by omega)
  have next : ∀ x : Fin 5, (x + 1).val = (x.val + 1) % 5 := by decide
  have second : ∀ x : Fin 5, (x + 2).val = (x.val + 2) % 5 := by decide
  have fifth : (x.val + 5 * y.val) % 5 = x.val := by omega
  rw [sheet, chi, lanes, if_pos (by rw [row]; simp), chiMix, row, fifth, BitVec.and_comm,
    Nat.add_comm (5 * y.val), Nat.add_comm (5 * y.val), ← next, ← second]
  rfl

theorem round_eq (hash : Lanes) (index : Nat) :
    sheet (round hash (Sheet.roundConstant index)) = Sheet.round (sheet hash) index := by
  rw [Sheet.round, ← theta_eq, ← rhoPi_eq, ← chi_eq]
  funext x y
  have origin : x.val + 5 * y.val = 0 ↔ x = 0 ∧ y = 0 := by
    rw [Fin.ext_iff, Fin.ext_iff]
    simp
  rw [sheet, round, lane_xorAt _ (by decide), Sheet.iota]
  simp only [origin]
  rfl

/-- The loop of `processBlock` is the permutation of the standard. -/
theorem recompute_eq (hash : Lanes) :
    sheet (recompute hash) = Sheet.permutation (sheet hash) := by
  rw [recompute, xorMasks_eq, Sheet.permutation, List.foldl_map]
  generalize List.range 24 = indices
  induction indices generalizing hash with
  | nil => rfl
  | cons index rest induction =>
      rw [List.foldl_cons, List.foldl_cons, induction, round_eq]

end Pmud.HashLibrary.Keccak
