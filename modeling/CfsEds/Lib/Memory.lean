import Mathlib.Data.BitVec
import Mathlib.Algebra.Order.Ring.Nat
import Mathlib.Tactic.Ring

/-!
# Machine words and byte memory

Machine integers are numbers, reduced to their width (`uint16`, `uint32`, `sizeT`) wherever the C
code may overflow. Memory is a total function from addresses to bytes. `readLE m a n` is the number
stored in the `n` bytes at `a`, `writeLE m a n v` stores `v` there. A read only
depends on its own bytes (`readLE_congr`), a write only changes its own bytes
(`writeLE_of_outside`), and reading back gives the number modulo the width
(`readLE_writeLE`). `readBytes` and `writeBytes` do the same for strings of bytes.
-/

namespace CfsEds.Lib.Memory

/-- Reduction to `size_t`. -/
def sizeT (x : Nat) : Nat := x % 2 ^ 64

/-- Reduction to `uint16`. -/
def uint16 (x : Nat) : Nat := x % 2 ^ 16

/-- Reduction to `uint32`. -/
def uint32 (x : Nat) : Nat := x % 2 ^ 32

/-- The conversion of a signed number to `uint32`. -/
def intToUint32 (x : Int) : Nat := (x % 2 ^ 32).toNat

/-- Bytes by address. -/
abbrev Mem := Nat → BitVec 8

/-- The number in the `n` bytes at `a`, least significant byte first. -/
def readLE (m : Mem) (a : Nat) : Nat → Nat
  | 0 => 0
  | n + 1 => (m a).toNat + 256 * readLE m (a + 1) n

/-- Stores `v` in the `n` bytes at `a`, least significant byte first. -/
def writeLE (m : Mem) (a n v : Nat) : Mem := fun i =>
  if a ≤ i ∧ i < a + n then BitVec.ofNat 8 (v / 256 ^ (i - a)) else m i

theorem readLE_lt (m : Mem) : ∀ (n a : Nat), readLE m a n < 256 ^ n := by
  intro n
  induction n with
  | zero => intro a; simp [readLE]
  | succ n ih =>
    intro a
    have hbyte := (m a).isLt
    have hrest := ih (a + 1)
    rw [readLE, Nat.pow_succ]
    omega

/-- A read depends on its own bytes only. -/
theorem readLE_congr {m m' : Mem} :
    ∀ (n a : Nat), (∀ i, a ≤ i → i < a + n → m i = m' i) → readLE m a n = readLE m' a n := by
  intro n
  induction n with
  | zero => intro a _; rfl
  | succ n ih =>
    intro a h
    rw [readLE, readLE, h a (by omega) (by omega),
      ih (a + 1) fun i hi hi' => h i (by omega) (by omega)]

theorem writeLE_of_outside {m : Mem} {a n v i : Nat} (h : i < a ∨ a + n ≤ i) :
    writeLE m a n v i = m i := by
  rw [writeLE, if_neg (by omega)]

/-- A write elsewhere is not seen. -/
theorem readLE_writeLE_of_disjoint {m : Mem} {a n b k v : Nat} (h : a + n ≤ b ∨ b + k ≤ a) :
    readLE (writeLE m b k v) a n = readLE m a n := by
  apply readLE_congr
  intro i hi hi'
  exact writeLE_of_outside (by omega)

private theorem readLE_of_digits {m : Mem} :
    ∀ (n a v : Nat), (∀ i, i < n → m (a + i) = BitVec.ofNat 8 (v / 256 ^ i)) →
      readLE m a n = v % 256 ^ n := by
  intro n
  induction n with
  | zero => intro a v _; simp [readLE, Nat.mod_one]
  | succ n ih =>
    intro a v h
    have hfirst : m a = BitVec.ofNat 8 v := by
      simpa using h 0 (by omega)
    have hrest : readLE m (a + 1) n = v / 256 % 256 ^ n := by
      apply ih
      intro i hi
      rw [show a + 1 + i = a + (i + 1) by omega, h (i + 1) (by omega), Nat.div_div_eq_div_mul,
        Nat.pow_succ']
    rw [readLE, hfirst, hrest, Nat.pow_succ', Nat.mod_mul]
    simp

/-- Reading back what was written. -/
theorem readLE_writeLE (m : Mem) (a n v : Nat) : readLE (writeLE m a n v) a n = v % 256 ^ n := by
  apply readLE_of_digits
  intro i hi
  rw [writeLE, if_pos (by omega), show a + i - a = i by omega]

theorem readLE_writeLE_of_lt {m : Mem} {a n v : Nat} (h : v < 256 ^ n) :
    readLE (writeLE m a n v) a n = v := by
  rw [readLE_writeLE, Nat.mod_eq_of_lt h]

/-- Zero bytes hold the number zero. -/
theorem readLE_zero {m : Mem} :
    ∀ (n a : Nat), (∀ i, a ≤ i → i < a + n → m i = 0) → readLE m a n = 0 := by
  intro n
  induction n with
  | zero => intro a _; rfl
  | succ n ih =>
    intro a h
    rw [readLE, h a (by omega) (by omega), ih (a + 1) fun i hi hi' => h i (by omega) (by omega)]
    rfl

/-! ## Strings of bytes -/

/-- The `n` bytes at `a`. -/
def readBytes (m : Mem) (a n : Nat) : List (BitVec 8) := (List.range n).map fun i => m (a + i)

/-- Stores a string of bytes at `a`. -/
def writeBytes (m : Mem) (a : Nat) (l : List (BitVec 8)) : Mem := fun i =>
  if a ≤ i ∧ i < a + l.length then l.getD (i - a) 0 else m i

@[simp] theorem length_readBytes (m : Mem) (a n : Nat) : (readBytes m a n).length = n := by
  simp [readBytes]

theorem readBytes_congr {m m' : Mem} {a n : Nat} (h : ∀ i, a ≤ i → i < a + n → m i = m' i) :
    readBytes m a n = readBytes m' a n := by
  unfold readBytes
  refine List.map_congr_left fun i hi => ?_
  have hi' := List.mem_range.1 hi
  exact h (a + i) (by omega) (by omega)

theorem writeBytes_of_outside {m : Mem} {a i : Nat} {l : List (BitVec 8)}
    (h : i < a ∨ a + l.length ≤ i) : writeBytes m a l i = m i := by
  rw [writeBytes, if_neg (by omega)]

theorem readBytes_writeBytes (m : Mem) (a : Nat) (l : List (BitVec 8)) :
    readBytes (writeBytes m a l) a l.length = l := by
  apply List.ext_getElem
  · simp [readBytes]
  · intro i _ hi
    have hin : a ≤ a + i ∧ a + i < a + l.length := by omega
    simp [readBytes, writeBytes, hi]

end CfsEds.Lib.Memory
