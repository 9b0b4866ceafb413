import Mathlib.Data.BitVec
import Mathlib.Data.List.Basic
import Mathlib.Logic.Function.Iterate

/-!
# The serial CRC register

A CRC register of width `w` that shifts towards its top bit, over an arbitrary
generator polynomial: one message bit enters per `step`, and `feed` runs a whole
bit string through. Nothing here names a particular checksum.

The register is linear over exclusive or (`step_xor`), which is what makes a
byte table work: feeding bits to `c` is feeding them to zero and shifting `c`
alone (`feed_eq_xor_shifts`). Two further facts are used to tell registers
apart: a generator with its low bit set never loses information
(`shift_injective`), and one divisible by `x + 1` carries the parity of what
was fed (`parity_step`, `parity_shifts`).
-/

namespace CfsEds.Lib.Crc

open BitVec

variable {w : Nat}

/-- One clock of the register: the top bit leaves, is combined with the message
bit, and feeds the generator back. -/
def step (poly c : BitVec w) (b : Bool) : BitVec w :=
  if c.msb ^^ b then (c <<< 1) ^^^ poly else c <<< 1

/-- The register after a bit string. -/
def feed (poly : BitVec w) (c : BitVec w) (bits : List Bool) : BitVec w :=
  bits.foldl (step poly) c

/-- One clock without a message bit. -/
def shift (poly c : BitVec w) : BitVec w := step poly c false

/-- `n` clocks without message bits. -/
def shifts (poly : BitVec w) (n : Nat) (c : BitVec w) : BitVec w := (shift poly)^[n] c

@[simp] theorem feed_cons (poly c : BitVec w) (b : Bool) (bs : List Bool) :
    feed poly c (b :: bs) = feed poly (step poly c b) bs := rfl

theorem feed_append (poly c : BitVec w) (xs ys : List Bool) :
    feed poly c (xs ++ ys) = feed poly (feed poly c xs) ys := by
  simp [feed, List.foldl_append]

theorem shifts_succ (poly : BitVec w) (n : Nat) (c : BitVec w) :
    shifts poly (n + 1) c = shifts poly n (shift poly c) := by
  simp [shifts, Function.iterate_succ_apply]

theorem shifts_add (poly : BitVec w) (m n : Nat) (c : BitVec w) :
    shifts poly (m + n) c = shifts poly m (shifts poly n c) := by
  simp [shifts, Function.iterate_add_apply]

/-- A run of zero bits is a run of plain shifts. -/
theorem feed_replicate_false (poly : BitVec w) :
    ∀ (n : Nat) (c : BitVec w), feed poly c (List.replicate n false) = shifts poly n c := by
  intro n
  induction n with
  | zero => intro c; rfl
  | succ n ih =>
    intro c
    rw [List.replicate_succ, feed_cons, ih, shifts_succ]
    rfl

/-! ## Linearity -/

private theorem xor_poly_cancel (a b p : BitVec w) : a ^^^ b = (a ^^^ p) ^^^ (b ^^^ p) := by
  ext i hi
  simp only [getElem_xor]
  cases a[i] <;> cases b[i] <;> cases p[i] <;> rfl

/-- The register is linear in its contents and in the bit that enters. -/
theorem step_xor (poly c d : BitVec w) (a b : Bool) :
    step poly (c ^^^ d) (a ^^ b) = step poly c a ^^^ step poly d b := by
  have hmsb : ((c ^^^ d).msb ^^ (a ^^ b)) = ((c.msb ^^ a) ^^ (d.msb ^^ b)) := by
    rw [msb_xor]
    cases c.msb <;> cases d.msb <;> cases a <;> cases b <;> rfl
  unfold step
  rw [hmsb, shiftLeft_xor_distrib]
  cases c.msb ^^ a <;> cases d.msb ^^ b
  · rfl
  · simp [xor_assoc]
  · simp only [Bool.xor_false, if_true, Bool.false_eq_true, if_false]
    ac_rfl
  · simp only [Bool.xor_self, Bool.false_eq_true, if_false, if_true]
    exact xor_poly_cancel _ _ _

theorem shift_xor (poly c d : BitVec w) : shift poly (c ^^^ d) = shift poly c ^^^ shift poly d := by
  simpa [shift] using step_xor poly c d false false

theorem shifts_xor (poly : BitVec w) : ∀ (n : Nat) (c d : BitVec w),
      shifts poly n (c ^^^ d) = shifts poly n c ^^^ shifts poly n d := by
  intro n
  induction n with
  | zero => intro c d; rfl
  | succ n ih => intro c d; rw [shifts_succ, shift_xor, ih, ← shifts_succ, ← shifts_succ]

/-- Feeding a string to `c ^^^ d` splits off the bare shifts of `d`. -/
theorem feed_xor_shifts (poly : BitVec w) : ∀ (bits : List Bool) (c d : BitVec w),
      feed poly (c ^^^ d) bits = feed poly c bits ^^^ shifts poly bits.length d := by
  intro bits
  induction bits with
  | nil => intro c d; rfl
  | cons b bs ih =>
    intro c d
    have hstep : step poly (c ^^^ d) b = step poly c b ^^^ shift poly d := by
      simpa [shift] using step_xor poly c d b false
    rw [feed_cons, hstep, ih, List.length_cons, shifts_succ, feed_cons]

/-- What the string contributes and what the old contents contribute. -/
theorem feed_eq_xor_shifts (poly c : BitVec w) (bits : List Bool) :
    feed poly c bits = feed poly 0#w bits ^^^ shifts poly bits.length c := by
  simpa using feed_xor_shifts poly bits 0#w c

/-! ## No information is lost -/

theorem shift_eq_zero {poly c : BitVec (w + 1)} (hpoly : poly.getLsbD 0 = true)
    (h : shift poly c = 0#(w + 1)) : c = 0#(w + 1) := by
  cases hm : c.msb with
  | true =>
    -- the generator's low bit survives: nothing shifted in can cancel it
    exfalso
    have hlow : (shift poly c).getLsbD 0 = true := by
      simp [shift, step, hm, hpoly]
    rw [h] at hlow
    simp at hlow
  | false =>
    simp only [shift, step, hm, Bool.xor_false, Bool.false_eq_true, if_false] at h
    apply eq_of_getLsbD_eq
    intro i hi
    rcases Nat.lt_or_ge i w with hiw | hiw
    · have hb : (c <<< 1).getLsbD (i + 1) = false := by rw [h]; simp
      rw [getLsbD_shiftLeft] at hb
      simpa [hiw] using hb
    have hiw' : i = w := by omega
    subst hiw'
    rw [msb_eq_getLsbD_last] at hm
    simpa using hm

/-- A generator with its low bit set gives an injective shift. -/
theorem shift_injective {poly : BitVec (w + 1)} (hpoly : poly.getLsbD 0 = true) :
    Function.Injective (shift poly) := by
  intro c d h
  have hz : shift poly (c ^^^ d) = 0#(w + 1) := by rw [shift_xor, h, BitVec.xor_self]
  have hcd : c ^^^ d = 0#(w + 1) := shift_eq_zero hpoly hz
  simpa using hcd

theorem shifts_injective {poly : BitVec (w + 1)} (hpoly : poly.getLsbD 0 = true) (n : Nat) :
    Function.Injective (shifts poly n) :=
  (shift_injective hpoly).iterate n

/-! ## Parity -/

/-- Parity of the low `n` bits. -/
def parityBelow (v : BitVec w) : Nat → Bool
  | 0 => false
  | n + 1 => parityBelow v n ^^ v.getLsbD n

/-- Parity of the whole register. -/
def parity (v : BitVec w) : Bool := parityBelow v w

theorem parityBelow_xor (u v : BitVec w) (n : Nat) :
    parityBelow (u ^^^ v) n = (parityBelow u n ^^ parityBelow v n) := by
  induction n with
  | zero => rfl
  | succ n ih =>
    simp only [parityBelow, ih, getLsbD_xor, Bool.xor_assoc, Bool.xor_left_comm]

theorem parity_xor (u v : BitVec w) : parity (u ^^^ v) = (parity u ^^ parity v) :=
  parityBelow_xor u v w

private theorem parityBelow_shiftLeft (v : BitVec w) (n : Nat) (hn : n + 1 ≤ w) :
    parityBelow (v <<< 1) (n + 1) = parityBelow v n := by
  induction n with
  | zero => simp [parityBelow]
  | succ n ih =>
    rw [parityBelow, ih (by omega), parityBelow, getLsbD_shiftLeft]
    simp [show n + 1 < w by omega]

/-- Shifting left loses exactly the top bit's parity. -/
theorem parity_shiftLeft (v : BitVec (w + 1)) : parity (v <<< 1) = (parity v ^^ v.msb) := by
  rw [parity, parityBelow_shiftLeft v w (by omega), parity, parityBelow, msb_eq_getLsbD_last]
  simp

/-- An odd generator (one divisible by `x + 1`) carries message parity along. -/
theorem parity_step {poly : BitVec (w + 1)} (hpoly : parity poly = true)
    (c : BitVec (w + 1)) (b : Bool) : parity (step poly c b) = (parity c ^^ b) := by
  unfold step
  cases hm : c.msb <;> cases b <;> simp [parity_xor, parity_shiftLeft, hpoly, hm]

/-- Plain shifts keep the parity. -/
theorem parity_shifts {poly : BitVec (w + 1)} (hpoly : parity poly = true) :
    ∀ (n : Nat) (c : BitVec (w + 1)), parity (shifts poly n c) = parity c := by
  intro n
  induction n with
  | zero => intro c; rfl
  | succ n ih =>
    intro c
    rw [shifts_succ, ih, shift, parity_step hpoly, Bool.xor_false]

/-! ## Reflected registers -/

/-- One clock of a register that shifts towards its low bit. -/
def reflectedStep (poly c : BitVec w) (b : Bool) : BitVec w :=
  if c.getLsbD 0 ^^ b then (c >>> 1) ^^^ poly else c >>> 1

/-- The register after a bit string. -/
def reflectedFeed (poly c : BitVec w) (bits : List Bool) : BitVec w :=
  bits.foldl (reflectedStep poly) c

theorem reflectedFeed_append (poly c : BitVec w) (xs ys : List Bool) :
    reflectedFeed poly c (xs ++ ys) = reflectedFeed poly (reflectedFeed poly c xs) ys := by
  simp [reflectedFeed, List.foldl_append]

theorem reverse_xor (c d : BitVec w) : (c ^^^ d).reverse = c.reverse ^^^ d.reverse := by
  ext i hi
  rw [getElem_xor, getElem_reverse, getElem_reverse, getElem_reverse, getMsbD_xor]

theorem reverse_ushiftRight_one (c : BitVec w) : (c >>> 1).reverse = c.reverse <<< 1 := by
  ext i hi
  simp only [getElem_reverse, getElem_shiftLeft, getMsbD_ushiftRight, hi,
    decide_true, Bool.true_and]

/-- Read from the other side it is the plain register. -/
theorem reverse_reflectedStep (poly c : BitVec w) (b : Bool) :
    (reflectedStep poly c b).reverse = step poly.reverse c.reverse b := by
  unfold reflectedStep step
  rw [msb_reverse]
  split
  · rw [reverse_xor, reverse_ushiftRight_one]
  · exact reverse_ushiftRight_one c

theorem reverse_reflectedFeed (poly : BitVec w) : ∀ (bits : List Bool) (c : BitVec w),
    (reflectedFeed poly c bits).reverse = feed poly.reverse c.reverse bits := by
  intro bits
  induction bits with
  | nil => intro c; rfl
  | cons b bs ih =>
    intro c
    show (reflectedFeed poly (reflectedStep poly c b) bs).reverse = _
    rw [ih, reverse_reflectedStep, feed_cons]

/-- Feeding a string to `c ^^^ d` splits off what `d` alone becomes. -/
theorem reflectedFeed_xor (poly : BitVec w) (bits : List Bool) (c d : BitVec w) :
    reflectedFeed poly (c ^^^ d) bits =
      reflectedFeed poly c bits ^^^ reflectedFeed poly d (List.replicate bits.length false) := by
  have h := feed_xor_shifts poly.reverse bits c.reverse d.reverse
  rw [← reverse_xor, ← feed_replicate_false, ← reverse_reflectedFeed, ← reverse_reflectedFeed,
    ← reverse_reflectedFeed, ← reverse_xor] at h
  have h' := congrArg BitVec.reverse h
  rwa [reverse_reverse_eq, reverse_reverse_eq] at h'

end CfsEds.Lib.Crc
