import CfsEds.Lib.Bits
import Mathlib.Tactic.Ring

/-!
# Numbers in bytes

`leBytes n x` is the `n` low bytes of a number, the least significant first, and `leValue`
reads such bytes back. `nativeBytes` and `nativeValue` are the same in the byte order of a
machine. The bits of the bytes in the reverse order are the bits of the number, from the most
significant one (`bytesBits_reverse_leBytes`).
-/

namespace CfsEds.Lib.ByteOrder

open Bits List

/-- The bytes of a number, least significant first. -/
def leBytes : Nat → Nat → List (BitVec 8)
  | 0, _ => []
  | n + 1, x => BitVec.ofNat 8 x :: leBytes n (x / 256)

/-- The number of some bytes. -/
def leValue : List (BitVec 8) → Nat
  | [] => 0
  | b :: l => b.toNat + 256 * leValue l

/-- The order of the bytes of a number in memory. -/
inductive Endian where
  | little
  | big
  deriving DecidableEq, Repr

/-- The bytes of a number in memory. -/
def nativeBytes (e : Endian) (n x : Nat) : List (BitVec 8) :=
  match e with
  | .little => leBytes n x
  | .big => (leBytes n x).reverse

/-- The number in some bytes of memory. -/
def nativeValue (e : Endian) (l : List (BitVec 8)) : Nat :=
  match e with
  | .little => leValue l
  | .big => leValue l.reverse

@[simp] theorem length_leBytes (n x : Nat) : (leBytes n x).length = n := by
  induction n generalizing x with
  | zero => rfl
  | succ n ih => rw [leBytes, length_cons, ih]

@[simp] theorem length_nativeBytes (e : Endian) (n x : Nat) : (nativeBytes e n x).length = n := by
  cases e with
  | little => exact length_leBytes n x
  | big => exact (length_reverse).trans (length_leBytes n x)


theorem leBytes_leValue (l : List (BitVec 8)) : leBytes l.length (leValue l) = l := by
  induction l with
  | nil => rfl
  | cons b l ih =>
    have hb := b.isLt
    rw [length_cons, leBytes, leValue]
    have hhead : BitVec.ofNat 8 (b.toNat + 256 * leValue l) = b := by
      apply BitVec.eq_of_toNat_eq
      rw [BitVec.toNat_ofNat]
      omega
    have htail : (b.toNat + 256 * leValue l) / 256 = leValue l := by omega
    rw [hhead, htail, ih]

theorem leValue_lt (l : List (BitVec 8)) : leValue l < 256 ^ l.length := by
  induction l with
  | nil => exact Nat.one_pos
  | cons b l ih =>
    have hb := b.isLt
    rw [leValue, length_cons, Nat.pow_succ]
    omega


theorem nativeBytes_nativeValue (e : Endian) (l : List (BitVec 8)) :
    nativeBytes e l.length (nativeValue e l) = l := by
  cases e with
  | little => exact leBytes_leValue l
  | big =>
    have h := leBytes_leValue l.reverse
    rw [length_reverse] at h
    rw [nativeValue, nativeBytes, h, reverse_reverse]

theorem nativeValue_lt (e : Endian) (l : List (BitVec 8)) : nativeValue e l < 256 ^ l.length := by
  cases e with
  | little => exact leValue_lt l
  | big =>
    have h := leValue_lt l.reverse
    rwa [length_reverse] at h


theorem lowBits_ofNat (x : Nat) : lowBits 8 (BitVec.ofNat 8 x) = descending x.testBit 8 :=
  descending_congr fun i hi => by
    rw [BitVec.getLsbD_ofNat, decide_eq_true hi, Bool.true_and]

/-- The most significant byte first, the bits of the bytes are those of the number. -/
theorem bytesBits_reverse_leBytes (n x : Nat) :
    bytesBits (leBytes n x).reverse = descending x.testBit (8 * n) := by
  induction n generalizing x with
  | zero => rfl
  | succ n ih =>
    rw [leBytes, reverse_cons, bytesBits_append, ih, bytesBits_cons, bytesBits_nil,
      append_nil, lowBits_ofNat, show 8 * (n + 1) = 8 * n + 8 by omega, descending_add]
    congr 1
    refine descending_congr fun i _ => ?_
    rw [show (256 : Nat) = 2 ^ 8 by norm_num, Nat.testBit_div_two_pow, Nat.add_comm]

end CfsEds.Lib.ByteOrder
