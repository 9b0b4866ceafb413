import Mathlib.Data.BitVec

/-!
# System times

`CFE_TIME_SysTime_t` is a pair of 32-bit words: seconds, and subseconds in units of
2⁻³² s. Read together they are one 64-bit count (`SysTime.toNat`), and
`CFE_TIME_Add` and `CFE_TIME_Subtract` are addition and subtraction of these counts
modulo 2⁶⁴ (`toNat_add`, `toNat_subtract`).

`CFE_TIME_Compare` is documented as a comparison on the circle of 2⁶⁴ counts: A is less
than B when the shortest arc from A to B runs clockwise. It only looks at the seconds
unless they are equal, so that it is right except where the seconds are exactly half the
circle apart (`compare_circular_iff`).
-/

namespace CfsEds.Time

open BitVec

/-- `CFE_TIME_SysTime_t`. -/
structure SysTime where
  seconds : BitVec 32
  subseconds : BitVec 32
  deriving DecidableEq, Repr, Inhabited

/-- `CFE_TIME_Compare_t`. -/
inductive TimeCompare where
  | aLtB
  | equal
  | aGtB
  deriving DecidableEq, Repr

namespace SysTime

/-- The 64-bit count a time stands for. -/
def toNat (t : SysTime) : Nat := t.seconds.toNat * 2 ^ 32 + t.subseconds.toNat

/-- The time of a count. -/
def ofNat (n : Nat) : SysTime := ⟨BitVec.ofNat 32 (n / 2 ^ 32), BitVec.ofNat 32 n⟩

/-- `CFE_TIME_Add`. -/
def add (time1 time2 : SysTime) : SysTime :=
  let subseconds := time1.subseconds + time2.subseconds
  -- the sum of the subseconds rolled over
  if subseconds < time1.subseconds then ⟨time1.seconds + time2.seconds + 1#32, subseconds⟩
  else ⟨time1.seconds + time2.seconds, subseconds⟩

/-- `CFE_TIME_Subtract`. -/
def subtract (time1 time2 : SysTime) : SysTime :=
  let subseconds := time1.subseconds - time2.subseconds
  if time1.subseconds < subseconds then ⟨time1.seconds - time2.seconds - 1#32, subseconds⟩
  else ⟨time1.seconds - time2.seconds, subseconds⟩

/-- `CFE_TIME_NEGATIVE`. -/
def negative : BitVec 32 := 0x80000000#32

/-- `CFE_TIME_Compare`. -/
def compare (timeA timeB : SysTime) : TimeCompare :=
  if timeB.seconds < timeA.seconds then
    -- rollover is assumed if the difference is too large
    if negative < timeA.seconds - timeB.seconds then .aLtB else .aGtB
  else if timeA.seconds < timeB.seconds then
    if negative < timeB.seconds - timeA.seconds then .aGtB else .aLtB
  else if timeB.subseconds < timeA.subseconds then .aGtB
  else if timeA.subseconds < timeB.subseconds then .aLtB
  else .equal

/-! ## Counts -/

theorem toNat_lt (t : SysTime) : t.toNat < 2 ^ 64 := by
  unfold toNat
  omega

theorem toNat_injective {a b : SysTime} (h : a.toNat = b.toNat) : a = b := by
  obtain ⟨as, asub⟩ := a
  obtain ⟨bs, bsub⟩ := b
  simp only [toNat] at h
  have hs : as.toNat = bs.toNat := by omega
  have hsub : asub.toNat = bsub.toNat := by omega
  rw [eq_of_toNat_eq hs, eq_of_toNat_eq hsub]

theorem toNat_inj {a b : SysTime} : a.toNat = b.toNat ↔ a = b := ⟨toNat_injective, fun h => h ▸ rfl⟩

theorem toNat_add (a b : SysTime) : (add a b).toNat = (a.toNat + b.toNat) % 2 ^ 64 := by
  obtain ⟨as, asub⟩ := a
  obtain ⟨bs, bsub⟩ := b
  unfold add
  dsimp only
  split
  next h =>
    rw [BitVec.lt_def, BitVec.toNat_add] at h
    simp only [toNat, BitVec.toNat_add, BitVec.toNat_ofNat]
    omega
  next h =>
    rw [BitVec.lt_def, BitVec.toNat_add] at h
    simp only [toNat, BitVec.toNat_add]
    omega

theorem toNat_subtract (a b : SysTime) :
    (subtract a b).toNat = (a.toNat + 2 ^ 64 - b.toNat) % 2 ^ 64 := by
  obtain ⟨as, asub⟩ := a
  obtain ⟨bs, bsub⟩ := b
  unfold subtract
  dsimp only
  split
  next h =>
    rw [BitVec.lt_def, toNat_sub] at h
    simp only [toNat, toNat_sub, BitVec.toNat_ofNat]
    omega
  next h =>
    rw [BitVec.lt_def, toNat_sub] at h
    simp only [toNat, toNat_sub]
    omega

/-! ## Comparison -/

/-- What the comparison decides on, in counts. -/
theorem compare_eq_aLtB_iff (a b : SysTime) : compare a b = .aLtB ↔
      b.seconds.toNat + 2 ^ 31 < a.seconds.toNat ∨
      a.seconds.toNat < b.seconds.toNat ∧ b.seconds.toNat ≤ a.seconds.toNat + 2 ^ 31 ∨
      a.seconds = b.seconds ∧ a.subseconds.toNat < b.subseconds.toNat := by
  simp only [compare, negative, BitVec.lt_def, toNat_sub, BitVec.toNat_ofNat, ← BitVec.toNat_inj]
  split_ifs <;> simp <;> omega

theorem compare_eq_aGtB_iff (a b : SysTime) : compare a b = .aGtB ↔ compare b a = .aLtB := by
  rw [compare_eq_aLtB_iff]
  simp only [compare, negative, BitVec.lt_def, toNat_sub, BitVec.toNat_ofNat, ← BitVec.toNat_inj]
  split_ifs <;> simp <;> omega

theorem compare_eq_equal_iff (a b : SysTime) : compare a b = .equal ↔ a = b := by
  rw [← toNat_inj]
  simp only [compare, negative, BitVec.lt_def, toNat]
  split_ifs <;> simp <;> omega

/-- A and B face each other on the circle of counts. -/
def Opposite (a b : SysTime) : Prop := (a.toNat + 2 ^ 63) % 2 ^ 64 = b.toNat

/-- The comparison that the documentation describes: less is a clockwise shortest arc,
greater is a shortest arc the other way, and only a time itself is equal to it. -/
def ComparesCircularly (a b : SysTime) : Prop :=
  (compare a b = .aLtB ↔
    1 ≤ (subtract b a).toNat ∧ (subtract b a).toNat ≤ 2 ^ 63 - 1) ∧
  (compare a b = .aGtB ↔
    1 ≤ (subtract a b).toNat ∧ (subtract a b).toNat ≤ 2 ^ 63 - 1) ∧
  (compare a b = .equal ↔ a = b)

/-- The seconds are half the circle apart, and the time with the larger seconds has the
larger subseconds too. -/
def PastHalfCircle (a b : SysTime) : Prop :=
  a.seconds.toNat = b.seconds.toNat + 2 ^ 31 ∧ b.subseconds.toNat < a.subseconds.toNat

/-- The comparison takes the shorter arc from `a` to `b` to be clockwise when it should,
but for two times past half the circle. -/
theorem compare_aLtB_circular {a b : SysTime} (hopp : ¬ Opposite a b) : (compare a b = .aLtB ↔
      1 ≤ (subtract b a).toNat ∧ (subtract b a).toNat ≤ 2 ^ 63 - 1) ↔
    ¬ PastHalfCircle a b ∧ ¬ PastHalfCircle b a := by
  rw [compare_eq_aLtB_iff, toNat_subtract, ← BitVec.toNat_inj]
  simp only [Opposite, PastHalfCircle, toNat] at *
  omega

theorem compare_circular_iff (a b : SysTime) (hopp : ¬ Opposite a b) :
    ComparesCircularly a b ↔ ¬ PastHalfCircle a b ∧ ¬ PastHalfCircle b a := by
  have hopp' : ¬ Opposite b a := by
    have hb := b.toNat_lt
    unfold Opposite at *
    omega
  have hlt := compare_aLtB_circular hopp
  have hgt := compare_aLtB_circular hopp'
  rw [← compare_eq_aGtB_iff] at hgt
  refine ⟨fun h => hlt.mp h.1, fun h => ⟨hlt.mpr h, hgt.mpr h.symm, compare_eq_equal_iff a b⟩⟩

/-- Half a second before the seconds roll over, and just after. -/
theorem compare_circular_rollover :
    ComparesCircularly ⟨0xFFFFFFFF#32, 0x80000000#32⟩ ⟨0#32, 0#32⟩ :=
  (compare_circular_iff _ _ (by unfold Opposite; decide)).mpr
    ⟨by unfold PastHalfCircle; decide, by unfold PastHalfCircle; decide⟩

/-- Just past half the circle the comparison still says greater, though the shortest arc
runs clockwise. -/
theorem compare_past_half_circle : ¬ Opposite ⟨0x80000000#32, 1#32⟩ ⟨0#32, 0#32⟩ ∧
      (subtract ⟨0#32, 0#32⟩ ⟨0x80000000#32, 1#32⟩).toNat = 2 ^ 63 - 1 ∧
      compare ⟨0x80000000#32, 1#32⟩ ⟨0#32, 0#32⟩ = .aGtB ∧
      ¬ ComparesCircularly ⟨0x80000000#32, 1#32⟩ ⟨0#32, 0#32⟩ := by
  refine ⟨by unfold Opposite; decide, by decide, by decide, fun h => ?_⟩
  exact absurd (h.1.mpr (by decide)) (by decide)

end SysTime

end CfsEds.Time
