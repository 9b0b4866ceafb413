import CfsEds.Lib.Memory
import Mathlib.Data.Int.Basic
import Mathlib.Tactic.Ring

/-!
# Time intervals

`OS_time_t` counts ticks of 100 ns in a signed 64-bit integer. The functions of
`osapi-clock.h` take an interval apart into its seconds and a fractional part in some unit,
and assemble it again. `Reassembles` says that this gives the interval back.

The seconds and the fractional part are those of C: both are rounded towards zero, so that
the fractional part of a negative interval is negative or zero. The parts are unsigned, and a
negative fractional part is converted to a large number. Reassembling is therefore exact for
the intervals that are not negative and for whole seconds, and for no others
(`reassembles_iff`).

Mirroring notes:
* `/` and `%` of C are `Int.tdiv` and `Int.tmod`. A conversion to `uint32` is `intToUint32`, also
  where an expression of that type wraps. The sums and products of `int64` do not overflow
  for an interval of 64 bits, and are those of `Int`.
* `<< 30` of a negative fractional part is undefined in C; it is a multiplication here, as
  compilers have it.
-/

namespace CfsEds.Osal

open CfsEds.Lib.Memory

/-- `OS_time_t`. -/
structure OSTime where
  ticks : Int
  deriving DecidableEq, Repr

/-- `OS_TIME_TICK_RESOLUTION_NS` -/
def tickResolutionNs : Nat := 100

/-- `OS_TIME_TICKS_PER_SECOND` -/
def ticksPerSecond : Nat := 1000000000 / tickResolutionNs

/-- `OS_TIME_TICKS_PER_MSEC` -/
def ticksPerMsec : Nat := 1000000 / tickResolutionNs

/-- `OS_TIME_TICKS_PER_USEC` -/
def ticksPerUsec : Nat := 1000 / tickResolutionNs

namespace OSTime

variable (tm : OSTime)

/-- `OS_TimeGetTotalSeconds`. -/
def getTotalSeconds : Int := tm.ticks.tdiv ticksPerSecond

/-- `OS_TimeGetFractionalPart`. -/
def getFractionalPart : Int := tm.ticks.tmod ticksPerSecond

/-- `OS_TimeGetSubsecondsPart`. -/
def getSubsecondsPart : Nat :=
  -- rounded up, so that the conversion back gives the same ticks
  let frac := tm.getFractionalPart * 2 ^ 30 + (ticksPerSecond / 4 : Nat)
  intToUint32 ((frac - 1).tdiv (ticksPerSecond / 4 : Nat))

/-- A part of an interval in a unit of a number of ticks. -/
def getPart (ticks : Nat) : Nat := intToUint32 tm.getFractionalPart / ticks

/-- `OS_TimeGetMillisecondsPart`. -/
def getMillisecondsPart : Nat := tm.getPart ticksPerMsec

/-- `OS_TimeGetMicrosecondsPart`. -/
def getMicrosecondsPart : Nat := tm.getPart ticksPerUsec

/-- `OS_TimeGetNanosecondsPart`. -/
def getNanosecondsPart : Nat :=
  intToUint32 (intToUint32 tm.getFractionalPart * tickResolutionNs : Nat)

/-- `OS_TimeAssembleFromNanoseconds`. -/
def assembleFromNanoseconds (seconds : Int) (nanoseconds : Nat) : OSTime :=
  ⟨seconds * ticksPerSecond + (nanoseconds / tickResolutionNs : Nat)⟩

/-- An interval from seconds and a part in a unit of a number of ticks. -/
def assemble (ticks : Nat) (seconds : Int) (part : Nat) : OSTime :=
  ⟨seconds * ticksPerSecond + intToUint32 (part * ticks : Nat)⟩

/-- `OS_TimeAssembleFromMicroseconds`. -/
def assembleFromMicroseconds (seconds : Int) (microseconds : Nat) : OSTime :=
  assemble ticksPerUsec seconds microseconds

/-- `OS_TimeAssembleFromMilliseconds`. -/
def assembleFromMilliseconds (seconds : Int) (milliseconds : Nat) : OSTime :=
  assemble ticksPerMsec seconds milliseconds

/-- `OS_TimeAssembleFromSubseconds`. -/
def assembleFromSubseconds (seconds : Int) (subseconds : Nat) : OSTime :=
  ⟨seconds * ticksPerSecond + (subseconds * (ticksPerSecond / 4) / 2 ^ 30 : Nat)⟩

/-- `OS_TimeSubtract`. -/
def subtract (time1 time2 : OSTime) : OSTime := ⟨time1.ticks - time2.ticks⟩

/-- An interval rounded towards zero to a unit of a number of ticks. -/
def truncate (ticks : Nat) : OSTime := ⟨tm.ticks.tdiv ticks * ticks⟩

/-- Taking the interval apart and assembling it again is exact, up to the unit used. -/
structure Reassembles : Prop where
  nanoseconds : assembleFromNanoseconds tm.getTotalSeconds tm.getNanosecondsPart = tm
  subseconds : assembleFromSubseconds tm.getTotalSeconds tm.getSubsecondsPart = tm
  microseconds : assembleFromMicroseconds tm.getTotalSeconds tm.getMicrosecondsPart
    = tm.truncate ticksPerUsec
  milliseconds : assembleFromMilliseconds tm.getTotalSeconds tm.getMillisecondsPart
    = tm.truncate ticksPerMsec

/-! ## Seconds and fractional part -/

variable {tm}

theorem intToUint32_natCast {n : Nat} (hn : n < 2 ^ 32) : intToUint32 n = n := by
  unfold intToUint32
  omega

/-- An interval of seconds and a fractional part, both with the sign of the interval. -/
theorem ticks_eq (tm : OSTime) :
    tm.ticks = tm.getTotalSeconds * ticksPerSecond + tm.getFractionalPart :=
  (Int.tdiv_mul_add_tmod tm.ticks ticksPerSecond).symm

theorem getFractionalPart_of_nonneg (h : 0 ≤ tm.ticks) :
    ∃ f : Nat, f < 10000000 ∧ tm.getFractionalPart = f := by
  have hlt : tm.getFractionalPart < 10000000 := Int.tmod_lt_of_pos _ (by decide)
  have hnonneg : 0 ≤ tm.getFractionalPart := Int.tmod_nonneg _ h
  exact ⟨tm.getFractionalPart.toNat, by omega, by omega⟩

theorem getFractionalPart_of_neg (h : tm.ticks < 0) :
    -10000000 < tm.getFractionalPart ∧ tm.getFractionalPart ≤ 0 := by
  have hlt : -10000000 < tm.getFractionalPart := Int.lt_tmod_of_pos _ (by decide)
  have hneg : tm.getFractionalPart = -(-tm.ticks).tmod ticksPerSecond := by
    rw [Int.neg_tmod, Int.neg_neg]; rfl
  have hnonneg : 0 ≤ (-tm.ticks).tmod ticksPerSecond := Int.tmod_nonneg _ (by omega)
  exact ⟨hlt, by omega⟩

theorem dvd_ticks_iff : (10000000 : Int) ∣ tm.ticks ↔ tm.getFractionalPart = 0 :=
  Int.dvd_iff_tmod_eq_zero

/-! ## Intervals that are taken apart exactly -/

/-- Whole seconds before a fractional part that is a natural number of ticks. -/
theorem truncate_eq {f u : Nat} (hpos : 0 < u) (hdvd : u ∣ ticksPerSecond)
    (hsign : 0 ≤ tm.ticks ∨ f = 0) (hf : tm.getFractionalPart = f) :
    tm.truncate u = ⟨tm.getTotalSeconds * ticksPerSecond + (f / u * u : Nat)⟩ := by
  obtain ⟨k, hk⟩ := hdvd
  have hticks := ticks_eq tm
  rw [hf] at hticks
  unfold truncate
  congr 1
  rcases hsign with hsign | rfl
  · -- the division of a natural number is the floor
    have hsplit : tm.ticks = (f : Int) + tm.getTotalSeconds * k * u := by
      rw [hticks, hk]; push_cast; ring
    rw [Int.tdiv_eq_ediv_of_nonneg hsign, hsplit, Int.add_mul_ediv_right _ _ (by omega), hk]
    push_cast
    ring
  · have hsplit : tm.ticks = tm.getTotalSeconds * k * u := by
      rw [hticks, hk]; push_cast; ring
    rw [hsplit, Int.mul_tdiv_cancel _ (by omega), hk, Nat.zero_div]
    push_cast
    ring

theorem reassembles_of_natCast {f : Nat} (hf : tm.getFractionalPart = f) (hlt : f < 10000000)
    (hsign : 0 ≤ tm.ticks ∨ f = 0) : tm.Reassembles := by
  have hticks := ticks_eq tm
  have hpart : intToUint32 tm.getFractionalPart = f := by rw [hf, intToUint32_natCast (by omega)]
  have hunit : ∀ u : Nat, u * (f / u) ≤ f := fun u => Nat.mul_div_le f u
  constructor
  · have hnano : tm.getNanosecondsPart = f * 100 := by
      unfold getNanosecondsPart
      rw [hpart, intToUint32_natCast (by simp only [tickResolutionNs]; omega)]
      rfl
    unfold assembleFromNanoseconds
    cases tm
    congr 1
    simp only [tickResolutionNs] at *
    omega
  · have hsub : tm.getSubsecondsPart = (f * 2 ^ 30 + 2499999) / 2500000 := by
      have hnum : tm.getFractionalPart * 2 ^ 30 + (ticksPerSecond / 4 : Nat) - 1
          = (f * 2 ^ 30 + 2499999 : Nat) := by
        simp only [ticksPerSecond, tickResolutionNs]
        omega
      unfold getSubsecondsPart
      dsimp only
      rw [hnum]
      change intToUint32 ((((f * 2 ^ 30 + 2499999) / 2500000 : Nat)) : Int) = _
      rw [intToUint32_natCast (by omega)]
    unfold assembleFromSubseconds
    cases tm
    congr 1
    simp only [ticksPerSecond, tickResolutionNs] at *
    omega
  · rw [truncate_eq (by decide) (by decide) hsign hf]
    unfold assembleFromMicroseconds assemble getMicrosecondsPart getPart
    have hle := hunit ticksPerUsec
    rw [hpart, intToUint32_natCast (by rw [Nat.mul_comm]; omega)]
  · rw [truncate_eq (by decide) (by decide) hsign hf]
    unfold assembleFromMilliseconds assemble getMillisecondsPart getPart
    have hle := hunit ticksPerMsec
    rw [hpart, intToUint32_natCast (by rw [Nat.mul_comm]; omega)]

/-- Only the intervals that are not negative, and whole seconds, are reassembled exactly: the
nanoseconds of the others are off by 4.2949672 s. -/
theorem reassembles_iff (tm : OSTime) :
    tm.Reassembles ↔ 0 ≤ tm.ticks ∨ (10000000 : Int) ∣ tm.ticks := by
  constructor
  · intro h
    by_contra hnot
    rw [not_or, dvd_ticks_iff] at hnot
    obtain ⟨hlow, hhigh⟩ := getFractionalPart_of_neg (by omega : tm.ticks < 0)
    have hticks := ticks_eq tm
    have hnano := congrArg OSTime.ticks h.nanoseconds
    simp only [assembleFromNanoseconds, getNanosecondsPart, intToUint32, tickResolutionNs] at hnano
    omega
  · intro h
    rcases h with hpos | hdvd
    · obtain ⟨f, hlt, hf⟩ := getFractionalPart_of_nonneg hpos
      exact reassembles_of_natCast hf hlt (.inl hpos)
    · exact reassembles_of_natCast (f := 0) (dvd_ticks_iff.mp hdvd) (by omega) (.inr rfl)

/-- The difference of two times that are one tick apart. -/
theorem subtract_not_reassembles : ¬ (subtract ⟨0⟩ ⟨1⟩).Reassembles := by
  intro h
  exact absurd h.nanoseconds (by decide)

end OSTime

end CfsEds.Osal
