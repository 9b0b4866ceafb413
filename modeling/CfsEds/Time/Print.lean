import CfsEds.Lib.Calendar
import CfsEds.Lib.Decimal
import CfsEds.Osal.Clock
import CfsEds.Time.SysTime

/-!
# Microseconds, and the text of a time

`CFE_TIME_Sub2MicroSecs` and `CFE_TIME_Micro2SubSecs` convert between units of 2⁻³² s and
microseconds through the intervals of the OSAL. The first rounds down and the second up, so
that microseconds survive the way there and back (`microseconds_converted`).

`CFE_TIME_Print` writes a time as `yyyy-ddd-hh:mm:ss.xxxxx`. It adds the epoch to the seconds
field by field, carries by loops and divisions, and takes off the days of year after year.
What it writes is the instant of the Gregorian calendar that many seconds after the epoch
(`print_eq_text`); since instants have the order of their texts, so have the times
(`print_correct`).

Mirroring notes:
* The `CFE_MISSION_TIME_EPOCH_` constants are an `Instant`, a valid one. The `uint32`
  variables of `CFE_TIME_Print` are natural numbers, since for such an epoch none of them
  overflows.
* A print buffer that is `NULL` is left out.
-/

namespace CfsEds.Time

open Lib.Calendar Lib.Decimal Lib.Memory Osal

/-! ## Microseconds and subseconds -/

/-- `CFE_TIME_Sub2MicroSecs`. -/
def sub2MicroSecs (subSeconds : Nat) : Nat :=
  (OSTime.assembleFromSubseconds 0 subSeconds).getMicrosecondsPart

/-- `CFE_TIME_Micro2SubSecs`. -/
def micro2SubSecs (microSeconds : Nat) : Nat :=
  -- the conversion amount must be less than one second
  if 999999 < microSeconds then 0xFFFFFFFF
  else (OSTime.assembleFromNanoseconds 0 (intToUint32 (microSeconds * 1000 : Nat))).getSubsecondsPart

theorem sub2MicroSecs_eq {s : Nat} (hs : s < 2 ^ 32) : sub2MicroSecs s = s * 1000000 / 2 ^ 32 := by
  have hticks : s * 2500000 / 2 ^ 30 < 10000000 := by omega
  have hfrac : (OSTime.assembleFromSubseconds 0 s).getFractionalPart
      = (s * 2500000 / 2 ^ 30 : Nat) := by
    change ((0 : Int) * 10000000 + (s * 2500000 / 2 ^ 30 : Nat)).tmod 10000000 = _
    rw [Int.zero_mul, Int.zero_add]
    exact congrArg Nat.cast (Nat.mod_eq_of_lt hticks)
  unfold sub2MicroSecs OSTime.getMicrosecondsPart OSTime.getPart
  rw [hfrac, OSTime.intToUint32_natCast (by omega)]
  change s * 2500000 / 2 ^ 30 / 10 = _
  omega

/-- The next number of subseconds above a number of microseconds. -/
theorem micro2SubSecs_eq {m : Nat} (hm : m ≤ 999999) :
    micro2SubSecs m = (m * 2 ^ 32 + 999999) / 1000000 := by
  have hfrac : (OSTime.assembleFromNanoseconds 0 (intToUint32 (m * 1000 : Nat))).getFractionalPart
      = (m * 10 : Nat) := by
    have hticks : m * 1000 / 100 = m * 10 := by omega
    rw [OSTime.intToUint32_natCast (by omega)]
    change ((0 : Int) * 10000000 + (m * 1000 / 100 : Nat)).tmod 10000000 = _
    rw [hticks, Int.zero_mul, Int.zero_add]
    exact congrArg Nat.cast (Nat.mod_eq_of_lt (show m * 10 < 10000000 by omega))
  have hnum : ((m * 10 : Nat) : Int) * 2 ^ 30 + (ticksPerSecond / 4 : Nat) - 1
      = (m * 10 * 2 ^ 30 + 2499999 : Nat) := by
    simp only [ticksPerSecond, tickResolutionNs]
    omega
  unfold micro2SubSecs OSTime.getSubsecondsPart
  rw [if_neg (by omega), hfrac]
  dsimp only
  rw [hnum]
  change intToUint32 (((m * 10 * 2 ^ 30 + 2499999) / 2500000 : Nat) : Int) = _
  rw [OSTime.intToUint32_natCast (by omega)]
  omega

theorem micro2SubSecs_mono {a b : Nat} (h : a ≤ b) : micro2SubSecs a ≤ micro2SubSecs b := by
  by_cases hb : b ≤ 999999
  · rw [micro2SubSecs_eq hb, micro2SubSecs_eq (h.trans hb)]
    omega
  -- saturated above
  have hmax : micro2SubSecs b = 0xFFFFFFFF := if_pos (by omega)
  rw [hmax]
  by_cases ha : a ≤ 999999
  · rw [micro2SubSecs_eq ha]
    omega
  · exact Nat.le_of_eq (if_pos (by omega))

/-- Microseconds are converted to subseconds and back without a loss, both conversions are
monotone, and the one from subseconds rounds down. -/
theorem microseconds_converted : (∀ m ≤ 999999, sub2MicroSecs (micro2SubSecs m) = m) ∧
      (∀ a b, a ≤ b → b < 2 ^ 32 → micro2SubSecs a ≤ micro2SubSecs b) ∧
      (∀ a b, a ≤ b → b < 2 ^ 32 → sub2MicroSecs a ≤ sub2MicroSecs b) ∧
      ∀ s < 2 ^ 32, sub2MicroSecs s = s * 1000000 / 2 ^ 32 := by
  refine ⟨?_, fun a b h _ => micro2SubSecs_mono h, ?_, fun s hs => sub2MicroSecs_eq hs⟩
  · intro m hm
    rw [micro2SubSecs_eq hm, sub2MicroSecs_eq (by omega)]
    omega
  · intro a b h hb
    rw [sub2MicroSecs_eq hb, sub2MicroSecs_eq (Nat.lt_of_le_of_lt h hb)]
    omega

/-- The largest number of microseconds. -/
theorem microseconds_converted_last : sub2MicroSecs (micro2SubSecs 999999) = 999999 :=
  microseconds_converted.1 999999 (by decide)

/-! ## The text -/

/-- `CFE_TIME_PRINTED_STRING_SIZE` -/
def printedStringSize : Nat := 24

/-- The first loop of `CFE_TIME_Print`. -/
def countMinutes (numberOfMinutes numberOfSeconds : Nat) : Nat × Nat :=
  if 60 ≤ numberOfSeconds then countMinutes (numberOfMinutes + 1) (numberOfSeconds - 60)
  else (numberOfMinutes, numberOfSeconds)
termination_by numberOfSeconds

/-- `DaysInThisYear` -/
def daysInThisYear (numberOfYears : Nat) : Nat :=
  if numberOfYears % 4 = 0 then
    if numberOfYears % 100 ≠ 0 then 366
    else if numberOfYears % 400 = 0 then 366
    else 365
  else 365

theorem daysInThisYear_eq (year : Nat) : daysInThisYear year = daysInYear year := by
  unfold daysInThisYear daysInYear
  by_cases h : IsLeap year
  · rw [if_pos h]
    rw [IsLeap] at h
    split_ifs <;> omega
  · rw [if_neg h]
    rw [IsLeap] at h
    split_ifs <;> omega

/-- The loop of `CFE_TIME_Print` over the years: the year, and the days left in it. -/
def countYears (numberOfYears numberOfDays : Nat) : Nat × Nat :=
  if numberOfDays < daysInThisYear numberOfYears then (numberOfYears, numberOfDays)
  else countYears (numberOfYears + 1) (numberOfDays - daysInThisYear numberOfYears)
termination_by numberOfDays
decreasing_by
  have hpos := daysInYear_pos numberOfYears
  rw [daysInThisYear_eq] at *
  omega

/-- The numbers that `CFE_TIME_Print` writes. -/
structure PrintedFields where
  numberOfYears : Nat
  numberOfDays : Nat
  numberOfHours : Nat
  numberOfMinutes : Nat
  numberOfSeconds : Nat
  numberOfMicros : Nat
  deriving DecidableEq, Repr

/-- The first part of `CFE_TIME_Print`: the calendar time. -/
def printedFields (epoch : Instant) (timeToPrint : SysTime) : PrintedFields :=
  -- adding the epoch's seconds after computing the minutes avoids an overflow
  let carried := countMinutes (timeToPrint.seconds.toNat / 60 + epoch.minute)
    (timeToPrint.seconds.toNat % 60 + epoch.second)
  let numberOfHours := carried.1 / 60 + epoch.hour
  -- epoch days are counted from 1
  let counted := countYears epoch.year (numberOfHours / 24 + (epoch.day - 1))
  { numberOfYears := counted.1
    numberOfDays := counted.2 + 1
    numberOfHours := numberOfHours % 24
    numberOfMinutes := carried.1 % 60
    numberOfSeconds := carried.2
    -- five digits of six
    numberOfMicros := sub2MicroSecs timeToPrint.subseconds.toNat / 10 }

/-- The character `'0' + (char) n`. -/
def printedDigit (n : Nat) : BitVec 8 := 0x30#8 + BitVec.ofNat 8 n

/-- The second part of `CFE_TIME_Print`: the characters, with the terminator. -/
def printFields (f : PrintedFields) : List (BitVec 8) :=
  [printedDigit (f.numberOfYears / 1000),
   printedDigit (f.numberOfYears % 1000 / 100),
   printedDigit (f.numberOfYears % 1000 % 100 / 10),
   printedDigit (f.numberOfYears % 1000 % 100 % 10),
   0x2D#8,
   printedDigit (f.numberOfDays / 100),
   printedDigit (f.numberOfDays % 100 / 10),
   printedDigit (f.numberOfDays % 100 % 10),
   0x2D#8,
   printedDigit (f.numberOfHours / 10),
   printedDigit (f.numberOfHours % 10),
   0x3A#8,
   printedDigit (f.numberOfMinutes / 10),
   printedDigit (f.numberOfMinutes % 10),
   0x3A#8,
   printedDigit (f.numberOfSeconds / 10),
   printedDigit (f.numberOfSeconds % 10),
   0x2E#8,
   printedDigit (f.numberOfMicros / 10000),
   printedDigit (f.numberOfMicros % 10000 / 1000),
   printedDigit (f.numberOfMicros % 10000 % 1000 / 100),
   printedDigit (f.numberOfMicros % 10000 % 1000 % 100 / 10),
   printedDigit (f.numberOfMicros % 10000 % 1000 % 100 % 10),
   0x00#8]

/-- `CFE_TIME_Print`: the characters put in the buffer. -/
def print (epoch : Instant) (timeToPrint : SysTime) : List (BitVec 8) :=
  printFields (printedFields epoch timeToPrint)

/-! ## What the text says -/

/-- The text of an instant and of a fraction of a second in units of 10 µs. -/
def text (c : Instant) (fraction : Nat) : List (BitVec 8) :=
  decimal 4 c.year ++ (0x2D#8 :: (decimal 3 c.day ++ (0x2D#8 :: (decimal 2 c.hour ++
    (0x3A#8 :: (decimal 2 c.minute ++ (0x3A#8 :: (decimal 2 c.second ++
      (0x2E#8 :: (decimal 5 fraction ++ [0x00#8]))))))))))

/-- The five digits of a fraction in units of 2⁻³² s, cut off. -/
def fractionOf (subseconds : BitVec 32) : Nat := subseconds.toNat * 100000 / 2 ^ 32

theorem countMinutes_eq (minutes seconds : Nat) :
    countMinutes minutes seconds = (minutes + seconds / 60, seconds % 60) := by
  fun_induction countMinutes minutes seconds with
  | case1 minutes seconds h ih =>
    rw [ih, Prod.mk.injEq]
    omega
  | case2 minutes seconds h =>
    rw [Prod.mk.injEq]
    omega

/-- The loop over the years keeps the day, and ends within a year. -/
theorem countYears_spec (year days : Nat) :
    daysBefore (countYears year days).1 + (countYears year days).2 = daysBefore year + days ∧
      (countYears year days).2 < daysInYear (countYears year days).1 := by
  fun_induction countYears year days with
  | case1 year days h =>
    rw [daysInThisYear_eq] at h
    exact ⟨rfl, h⟩
  | case2 year days h ih =>
    rw [daysInThisYear_eq] at *
    rw [daysBefore] at ih
    exact ⟨by omega, ih.2⟩

/-- The fields are those of the instant after the epoch. -/
theorem exists_instant (epoch : Instant) (t : SysTime) :
    ∃ c : Instant, c.seconds = epoch.seconds + t.seconds.toNat ∧ printedFields epoch t
        = ⟨c.year, c.day, c.hour, c.minute, c.second, fractionOf t.subseconds⟩ := by
  have hmicros : sub2MicroSecs t.subseconds.toNat / 10 = fractionOf t.subseconds := by
    rw [sub2MicroSecs_eq t.subseconds.isLt, fractionOf]
    omega
  unfold printedFields
  rw [countMinutes_eq, hmicros]
  -- the minutes and the hours, with what was carried into them
  generalize hseconds : t.seconds.toNat % 60 + epoch.second = seconds
  generalize hminutes : t.seconds.toNat / 60 + epoch.minute + seconds / 60 = minutes
  dsimp only
  generalize hhours : minutes / 60 + epoch.hour = hours
  obtain ⟨hdays, hlt⟩ := countYears_spec epoch.year (hours / 24 + (epoch.day - 1))
  generalize countYears epoch.year (hours / 24 + (epoch.day - 1)) = counted at hdays hlt ⊢
  obtain ⟨year, day⟩ := counted
  refine ⟨⟨year, day + 1, hours % 24, minutes % 60, seconds % 60, by omega, hlt, by omega,
    by omega, by omega⟩, ?_, rfl⟩
  simp only [Instant.seconds, Instant.days, Nat.add_sub_cancel]
  rw [hdays]
  omega

theorem printedDigit_eq (n : Nat) : printedDigit n = digit n := by
  rw [printedDigit, digit, BitVec.ofNat_add]

theorem decimal_two {n : Nat} (h : n < 100) :
    decimal 2 n = [printedDigit (n / 10), printedDigit (n % 10)] := by
  rw [decimal_succ h, decimal_succ (w := 0) (by omega), printedDigit_eq, printedDigit_eq]
  simp only [Nat.pow_one, Nat.pow_zero, Nat.div_one]
  rfl

theorem decimal_three {n : Nat} (h : n < 1000) :
    decimal 3 n = printedDigit (n / 100) :: decimal 2 (n % 100) := by
  rw [printedDigit_eq]
  exact decimal_succ h

theorem decimal_four {n : Nat} (h : n < 10000) :
    decimal 4 n = printedDigit (n / 1000) :: decimal 3 (n % 1000) := by
  rw [printedDigit_eq]
  exact decimal_succ h

theorem decimal_five {n : Nat} (h : n < 100000) :
    decimal 5 n = printedDigit (n / 10000) :: decimal 4 (n % 10000) := by
  rw [printedDigit_eq]
  exact decimal_succ h

theorem day_lt (c : Instant) : c.day < 1000 := by
  have hle := c.day_le
  unfold daysInYear at hle
  split at hle <;> omega

theorem fractionOf_lt (subseconds : BitVec 32) : fractionOf subseconds < 100000 := by
  unfold fractionOf
  omega

/-- The characters are the digits of the fields. -/
theorem printFields_eq {c : Instant} (hyear : c.year < 10000) {fraction : Nat}
    (hfraction : fraction < 100000) :
    printFields ⟨c.year, c.day, c.hour, c.minute, c.second, fraction⟩ = text c fraction := by
  have hhour := c.hour_lt
  have hminute := c.minute_lt
  have hsecond := c.second_lt
  unfold text
  rw [decimal_four hyear, decimal_three (n := c.year % 1000) (by omega),
    decimal_two (n := c.year % 1000 % 100) (by omega), decimal_three (day_lt c),
    decimal_two (n := c.day % 100) (by omega), decimal_two (n := c.hour) (by omega),
    decimal_two (n := c.minute) (by omega), decimal_two (n := c.second) (by omega),
    decimal_five hfraction, decimal_four (n := fraction % 10000) (by omega),
    decimal_three (n := fraction % 10000 % 1000) (by omega),
    decimal_two (n := fraction % 10000 % 1000 % 100) (by omega)]
  rfl

/-- The time is before year 10000. -/
def BeforeLastYear (epoch : Instant) (t : SysTime) : Prop :=
  epoch.seconds + t.seconds.toNat < daysBefore 10000 * 86400

/-- What is printed is the text of the instant that is the time after the epoch. -/
theorem print_eq_text {epoch : Instant} {t : SysTime} (h : BeforeLastYear epoch t) :
    ∃ c : Instant, c.seconds = epoch.seconds + t.seconds.toNat ∧ c.year < 10000 ∧
      print epoch t = text c (fractionOf t.subseconds) := by
  obtain ⟨c, hseconds, hfields⟩ := exists_instant epoch t
  have hyear : c.year < 10000 := by
    apply Instant.year_lt_of_seconds_lt
    rw [hseconds]
    exact h
  refine ⟨c, hseconds, hyear, ?_⟩
  rw [print, hfields, printFields_eq hyear (fractionOf_lt _)]

/-! ## The order of the texts -/

/-- A separator, then texts that have an order. -/
theorem textLe_cons (c : BitVec 8) {a b : List (BitVec 8)} (h : TextLe a b) :
    TextLe (c :: a) (c :: b) := TextLe.append_left [c] h

/-- Instants have the order of their texts, field by field. -/
theorem text_le {a b : Instant} {f g : Nat} (hyear : b.year < 10000) (hg : g < 100000)
    (h : a.Ordered b) (hfraction : a.seconds = b.seconds → f ≤ g) :
    TextLe (text a f) (text b g) := by
  have hhour := b.hour_lt
  have hminute := b.minute_lt
  have hsecond := b.second_lt
  refine TextLe.append hyear (h.imp_right fun ⟨hy, h⟩ => ⟨hy, textLe_cons _ ?_⟩)
  refine TextLe.append (day_lt b) (h.imp_right fun ⟨hd, h⟩ => ⟨hd, textLe_cons _ ?_⟩)
  refine TextLe.append (by omega) (h.imp_right fun ⟨hh, h⟩ => ⟨hh, textLe_cons _ ?_⟩)
  refine TextLe.append (by omega) (h.imp_right fun ⟨hm, h⟩ => ⟨hm, textLe_cons _ ?_⟩)
  refine TextLe.append (by omega) ((Nat.lt_or_eq_of_le h).imp_right fun hs =>
    ⟨hs, textLe_cons _ ?_⟩)
  -- the same second: the fraction decides
  have hle := hfraction (by rw [Instant.seconds, Instant.days, Instant.seconds, Instant.days,
    hy, hd, hh, hm, hs])
  exact TextLe.append hg ((Nat.lt_or_eq_of_le hle).imp_right fun heq => ⟨heq, TextLe.refl _⟩)

theorem print_mono {epoch : Instant} {t t' : SysTime} (hle : t.toNat ≤ t'.toNat)
    (h' : BeforeLastYear epoch t') : TextLe (print epoch t) (print epoch t') := by
  unfold SysTime.toNat at hle
  have h : BeforeLastYear epoch t := by
    unfold BeforeLastYear at *
    omega
  obtain ⟨c, hc, -, hprint⟩ := print_eq_text h
  obtain ⟨c', hc', hyear', hprint'⟩ := print_eq_text h'
  rw [hprint, hprint']
  refine text_le hyear' (fractionOf_lt _) (Instant.ordered_of_le (by omega)) fun heq => ?_
  unfold fractionOf
  omega

/-- For every epoch: the text fits the size of the buffer and is that of the instant of the
calendar, and texts have the order of the times. -/
theorem print_correct (epoch : Instant) : (∀ t, BeforeLastYear epoch t →
      (print epoch t).length ≤ printedStringSize ∧
      ∃ c : Instant, c.seconds = epoch.seconds + t.seconds.toNat ∧ c.year < 10000 ∧
        print epoch t = text c (fractionOf t.subseconds)) ∧
    ∀ t t' : SysTime, t.toNat ≤ t'.toNat → BeforeLastYear epoch t' →
      TextLe (print epoch t) (print epoch t') :=
  ⟨fun _ h => ⟨Nat.le_refl 24, print_eq_text h⟩, fun _ _ hle h' => print_mono hle h'⟩

/-- The epoch of the sample configuration, 1980-001-00:00:00. -/
def sampleEpoch : Instant :=
  ⟨1980, 1, 0, 0, 0, by decide, by decide, by decide, by decide, by decide⟩

/-- The sample epoch is early enough for every time. -/
theorem sampleEpoch_beforeLastYear (t : SysTime) : BeforeLastYear sampleEpoch t := by
  have hbefore := daysBefore_eq 1980
  have hlast := daysBefore_eq 10000
  simp only [BeforeLastYear, Instant.seconds, Instant.days, sampleEpoch]
  omega

/-- The largest time that can be printed is after the smallest. -/
theorem print_sample_last :
    TextLe (print sampleEpoch ⟨0#32, 0#32⟩) (print sampleEpoch ⟨0xFFFFFFFF#32, 0xFFFFFFFF#32⟩) :=
  (print_correct sampleEpoch).2 _ _ (by decide) (sampleEpoch_beforeLastYear _)

end CfsEds.Time
