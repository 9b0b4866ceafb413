import CfsEds.Edslib.Crc16

/-!
# CRC-16: the exact set of good sizes and positions

`Crc16.lean` shows that the loop is right on aligned sizes. This file shows that
it is right on no others: for each other pair of total size and field position
some buffer gets a wrong value, or no value at all. The argument follows the
control flow, which does not depend on the buffer.

`ZeroRun` describes every state of the run over the zero buffer: `before` the
first breakpoint, `after` the field was stepped over, `done`, or `stuck` in the
endless aligned walk that starts when a size within a byte of `2 ^ 32` lets the
position wrap. At the exit only `done` is left, and there bits are missing. Two
groups of sizes close to `2 ^ 32` are treated apart, because there stepping over
the field itself wraps: the loop either never ends (`SpinRun`) or reads the whole
message twice, which a message of odd parity shows (`TwiceRun`).
-/

namespace CfsEds.Edslib

open CfsEds.Lib.Loop CfsEds.Lib.Crc

variable {crc : BitVec 16} {curr k x : Nat}

section Zero

variable {total pos : Nat}

/-- A table step over a zero byte. -/
theorem crcBody_table_zero {brk shift : Nat} (hshift : shift = 0) (hnext : u32 (curr + 8) ≤ brk) :
    crcBody crc16Ccitt zeroBuffer total pos ⟨crc, curr, brk, shift⟩ =
      ⟨shifts crc16CcittPoly 8 crc, u32 (curr + 8), brk, shift⟩ := by
  rw [crcBody_table hshift hnext, zeroBuffer, crc16_update_zero]

/-- The bit branch over a zero byte leaves the register alone. -/
theorem crcBody_bits_of_zero {buf : Buffer} (crc : BitVec 16) (curr brk next last pos' : Nat)
    (hbyte : buf (curr / 8) = 0) (hcurr : curr < 2 ^ 32) (hbrk : brk < 2 ^ 32)
    (helse : ¬ (shiftAt curr = 0 ∧ u32 (curr + 8) ≤ brk))
    (hnext : next = min brk (bitReach curr)) (hlast : last = max curr next)
    (hpos' : pos' = if last = pos then u32 (last + 16) else next) :
    crcBody crc16Ccitt buf total pos ⟨crc, curr, brk, shiftAt curr⟩ =
      ⟨crc, pos', total, shiftAt pos'⟩ := by
  have hshifted : buf (curr / 8) <<< shiftAt curr = 0 := by
    rw [hbyte]
    simp
  rw [crcBody_bits next last pos' hcurr hbrk rfl helse hnext hlast hpos', hshifted, crcBits_zero]

theorem shiftAt_of_dvd (h : 8 ∣ x) : shiftAt x = 0 := by
  unfold shiftAt
  omega

theorem shiftAt_ne_zero (h : ¬ 8 ∣ x) : shiftAt x ≠ 0 := by
  unfold shiftAt
  omega

theorem bitReach_of_dvd (h : 8 ∣ x) (hx : x + 8 < 2 ^ 32) : bitReach x = x + 8 := by
  rw [bitReach, if_pos (by omega), u32_of_lt hx]

theorem bitReach_of_not_dvd (h : ¬ 8 ∣ x) : bitReach x = u32 (x + x % 8) := by
  rw [bitReach, if_neg (by omega)]

/-- An unaligned step over a zero byte that ends before the breakpoint and the field. -/
theorem crcBody_realign {buf : Buffer} {brk : Nat} (hdvd : ¬ 8 ∣ curr) (hbyte : buf (curr / 8) = 0)
    (hbrk : brk < 2 ^ 32) (hnext : curr + curr % 8 < brk) (hpos : curr + curr % 8 ≠ pos) :
    crcBody crc16Ccitt buf total pos ⟨crc, curr, brk, shiftAt curr⟩ =
      ⟨crc, curr + curr % 8, total, shiftAt (curr + curr % 8)⟩ := by
  have hreach : bitReach curr = curr + curr % 8 := by
    rw [bitReach_of_not_dvd hdvd, u32_of_lt (by omega)]
  exact crcBody_bits_of_zero crc curr brk (curr + curr % 8) (curr + curr % 8) _ hbyte (by omega)
    hbrk (fun h => shiftAt_ne_zero hdvd h.1) (by omega) (by omega) (by rw [if_neg hpos])

/-- The states of a run over the zero buffer. -/
inductive ZeroRun (total pos : Nat) : CrcState 16 → Prop where
  /-- whole bytes up to the first breakpoint -/
  | before (k : Nat) (hk : 8 * k ≤ min pos total) (hsmall : min pos total + 8 < 2 ^ 32) :
      ZeroRun total pos ⟨shifts crc16CcittPoly (8 * k) 0xFFFF, 8 * k, min pos total, 0⟩
  /-- the field is behind, `lost` bits went through the bit branch -/
  | after (k lost curr : Nat) (hlt : curr < total) (hpos : pos + 16 ≤ curr)
      (hcount : 8 * k + lost + 16 = curr) (hbound : lost + realignBits (curr % 8) ≤ 24)
      (hlost : pos % 8 ≤ lost) (hnear : 8 ∣ curr ∨ curr + realignBits (curr % 8) ≤ pos + 33) :
      ZeroRun total pos ⟨shifts crc16CcittPoly (8 * k) 0xFFFF, curr, total, shiftAt curr⟩
  /-- the end, with `lost` clocks missing -/
  | done (k lost curr : Nat) (hge : total ≤ curr) (hcount : 8 * k + lost = messageLength total pos)
      (hle : lost ≤ 31) (hlost : min pos total % 8 ≤ lost)
      (hfit : pos ≤ total → pos + 16 < 2 ^ 32) :
      ZeroRun total pos ⟨shifts crc16CcittPoly (8 * k) 0xFFFF, curr, total, shiftAt curr⟩
  /-- the position wraps before it can reach the end -/
  | stuck (crc : BitVec 16) (curr brk : Nat) (hbig : 2 ^ 32 < total + 8) (hbrk : 2 ^ 32 ≤ brk + 8)
      (hbrk' : brk < 2 ^ 32) (hlt : curr < total)
      (hcurr : 8 ∣ curr ∨ 2 ^ 31 ≤ pos ∧ curr + realignBits (curr % 8) < 32) :
      ZeroRun total pos ⟨crc, curr, brk, shiftAt curr⟩

/-- Every run starts in `before`, unless the first breakpoint is out of reach. -/
theorem zeroRun_start (htotal : total < 2 ^ 32) (hne : ¬ Crc16Aligned total pos) :
    ZeroRun total pos (crcStart crc16Ccitt total pos) := by
  have hmin : (if pos < total then pos else total) = min pos total := by
    split <;> omega
  rw [crcStart, hmin]
  by_cases hb : min pos total + 8 < 2 ^ 32
  · exact ZeroRun.before 0 (by omega) hb
  have hbig : 2 ^ 32 < total + 8 := by
    unfold Crc16Aligned at hne
    omega
  exact ZeroRun.stuck _ 0 _ hbig (by omega) (by omega) (by omega) (.inl (by omega))

private theorem shifts_octet (k : Nat) (c : BitVec 16) :
    shifts crc16CcittPoly 8 (shifts crc16CcittPoly (8 * k) c) =
      shifts crc16CcittPoly (8 * (k + 1)) c := by
  rw [← shifts_add, show 8 + 8 * k = 8 * (k + 1) by omega]

/-- A step before the breakpoint: another byte, or the jump over the field. -/
theorem zeroRun_before (htotal : total < 2 ^ 32)
    (hwrap : pos ≤ total → total + 8 ≤ 2 ^ 32 → pos + 16 < 2 ^ 32) (hk : 8 * k ≤ min pos total)
    (hsmall : min pos total + 8 < 2 ^ 32) :
    ZeroRun total pos (crcBody crc16Ccitt zeroBuffer total pos
      ⟨shifts crc16CcittPoly (8 * k) 0xFFFF, 8 * k, min pos total, 0⟩) := by
  have hu : u32 (8 * k + 8) = 8 * (k + 1) := by
    rw [u32_of_lt (by omega)]
    omega
  by_cases hnext : 8 * (k + 1) ≤ min pos total
  · rw [crcBody_table_zero rfl (by omega), hu, shifts_octet]
    exact ZeroRun.before (k + 1) hnext hsmall
  have hshift : shiftAt (8 * k) = 0 := shiftAt_of_dvd ⟨k, rfl⟩
  have hreach : bitReach (8 * k) = 8 * k + 8 := bitReach_of_dvd ⟨k, rfl⟩ (by omega)
  have hbody : ∀ pos', pos' = (if min pos total = pos then u32 (pos + 16) else total) →
      crcBody crc16Ccitt zeroBuffer total pos
        ⟨shifts crc16CcittPoly (8 * k) 0xFFFF, 8 * k, min pos total, 0⟩ =
      ⟨shifts crc16CcittPoly (8 * k) 0xFFFF, pos', total, shiftAt pos'⟩ := by
    intro pos' hpos'
    have hjump : pos' = if min pos total = pos then u32 (min pos total + 16)
        else min pos total := by
      rw [hpos']
      split
      next h => rw [h]
      next h => omega
    have hbits := @crcBody_bits_of_zero total pos zeroBuffer (shifts crc16CcittPoly (8 * k) 0xFFFF)
      (8 * k) (min pos total) (min pos total) (min pos total) pos' rfl (by omega) (by omega)
      (by omega) (by omega) (by omega) hjump
    rwa [hshift] at hbits
  rcases Nat.lt_or_ge total pos with htp | hpt
  · rw [hbody total (by rw [if_neg (by omega)])]
    exact ZeroRun.done k (total - 8 * k) total (Nat.le_refl _)
      (by rw [messageLength, if_neg (by omega)]; omega) (by omega) (by omega) (by omega)
  by_cases hp : pos + 16 < 2 ^ 32
  · rw [hbody (pos + 16) (by rw [if_pos (by omega), u32_of_lt hp])]
    rcases Nat.lt_or_ge (pos + 16) total with hlt | hge
    · have := realignBits_le ((pos + 16) % 8)
      exact ZeroRun.after k (pos - 8 * k) (pos + 16) hlt (Nat.le_refl _) (by omega) (by omega)
        (by omega) (.inr (by omega))
    · refine ZeroRun.done k (pos - 8 * k) (pos + 16) hge ?_ (by omega) (by omega) (fun _ => hp)
      unfold messageLength
      split <;> omega
  · -- only a size within a byte of the limit lets the jump wrap here
    have hbig : 2 ^ 32 < total + 8 := by omega
    have hjump : u32 (pos + 16) = pos + 16 - 2 ^ 32 := by
      unfold u32
      omega
    rw [hbody (pos + 16 - 2 ^ 32) (by rw [if_pos (by omega), hjump])]
    have := realignBits_le ((pos + 16 - 2 ^ 32) % 8)
    exact ZeroRun.stuck _ _ _ hbig (by omega) htotal (by omega) (.inr ⟨by omega, by omega⟩)

/-- A step behind the field. -/
theorem zeroRun_after {lost : Nat} (htotal : total < 2 ^ 32) (hlt : curr < total)
    (hpos : pos + 16 ≤ curr) (hcount : 8 * k + lost + 16 = curr)
    (hbound : lost + realignBits (curr % 8) ≤ 24) (hlost : pos % 8 ≤ lost)
    (hnear : 8 ∣ curr ∨ curr + realignBits (curr % 8) ≤ pos + 33) :
    ZeroRun total pos (crcBody crc16Ccitt zeroBuffer total pos
      ⟨shifts crc16CcittPoly (8 * k) 0xFFFF, curr, total, shiftAt curr⟩) := by
  have hlen : messageLength total pos = total - 16 := by
    rw [messageLength, if_pos (by omega)]
    omega
  by_cases hdvd : 8 ∣ curr
  · have hshift := shiftAt_of_dvd hdvd
    by_cases hnext : u32 (curr + 8) ≤ total
    · rw [crcBody_table_zero hshift hnext, shifts_octet]
      by_cases hwrap : curr + 8 < 2 ^ 32
      · have hshift' : shiftAt curr = shiftAt (curr + 8) := by
          unfold shiftAt
          omega
        rw [u32_of_lt hwrap] at hnext ⊢
        rw [hshift']
        rcases Nat.lt_or_ge (curr + 8) total with h | h
        · exact ZeroRun.after (k + 1) lost (curr + 8) h (by omega) (by omega)
            (by rwa [show (curr + 8) % 8 = curr % 8 by omega]) hlost (.inl (by omega))
        · exact ZeroRun.done (k + 1) lost (curr + 8) h (by omega) (by omega) (by omega) (by omega)
      · have hzero : u32 (curr + 8) = 0 := by
          unfold u32
          omega
        rw [hzero, show shiftAt curr = shiftAt 0 by rw [hshift]; rfl]
        exact ZeroRun.stuck _ 0 total (by omega) (by omega) htotal (by omega) (.inl (by omega))
    · have hsmall : curr + 8 < 2 ^ 32 := by
        unfold u32 at hnext
        omega
      have hreach := bitReach_of_dvd hdvd hsmall
      rw [u32_of_lt hsmall] at hnext
      rw [crcBody_bits_of_zero _ curr total total total total rfl (by omega) htotal
        (by rw [u32_of_lt hsmall]; omega) (by omega) (by omega) (by rw [if_neg (by omega)])]
      exact ZeroRun.done k (lost + (total - curr)) total (Nat.le_refl _) (by omega) (by omega)
        (by omega) (by omega)
  · have hshift := shiftAt_ne_zero hdvd
    have hdouble := @realignBits_double curr (by omega)
    by_cases hwrap : curr + curr % 8 < 2 ^ 32
    · have hreach : bitReach curr = curr + curr % 8 := by
        rw [bitReach_of_not_dvd hdvd, u32_of_lt hwrap]
      rcases Nat.lt_or_ge (curr + curr % 8) total with h | h
      · rw [crcBody_realign hdvd rfl htotal h (by omega)]
        exact ZeroRun.after k (lost + curr % 8) (curr + curr % 8) h (by omega) (by omega)
          (by omega) (by omega) (.inr (by omega))
      rw [crcBody_bits_of_zero _ curr total total total total rfl (by omega) htotal
        (fun h => hshift h.1) (by omega) (by omega) (by rw [if_neg (by omega)])]
      exact ZeroRun.done k (lost + (total - curr)) total (Nat.le_refl _) (by omega) (by omega)
        (by omega) (by omega)
    · -- a size within a byte of the limit: the unaligned step wraps to the start
      have hreach : bitReach curr = curr + curr % 8 - 2 ^ 32 := by
        rw [bitReach_of_not_dvd hdvd]
        unfold u32
        omega
      have hsmall := realignBits_le ((curr + curr % 8 - 2 ^ 32) % 8)
      rw [crcBody_bits_of_zero _ curr total (curr + curr % 8 - 2 ^ 32) curr (curr + curr % 8 - 2 ^ 32)
        rfl (by omega) htotal (fun h => hshift h.1) (by omega) (by omega) (by rw [if_neg (by omega)])]
      exact ZeroRun.stuck _ _ total (by omega) (by omega) htotal (by omega)
        (.inr ⟨by omega, by omega⟩)

/-- A step of the endless walk stays in it. -/
theorem zeroRun_stuck {brk : Nat} (htotal : total < 2 ^ 32) (hbig : 2 ^ 32 < total + 8)
    (hbrk : 2 ^ 32 ≤ brk + 8) (hbrk' : brk < 2 ^ 32)
    (hcurr : 8 ∣ curr ∨ 2 ^ 31 ≤ pos ∧ curr + realignBits (curr % 8) < 32) :
    ZeroRun total pos (crcBody crc16Ccitt zeroBuffer total pos ⟨crc, curr, brk, shiftAt curr⟩) := by
  by_cases hdvd : 8 ∣ curr
  · have hnext : u32 (curr + 8) ≤ brk ∧ 8 ∣ u32 (curr + 8) := by
      unfold u32
      omega
    rw [crcBody_table_zero (shiftAt_of_dvd hdvd) hnext.1,
      show shiftAt curr = shiftAt (u32 (curr + 8)) by
        rw [shiftAt_of_dvd hdvd, shiftAt_of_dvd hnext.2]]
    refine ZeroRun.stuck _ _ brk hbig hbrk hbrk' ?_ (.inl hnext.2)
    omega
  · obtain ⟨hp, hsum⟩ : 2 ^ 31 ≤ pos ∧ curr + realignBits (curr % 8) < 32 := by
      rcases hcurr with h | h
      · exact absurd h hdvd
      · exact h
    have hdouble := @realignBits_double curr (by omega)
    rw [crcBody_realign hdvd rfl hbrk' (by omega) (by omega)]
    exact ZeroRun.stuck _ _ total hbig (by omega) htotal (by omega) (.inr ⟨hp, by omega⟩)

/-- One iteration over the zero buffer. -/
theorem zeroRun_step (htotal : total < 2 ^ 32)
    (hwrap : pos ≤ total → total + 8 ≤ 2 ^ 32 → pos + 16 < 2 ^ 32) (s : CrcState 16)
    (h : ZeroRun total pos s) (hcond : crcCond total s = true) :
    ZeroRun total pos (crcBody crc16Ccitt zeroBuffer total pos s) := by
  have hlt := crcCond_eq_true.1 hcond
  cases h with
  | before k hk hsmall => exact zeroRun_before htotal hwrap hk hsmall
  | after k lost curr hlt hpos hcount hbound hlost hnear =>
    exact zeroRun_after htotal hlt hpos hcount hbound hlost hnear
  | done k lost curr hge => exact absurd hlt (Nat.not_lt.2 hge)
  | stuck crc curr brk hbig hbrk hbrk' hlt hcurr =>
    exact zeroRun_stuck htotal hbig hbrk hbrk' hcurr

/-- Unless the jump over the field wraps, a size that is not aligned gives a
wrong value, or none, on the zero buffer. -/
theorem crc16_zero_wrong (htotal : total < 2 ^ 32) (hne : ¬ Crc16Aligned total pos)
    (hwrap : pos ≤ total → total + 8 ≤ 2 ^ 32 → pos + 16 < 2 ^ 32) :
    ¬ ErrorControlReturns .crc16Ccitt zeroBuffer total pos
      ((crc16CcittFalse (messageBits zeroBuffer total pos 16)).setWidth 64) := by
  rw [crc16Returns_iff]
  intro ⟨t, ht, hcrc⟩
  obtain ⟨hrun, hexit⟩ := ht.invariant (ZeroRun total pos) (zeroRun_step htotal hwrap)
    (zeroRun_start htotal hne)
  have hge := crcCond_eq_false.1 hexit
  rw [crc16CcittFalse_zero] at hcrc
  cases hrun with
  | before k hk hsmall =>
    unfold Crc16Aligned at hne
    simp only at hge
    omega
  | after k lost curr hlt => exact absurd hlt (Nat.not_lt.2 hge)
  | done k lost curr _ hcount hle hlost hfit =>
    refine shifts_ne_of_lost ?_ hle hcount hcrc
    unfold Crc16Aligned at hne
    unfold messageLength at hcount
    split at hcount <;> omega
  | stuck crc curr brk hbig hbrk hbrk' hlt => exact absurd hlt (Nat.not_lt.2 hge)

/-! ## The field at the very end, close to the limit -/

/-- The states of a run that is sent back to the start each time it reaches the end. -/
inductive SpinRun (total : Nat) : CrcState 16 → Prop where
  | at (crc : BitVec 16) (curr : Nat) (hlt : curr < total)
      (hcurr : 8 ∣ curr ∨ curr + realignBits (curr % 8) < 32) :
      SpinRun total ⟨crc, curr, total, shiftAt curr⟩

theorem spinRun_step (hsmall : total + 8 ≤ 2 ^ 32) (hwrap : 2 ^ 32 ≤ total + 16)
    (hodd : ¬ 8 ∣ total) (s : CrcState 16) (h : SpinRun total s) :
    SpinRun total (crcBody crc16Ccitt zeroBuffer total total s) := by
  obtain ⟨crc, curr, hlt, hcurr⟩ := h
  by_cases hdvd : 8 ∣ curr
  · have hu : u32 (curr + 8) = curr + 8 := u32_of_lt (by omega)
    by_cases hnext : curr + 8 ≤ total
    · rw [crcBody_table_zero (shiftAt_of_dvd hdvd) (by omega), hu,
        show shiftAt curr = shiftAt (curr + 8) by unfold shiftAt; omega]
      exact SpinRun.at _ (curr + 8) (by omega) (.inl (by omega))
    have hreach := bitReach_of_dvd hdvd (by omega)
    have hjump : u32 (total + 16) = total + 16 - 2 ^ 32 := by
      unfold u32
      omega
    rw [crcBody_bits_of_zero crc curr total total total (total + 16 - 2 ^ 32) rfl (by omega)
      (by omega) (by omega) (by omega) (by omega) (by rw [if_pos rfl, hjump])]
    have := realignBits_le ((total + 16 - 2 ^ 32) % 8)
    exact SpinRun.at _ _ (by omega) (.inr (by omega))
  · have hdouble := @realignBits_double curr (by omega)
    rw [crcBody_realign hdvd rfl (by omega) (by omega) (by omega)]
    exact SpinRun.at _ _ (by omega) (.inr (by omega))

/-- With the field right behind an unaligned message whose end is within 16 bits
of the limit, the function does not return. -/
theorem crc16_spins (hsmall : total + 8 ≤ 2 ^ 32) (hwrap : 2 ^ 32 ≤ total + 16)
    (hodd : ¬ 8 ∣ total) (v : BitVec 16) :
    ¬ ErrorControlReturns .crc16Ccitt zeroBuffer total total (v.setWidth 64) := by
  rw [crc16Returns_iff]
  intro ⟨t, ht, _⟩
  have hstart : SpinRun total (crcStart crc16Ccitt total total) := by
    rw [crcStart, if_neg (by omega)]
    exact SpinRun.at _ 0 (by omega) (.inl (by omega))
  have hcond : ∀ s, SpinRun total s → crcCond total s = true := by
    intro s hs
    obtain ⟨crc, curr, hlt, _⟩ := hs
    exact crcCond_eq_true.2 hlt
  exact not_yields_of_invariant (SpinRun total) hcond (spinRun_step hsmall hwrap hodd) hstart ht

/-! ## The field inside, its end at the limit: the message is read twice -/

/-- A buffer whose only set bit is the first one of byte 100. -/
def oneBuffer : Buffer := fun i => if i = 100 then 0x80 else 0

theorem oneBuffer_of_ne {i : Nat} (h : i ≠ 100) : oneBuffer i = 0 := if_neg h

private theorem parity_poly : parity crc16CcittPoly = true := by decide

theorem parity_update_oneBuffer (crc : BitVec 16) (i : Nat) :
    parity (crc16Ccitt.update crc (oneBuffer i)) = (parity crc ^^ decide (i = 100)) := by
  by_cases h : i = 100
  · rw [crc16Ccitt_update, h,
      show octetBits (oneBuffer 100) = true :: List.replicate 7 false by decide, feed_cons,
      feed_replicate_false, parity_shifts parity_poly, parity_step parity_poly]
    simp
  · rw [oneBuffer_of_ne h, crc16_update_zero, parity_shifts parity_poly]
    simp [h]

/-- The message has exactly one set bit. -/
theorem parity_crc16CcittFalse_oneBuffer (hlt : pos < total) (hsmall : total + 8 ≤ 2 ^ 32)
    (hwrap : 2 ^ 32 ≤ pos + 16) :
    parity (crc16CcittFalse (messageBits oneBuffer total pos 16)) = true := by
  have hzero : ∀ i, i / 8 ≠ 100 → bitAt oneBuffer i = false := by
    intro i hi
    simp [bitAt, oneBuffer_of_ne hi]
  have hhead : bitSpan oneBuffer 0 800 = List.replicate 800 false :=
    bitSpan_eq_replicate fun i _ hi => hzero i (by omega)
  have htail : bitSpan oneBuffer 808 (pos - 808) = List.replicate (pos - 808) false :=
    bitSpan_eq_replicate fun i hi _ => hzero i (by omega)
  have hbyte : bitSpan oneBuffer 800 8 = true :: List.replicate 7 false := by
    decide
  have hspan : bitSpan oneBuffer 0 pos = List.replicate 800 false ++
      (true :: List.replicate 7 false ++ List.replicate (pos - 808) false) := by
    have hsplit := bitSpan_append oneBuffer 0 800 (8 + (pos - 808))
    rw [Nat.zero_add, show 800 + (8 + (pos - 808)) = pos by omega] at hsplit
    rw [← hhead, ← htail, ← hbyte, bitSpan_append oneBuffer 800 8, hsplit]
  rw [messageBits_of_lt hlt, show total - (pos + 16) = 0 by omega, bitSpan_zero, List.append_nil,
    hspan, crc16CcittFalse, feed_append, List.cons_append, feed_cons, feed_append]
  simp only [feed_replicate_false]
  rw [parity_shifts parity_poly, parity_shifts parity_poly, parity_step parity_poly,
    parity_shifts parity_poly]
  decide

/-- The states of a run that reads the message a second time; the parity of the
register tells how often byte 100 has been read. -/
inductive TwiceRun (total pos : Nat) : CrcState 16 → Prop where
  | first (crc : BitVec 16) (k : Nat) (hk : 8 * k ≤ pos) (hpar : parity crc = decide (100 < k)) :
      TwiceRun total pos ⟨crc, 8 * k, pos, 0⟩
  | second (crc : BitVec 16) (curr : Nat) (hle : curr ≤ total)
      (hcurr : 8 ∣ curr ∨ curr + realignBits (curr % 8) < 32 ∨ curr = total)
      (hpar : parity crc = !decide (808 ≤ curr)) :
      TwiceRun total pos ⟨crc, curr, total, shiftAt curr⟩

/-- First reading: one more byte, or the jump over the field back to the start. -/
theorem twiceRun_first (hlt : pos < total) (hsmall : total + 8 ≤ 2 ^ 32) (hwrap : 2 ^ 32 ≤ pos + 16)
    (hk : 8 * k ≤ pos) (hpar : parity crc = decide (100 < k)) :
    TwiceRun total pos (crcBody crc16Ccitt oneBuffer total pos ⟨crc, 8 * k, pos, 0⟩) := by
  have hu : u32 (8 * k + 8) = 8 * (k + 1) := by
    rw [u32_of_lt (by omega)]
    omega
  by_cases hnext : 8 * (k + 1) ≤ pos
  · rw [crcBody_table rfl (by show u32 (8 * k + 8) ≤ pos; omega)]
    show TwiceRun total pos ⟨_, u32 (8 * k + 8), pos, 0⟩
    rw [hu]
    refine TwiceRun.first _ (k + 1) hnext ?_
    show parity (crc16Ccitt.update crc (oneBuffer (8 * k / 8))) = _
    rw [parity_update_oneBuffer, hpar, show 8 * k / 8 = k by omega]
    rcases Nat.lt_trichotomy 100 k with h | h | h
    · simp [h, show ¬ k = 100 by omega, show 100 < k + 1 by omega]
    · simp [← h]
    · simp [show ¬ 100 < k by omega, show ¬ k = 100 by omega, show ¬ 100 < k + 1 by omega]
  have hshift : shiftAt (8 * k) = 0 := shiftAt_of_dvd ⟨k, rfl⟩
  have hreach : bitReach (8 * k) = 8 * k + 8 := bitReach_of_dvd ⟨k, rfl⟩ (by omega)
  have hjump : u32 (pos + 16) = pos + 16 - 2 ^ 32 := by
    unfold u32
    omega
  have hbody := @crcBody_bits_of_zero total pos oneBuffer crc (8 * k) pos pos pos
    (pos + 16 - 2 ^ 32) (oneBuffer_of_ne (by omega)) (by omega) (by omega) (by omega) (by omega)
    (by omega) (by rw [if_pos rfl, hjump])
  rw [hshift] at hbody
  rw [hbody]
  have := realignBits_le ((pos + 16 - 2 ^ 32) % 8)
  refine TwiceRun.second _ _ (by omega) (.inr (.inl (by omega))) ?_
  rw [hpar, decide_eq_true (show 100 < k by omega),
    decide_eq_false (show ¬ 808 ≤ pos + 16 - 2 ^ 32 by omega)]
  rfl

/-- Second reading: on to the end of the message, past the field. -/
theorem twiceRun_second (hlt : pos < total) (hsmall : total + 8 ≤ 2 ^ 32)
    (hwrap : 2 ^ 32 ≤ pos + 16) (hcond : curr < total)
    (hcurr : 8 ∣ curr ∨ curr + realignBits (curr % 8) < 32 ∨ curr = total)
    (hpar : parity crc = !decide (808 ≤ curr)) :
    TwiceRun total pos
      (crcBody crc16Ccitt oneBuffer total pos ⟨crc, curr, total, shiftAt curr⟩) := by
  by_cases hdvd : 8 ∣ curr
  · have hu : u32 (curr + 8) = curr + 8 := u32_of_lt (by omega)
    by_cases hnext : curr + 8 ≤ total
    · rw [crcBody_table (shiftAt_of_dvd hdvd) (by show u32 (curr + 8) ≤ total; omega)]
      show TwiceRun total pos ⟨_, u32 (curr + 8), total, shiftAt curr⟩
      rw [hu, show shiftAt curr = shiftAt (curr + 8) by unfold shiftAt; omega]
      refine TwiceRun.second _ _ hnext (.inl (by omega)) ?_
      show parity (crc16Ccitt.update crc (oneBuffer (curr / 8))) = _
      rw [parity_update_oneBuffer, hpar]
      rcases Nat.lt_trichotomy 800 curr with h | h | h
      · simp [show 808 ≤ curr by omega, show ¬ curr / 8 = 100 by omega, show 808 ≤ curr + 8 by omega]
      · simp [← h]
      · simp [show ¬ 808 ≤ curr by omega, show ¬ curr / 8 = 100 by omega,
          show ¬ 808 ≤ curr + 8 by omega]
    · have hreach := bitReach_of_dvd hdvd (by omega)
      rw [crcBody_bits_of_zero crc curr total total total total (oneBuffer_of_ne (by omega))
        (by omega) (by omega) (by omega) (by omega) (by omega) (by rw [if_neg (by omega)])]
      refine TwiceRun.second _ _ (Nat.le_refl _) (.inr (.inr rfl)) ?_
      simp [hpar, show 808 ≤ curr by omega, show 808 ≤ total by omega]
  · have hdouble := @realignBits_double curr (by omega)
    rw [crcBody_realign hdvd (oneBuffer_of_ne (by omega)) (by omega) (by omega) (by omega)]
    refine TwiceRun.second _ _ (by omega) (.inr (.inl (by omega))) ?_
    simp [hpar, show ¬ 808 ≤ curr by omega, show ¬ 808 ≤ curr + curr % 8 by omega]

/-- A field inside the message whose end is at the limit: the value is wrong. -/
theorem crc16_twice_wrong (hlt : pos < total) (hsmall : total + 8 ≤ 2 ^ 32)
    (hwrap : 2 ^ 32 ≤ pos + 16) :
    ¬ ErrorControlReturns .crc16Ccitt oneBuffer total pos
      ((crc16CcittFalse (messageBits oneBuffer total pos 16)).setWidth 64) := by
  rw [crc16Returns_iff]
  intro ⟨t, ht, hcrc⟩
  have hstart : TwiceRun total pos (crcStart crc16Ccitt total pos) := by
    rw [crcStart, if_pos hlt]
    exact TwiceRun.first _ 0 (by omega) (by decide)
  have hstep : ∀ s, TwiceRun total pos s → crcCond total s = true →
      TwiceRun total pos (crcBody crc16Ccitt oneBuffer total pos s) := by
    intro s hs hcond
    cases hs with
    | first crc k hk hpar => exact twiceRun_first hlt hsmall hwrap hk hpar
    | second crc curr hle hcurr hpar =>
      exact twiceRun_second hlt hsmall hwrap (crcCond_eq_true.1 hcond) hcurr hpar
  obtain ⟨hrun, hexit⟩ := ht.invariant (TwiceRun total pos) hstep hstart
  have hge := crcCond_eq_false.1 hexit
  have hspec := parity_crc16CcittFalse_oneBuffer hlt hsmall hwrap
  rw [← hcrc] at hspec
  cases hrun with
  | first crc k hk hpar =>
    simp only at hge
    omega
  | second crc curr hle hcurr hpar =>
    simp only at hge hspec
    simp [hpar] at hspec
    omega

/-! ## The exact condition -/

/-- `EdsLib_ErrorControlCompute` with CRC16_CCITT computes CRC-16/CCITT-FALSE of
the message without its 16-bit field, for every buffer, exactly when the pieces
before and behind the field are whole bytes. -/
theorem crc16_conforms_iff_aligned (totalBitSize errCtlBitPos : BitVec 32) :
    (∀ buf : Buffer, ErrorControlReturns .crc16Ccitt buf totalBitSize.toNat errCtlBitPos.toNat
      ((crc16CcittFalse (messageBits buf totalBitSize.toNat errCtlBitPos.toNat 16)).setWidth 64)) ↔
      Crc16Aligned totalBitSize.toNat errCtlBitPos.toNat := by
  have htotal := totalBitSize.isLt
  generalize totalBitSize.toNat = total at *
  generalize errCtlBitPos.toNat = pos
  refine ⟨fun hall => ?_, fun h buf => crc16_returns_of_aligned htotal h⟩
  by_contra hne
  by_cases hwrap : pos ≤ total → total + 8 ≤ 2 ^ 32 → pos + 16 < 2 ^ 32
  · exact crc16_zero_wrong htotal hne hwrap (hall zeroBuffer)
  obtain ⟨hle, hsmall, hbig⟩ : pos ≤ total ∧ total + 8 ≤ 2 ^ 32 ∧ 2 ^ 32 ≤ pos + 16 := by
    omega
  rcases Nat.lt_or_ge pos total with hlt | hge
  · exact crc16_twice_wrong hlt hsmall hbig (hall oneBuffer)
  obtain rfl : pos = total := by omega
  refine crc16_spins hsmall hbig ?_ _ (hall zeroBuffer)
  unfold Crc16Aligned at hne
  omega

/-- A field at bit 12: the four bits before it and behind it are not shifted in. -/
theorem crc16_conforms_fails_at_bit_12 :
    ∃ v, ErrorControlReturns .crc16Ccitt (fun i => [0xAB#8, 0xC0, 0x00, 0x01].getD i 0) 32 12 v ∧
      v ≠ (crc16CcittFalse
        (messageBits (fun i => [0xAB#8, 0xC0, 0x00, 0x01].getD i 0) 32 12 16)).setWidth 64 :=
  ⟨62800, ⟨20, by decide +kernel⟩, by decide +kernel⟩

end Zero

end CfsEds.Edslib
