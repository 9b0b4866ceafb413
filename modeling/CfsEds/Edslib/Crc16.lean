import CfsEds.Edslib.CrcLoop
import Mathlib.Tactic.IntervalCases

/-!
# CRC-16/CCITT-FALSE conformance

The header of the source file states the algorithm: polynomial `0x1021`, initial
value `0xFFFF`, no reflection and no final exclusive or. `crc16CcittFalse` is
that register over a bit string, and the question is for which sizes and field
positions `EdsLib_ErrorControlAlgorithm_CRC16_CCITT` computes it of the message
without its field.
-/

namespace CfsEds.Edslib

open CfsEds.Lib.Loop CfsEds.Lib.Crc

/-- CRC-16/CCITT-FALSE of a bit string. -/
def crc16CcittFalse (bits : List Bool) : BitVec 16 := feed crc16CcittPoly 0xFFFF bits

/-! ## The table step is eight clocks -/

theorem length_octetBits (b : BitVec 8) : (octetBits b).length = 8 := by simp [octetBits]

/-- Eight clocks of a byte: the table lists them, a byte that is fed in gives the same as one in the
high half of the register, and one in the low half only moves up. -/
private theorem shifts_byte : ∀ b : BitVec 8,
    crc16CcittTable b = shifts crc16CcittPoly 8 (b.setWidth 16 <<< 8) ∧
      feed crc16CcittPoly 0#16 (octetBits b) = shifts crc16CcittPoly 8 (b.setWidth 16 <<< 8) ∧
      shifts crc16CcittPoly 8 (b.setWidth 16) = b.setWidth 16 <<< 8 := by
  decide +kernel

private theorem split_octets (c : BitVec 16) :
    c = ((c >>> 8).setWidth 8).setWidth 16 <<< 8 ^^^ (c.setWidth 8).setWidth 16 := by
  ext i hi
  simp
  grind

private theorem shiftLeft_low_octet (c : BitVec 16) :
    (c.setWidth 8).setWidth 16 <<< 8 = c <<< 8 := by
  ext i hi
  simp
  grind

/-- A table step feeds one byte to the serial register. -/
theorem crc16Ccitt_update (c : BitVec 16) (b : BitVec 8) :
    crc16Ccitt.update c b = feed crc16CcittPoly c (octetBits b) := by
  have hold : shifts crc16CcittPoly 8 c =
      shifts crc16CcittPoly 8 (((c >>> 8).setWidth 8).setWidth 16 <<< 8) ^^^ (c <<< 8) := by
    have := congrArg (shifts crc16CcittPoly 8) (split_octets c)
    rwa [shifts_xor, (shifts_byte _).2.2, shiftLeft_low_octet c] at this
  have hindex : (b ^^^ (c >>> 8).setWidth 8).setWidth 16 <<< 8 =
      (b.setWidth 16 <<< 8) ^^^ (((c >>> 8).setWidth 8).setWidth 16 <<< 8) := by
    rw [BitVec.setWidth_xor, BitVec.shiftLeft_xor_distrib]
  calc crc16Ccitt.update c b
      = shifts crc16CcittPoly 8 ((b ^^^ (c >>> 8).setWidth 8).setWidth 16 <<< 8) ^^^ (c <<< 8) := by
        rw [← (shifts_byte _).1]
        rfl
    _ = shifts crc16CcittPoly 8 (b.setWidth 16 <<< 8) ^^^ shifts crc16CcittPoly 8 c := by
        rw [hindex, shifts_xor, BitVec.xor_assoc, ← hold]
    _ = feed crc16CcittPoly c (octetBits b) := by
        rw [feed_eq_xor_shifts crc16CcittPoly c, length_octetBits, (shifts_byte _).2.1]

/-- A run of table steps feeds the bits of its bytes. -/
theorem updateBytes_crc16 (buf : Buffer) :
    ∀ (n a : Nat) (c : BitVec 16), updateBytes crc16Ccitt buf a n c =
      feed crc16CcittPoly c (bitSpan buf (8 * a) (8 * n)) := by
  intro n
  induction n with
  | zero => intro a c; rfl
  | succ n ih =>
    intro a c
    have hspan : bitSpan buf (8 * a) (8 * (n + 1)) =
        octetBits (buf a) ++ bitSpan buf (8 * (a + 1)) (8 * n) := by
      rw [← bitSpan_octet, show 8 * (n + 1) = 8 + 8 * n by omega, ← bitSpan_append,
        show 8 * (a + 1) = 8 * a + 8 by omega]
    rw [updateBytes_succ, ih, hspan, feed_append, crc16Ccitt_update]

/-! ## Where the loop is right -/

/-- Sizes and positions for which the loop cuts the field out correctly: the
field starts on a byte boundary (and its end is below `2 ^ 32`), and what follows
it is either nothing or whole bytes; without a field, the message is whole bytes. -/
def Crc16Aligned (total pos : Nat) : Prop :=
  pos < total ∧ 8 ∣ pos ∧ pos + 16 < 2 ^ 32 ∧ (total ≤ pos + 16 ∨ 8 ∣ total) ∨
    total ≤ pos ∧ 8 ∣ total

theorem crc16Returns_iff {buf : Buffer} {total pos : Nat} {v : BitVec 16} :
    ErrorControlReturns .crc16Ccitt buf total pos (v.setWidth 64) ↔
      ∃ t, Yields (crcCond total) (crcBody crc16Ccitt buf total pos)
        (crcStart crc16Ccitt total pos) t ∧ t.crc = v := by
  show (∃ fuel, crcRun crc16Ccitt fuel buf total pos = some (v.setWidth 64)) ↔ _
  rw [crcRun_eq_some_iff]
  refine exists_congr fun t => and_congr_right fun _ => ⟨fun h => ?_, fun h => by rw [h]⟩
  have := congrArg (BitVec.setWidth 16) h
  simpa using this

/-- On aligned sizes the function returns the serial CRC of the message. -/
theorem crc16_returns_of_aligned {buf : Buffer} {total pos : Nat} (htotal : total < 2 ^ 32)
    (h : Crc16Aligned total pos) :
    ErrorControlReturns .crc16Ccitt buf total pos
      ((crc16CcittFalse (messageBits buf total pos 16)).setWidth 64) := by
  rw [crc16Returns_iff]
  rcases h with ⟨hlt, hpos, hsmall, hend⟩ | ⟨hle, hdvd⟩
  · obtain ⟨a, ha⟩ := hpos
    obtain ⟨n, hn⟩ : ∃ n, total ≤ 8 * (a + 2) ∧ n = 0 ∨ total = 8 * (a + 2 + n) := by
      rcases Nat.le_total total (8 * (a + 2)) with hle | hle
      · exact ⟨0, .inl ⟨hle, rfl⟩⟩
      · exact ⟨total / 8 - (a + 2), by omega⟩
    obtain ⟨t, ht, hcrc⟩ := yields_aligned_field crc16Ccitt buf hlt htotal
      ha (f := 2) rfl (by omega) (by omega) hn
    refine ⟨t, ht, ?_⟩
    have hrest : total - (pos + 16) = 8 * n := by omega
    rw [hcrc, updateBytes_crc16, updateBytes_crc16, messageBits_of_lt hlt, hrest,
      crc16CcittFalse, feed_append, show 8 * (a + 2) = pos + 16 by omega, ha]
    rfl
  · obtain ⟨n, hn⟩ := hdvd
    obtain ⟨t, ht, hcrc⟩ := yields_aligned crc16Ccitt buf hle htotal hn
    refine ⟨t, ht, ?_⟩
    rw [hcrc, updateBytes_crc16, messageBits_of_le hle, hn]
    rfl

/-! ## Where it is not: the all-zero buffer

On zero bytes a table step is eight clocks of the register and the bit branch,
which never shifts the register, is none. So the function has clocked eight times
for each whole byte, while the message asks for one clock per bit: the bits that
went through the bit branch are missing. There are fewer than 32 of them, and the
register does not repeat that soon. -/

/-- A buffer of zero bytes. -/
def zeroBuffer : Buffer := fun _ => 0

theorem crcBits_zero {w : Nat} (poly : BitVec w) :
    ∀ (n : Nat) (crc : BitVec w), crcBits poly n 0 crc = crc := by
  intro n
  induction n with
  | zero => intro crc; rfl
  | succ n ih => intro crc; simpa [crcBits] using ih crc

theorem crc16_update_zero (c : BitVec 16) : crc16Ccitt.update c 0 = shifts crc16CcittPoly 8 c := by
  rw [crc16Ccitt_update, show octetBits 0 = List.replicate 8 false by decide, feed_replicate_false]

/-- Number of message bits. -/
def messageLength (total pos : Nat) : Nat :=
  if pos < total then pos + (total - (pos + 16)) else total

theorem crc16CcittFalse_zero (total pos : Nat) :
    crc16CcittFalse (messageBits zeroBuffer total pos 16) =
      shifts crc16CcittPoly (messageLength total pos) 0xFFFF := by
  have hspan : ∀ a n, bitSpan zeroBuffer a n = List.replicate n false := by
    intro a n
    apply bitSpan_eq_replicate
    intro i _ _
    simp [bitAt, zeroBuffer]
  rw [crc16CcittFalse, messageLength]
  split
  next hlt =>
    rw [messageBits_of_lt hlt, hspan, hspan, List.replicate_append_replicate, feed_replicate_false]
  next hge =>
    rw [messageBits_of_le (by omega), hspan, feed_replicate_false]

/-- The register comes back to its initial value in none of the first 31 clocks. -/
private theorem shifts_init_ne :
    ∀ m : Fin 32, m.val ≠ 0 → shifts crc16CcittPoly m.val 0xFFFF ≠ 0xFFFF := by
  decide

theorem shifts_ne_of_lost {k lost n : Nat} (hpos : 0 < lost) (hle : lost ≤ 31)
    (hn : 8 * k + lost = n) :
    shifts crc16CcittPoly (8 * k) 0xFFFF ≠ shifts crc16CcittPoly n 0xFFFF := by
  intro h
  rw [← hn, shifts_add] at h
  have hinit := shifts_injective (by decide) (8 * k) h
  exact shifts_init_ne ⟨lost, by omega⟩ (by show lost ≠ 0; omega) hinit.symm

/-- Bits that pass through the bit branch until a position with residue `r` is
aligned again, the residue doubling each time. -/
def realignBits : Nat → Nat
  | 1 => 7
  | 2 => 6
  | 3 => 13
  | 4 => 4
  | 5 => 11
  | 6 => 10
  | 7 => 17
  | _ => 0

theorem realignBits_double {x : Nat} (h : x % 8 ≠ 0) :
    realignBits (x % 8) = x % 8 + realignBits ((x + x % 8) % 8) := by
  have hr : x % 8 < 8 := Nat.mod_lt _ (by decide)
  have hd : (x + x % 8) % 8 = (x % 8 + x % 8) % 8 := by omega
  rw [hd]
  generalize x % 8 = r at *
  interval_cases r <;> rfl

theorem realignBits_le (r : Nat) : realignBits r ≤ 17 := by
  unfold realignBits
  split <;> decide

end CfsEds.Edslib
