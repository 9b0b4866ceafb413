import CfsEds.Edslib.ErrorControl
import CfsEds.Lib.Crc

/-!
# The aligned part of the CRC loops

What the two CRC functions are meant to compute is a serial register over a bit
string: the first `TotalBitSize` bits of the buffer, with the error control
field cut out (`messageBits`). This file relates the loop of the source to byte
strings: a run of table steps is a fold over bytes (`yields_table_run`), and when
the field starts on a byte boundary the loop cuts it out exactly
(`yields_aligned_field`). Both members of the family share these lemmas.
-/

namespace CfsEds.Edslib

open CfsEds.Lib.Loop List

/-! ## The message -/

/-- Bit `i` of a buffer, most significant bit of each byte first. -/
def bitAt (buf : Buffer) (i : Nat) : Bool := (buf (i / 8)).getMsbD (i % 8)

/-- Bits `a, …, a + n - 1`. -/
def bitSpan (buf : Buffer) (a n : Nat) : List Bool := (List.range' a n).map (bitAt buf)

/-- The first `total` bits with the `width` bits at `pos` deleted. -/
def messageBits (buf : Buffer) (total pos width : Nat) : List Bool :=
  ((List.range total).filter fun i => !decide (pos ≤ i ∧ i < pos + width)).map (bitAt buf)

/-- The bits of one byte, most significant first. -/
def octetBits (b : BitVec 8) : List Bool := (List.range 8).map b.getMsbD

theorem bitSpan_append (buf : Buffer) (a m n : Nat) :
    bitSpan buf a m ++ bitSpan buf (a + m) n = bitSpan buf a (m + n) := by
  rw [bitSpan, bitSpan, bitSpan, ← map_append, List.range'_append_1]

@[simp] theorem bitSpan_zero (buf : Buffer) (a : Nat) : bitSpan buf a 0 = [] := rfl

@[simp] theorem length_bitSpan (buf : Buffer) (a n : Nat) : (bitSpan buf a n).length = n := by
  simp [bitSpan]

/-- A stretch without a set bit. -/
theorem bitSpan_eq_replicate {buf : Buffer} {a n : Nat}
    (h : ∀ i, a ≤ i → i < a + n → bitAt buf i = false) :
    bitSpan buf a n = List.replicate n false := by
  refine eq_replicate_iff.2 ⟨length_bitSpan buf a n, ?_⟩
  intro b hb
  obtain ⟨i, hi, hbit⟩ := mem_map.1 hb
  have hrange := mem_range'_1.1 hi
  rw [← hbit, h i hrange.1 hrange.2]

/-- The eight bits of byte `a`. -/
theorem bitSpan_octet (buf : Buffer) (a : Nat) : bitSpan buf (8 * a) 8 = octetBits (buf a) := by
  have hbit : ∀ i, i < 8 → bitAt buf (8 * a + i) = (buf a).getMsbD i := by
    intro i hi
    rw [bitAt, show (8 * a + i) / 8 = a by omega, show (8 * a + i) % 8 = i by omega]
  simp only [bitSpan, List.range'_eq_map_range, map_map, octetBits]
  apply map_congr_left
  intro i hi
  exact hbit i (mem_range.1 hi)

private theorem filter_outside {l : List Nat} {pos width : Nat}
    (h : ∀ i ∈ l, i < pos ∨ pos + width ≤ i) :
    l.filter (fun i => !decide (pos ≤ i ∧ i < pos + width)) = l := by
  apply filter_eq_self.2
  intro i hi
  have := h i hi
  simp only [Bool.not_eq_true', decide_eq_false_iff_not]
  omega

private theorem filter_inside {l : List Nat} {pos width : Nat}
    (h : ∀ i ∈ l, pos ≤ i ∧ i < pos + width) :
    l.filter (fun i => !decide (pos ≤ i ∧ i < pos + width)) = [] := by
  apply filter_eq_nil_iff.2
  intro i hi
  simpa using h i hi

/-- A field past the end removes nothing. -/
theorem messageBits_of_le {buf : Buffer} {total pos width : Nat} (h : total ≤ pos) :
    messageBits buf total pos width = bitSpan buf 0 total := by
  rw [messageBits, filter_outside, bitSpan, range_eq_range']
  intro i hi
  have := mem_range.1 hi
  omega

/-- A field inside the message leaves what is before and what is after it. -/
theorem messageBits_of_lt {buf : Buffer} {total pos width : Nat} (h : pos < total) :
    messageBits buf total pos width =
      bitSpan buf 0 pos ++ bitSpan buf (pos + width) (total - (pos + width)) := by
  obtain ⟨m, hm⟩ : ∃ m, m = min width (total - pos) := ⟨_, rfl⟩
  have hsplit : List.range total =
      List.range' 0 pos ++ (List.range' pos m ++ List.range' (pos + m) (total - (pos + m))) := by
    rw [List.range'_append_1, show m + (total - (pos + m)) = total - pos by omega]
    have := @List.range'_append_1 0 pos (total - pos)
    rw [Nat.zero_add] at this
    rw [this, range_eq_range', show pos + (total - pos) = total by omega]
  rw [messageBits, hsplit, filter_append, filter_append, filter_outside, filter_inside,
    nil_append, filter_outside, map_append]
  · rcases Nat.le_total width (total - pos) with hw | hw
    · rw [show m = width by omega]
      rfl
    · rw [show total - (pos + m) = 0 by omega, show total - (pos + width) = 0 by omega]
      rfl
  · intro i hi
    have := mem_range'_1.1 hi
    omega
  · intro i hi
    have := mem_range'_1.1 hi
    omega
  · intro i hi
    have := mem_range'_1.1 hi
    omega

/-! ## Runs of table steps -/

section Runs

variable {w : Nat} {alg : CrcAlgorithm w} {buf : Buffer} {totalBitSize errCtlBitPos : Nat}

/-- The register after the bytes `a, …, a + n - 1` by table steps. -/
def updateBytes (alg : CrcAlgorithm w) (buf : Buffer) (a n : Nat) (crc : BitVec w) : BitVec w :=
  (List.range' a n).foldl (fun c i => alg.update c (buf i)) crc

theorem updateBytes_succ (alg : CrcAlgorithm w) (buf : Buffer) (a n : Nat) (crc : BitVec w) :
    updateBytes alg buf a (n + 1) crc = updateBytes alg buf (a + 1) n (alg.update crc (buf a)) := by
  simp [updateBytes, List.range'_succ]

/-- On whole bytes below the breakpoint the loop is a fold over bytes. -/
theorem yields_table_run {t : CrcState w} {brk : Nat} (hbrk : brk ≤ totalBitSize)
    (htotal : totalBitSize < 2 ^ 32) :
    ∀ (n a : Nat) (crc : BitVec w), 8 * (a + n) ≤ brk →
      (Yields (crcCond totalBitSize) (crcBody alg buf totalBitSize errCtlBitPos)
          ⟨crc, 8 * a, brk, 0⟩ t ↔
        Yields (crcCond totalBitSize) (crcBody alg buf totalBitSize errCtlBitPos)
          ⟨updateBytes alg buf a n crc, 8 * (a + n), brk, 0⟩ t) := by
  intro n
  induction n with
  | zero => intro a crc _; rfl
  | succ n ih =>
    intro a crc hle
    have hcond : crcCond totalBitSize (⟨crc, 8 * a, brk, 0⟩ : CrcState w) = true :=
      crcCond_eq_true.2 (by show 8 * a < totalBitSize; omega)
    have hbody : crcBody alg buf totalBitSize errCtlBitPos ⟨crc, 8 * a, brk, 0⟩ =
        ⟨alg.update crc (buf a), 8 * (a + 1), brk, 0⟩ := by
      have hu : u32 (8 * a + 8) = 8 * (a + 1) := u32_of_lt (by omega)
      rw [crcBody_table rfl (by show u32 (8 * a + 8) ≤ brk; omega)]
      simp [hu]
    rw [yields_iff_of_pos hcond, hbody, ih (a + 1) _ (by omega), updateBytes_succ,
      show a + 1 + n = a + (n + 1) by omega]

/-- The shift the code keeps with position `x`: the low three bits of its negation. -/
def shiftAt (x : Nat) : Nat := (8 - x % 8) % 8

theorem neg_and_seven {x : Nat} (hx : x < 2 ^ 32) : (2 ^ 32 - x) &&& 0x7 = shiftAt x := by
  rw [show 0x7 = 2 ^ 3 - 1 by rfl, Nat.and_two_pow_sub_one_eq_mod, shiftAt]
  omega

/-- Where the bit branch stops at the latest: the position advances by its own
residue (a whole byte from a byte boundary), not to the next byte boundary. -/
def bitReach (x : Nat) : Nat := u32 (x + if x % 8 = 0 then 8 else x % 8)

/-- Everything the bit branch does: `next` is where it stops, `curr` where that
leaves `CurrBitPos`, `pos` where the loop goes on. -/
theorem crcBody_bits {s : CrcState w} (next curr pos : Nat) (hcurrPos : s.currBitPos < 2 ^ 32)
    (hbrk : s.breakpointBitPos < 2 ^ 32) (hshift : s.currShift = shiftAt s.currBitPos)
    (helse : ¬ (s.currShift = 0 ∧ u32 (s.currBitPos + 8) ≤ s.breakpointBitPos))
    (hnext : next = min s.breakpointBitPos (bitReach s.currBitPos))
    (hcurr : curr = max s.currBitPos next)
    (hpos : pos = if curr = errCtlBitPos then u32 (curr + alg.fieldBits) else next) :
    crcBody alg buf totalBitSize errCtlBitPos s =
      ⟨crcBits alg.poly (next - s.currBitPos) (buf (s.currBitPos / 8) <<< s.currShift) s.crc,
        pos, totalBitSize, shiftAt pos⟩ := by
  have hreach : u32 (u32 (s.currBitPos + 8) + 2 ^ 32 - s.currShift) = bitReach s.currBitPos := by
    rw [hshift]
    unfold bitReach u32 shiftAt
    split <;> omega
  have hclip : (if bitReach s.currBitPos > s.breakpointBitPos then s.breakpointBitPos
      else bitReach s.currBitPos) = next := by
    split <;> omega
  have hmax : (if s.currBitPos < next then next else s.currBitPos) = curr := by
    split <;> omega
  have hsmall : pos < 2 ^ 32 := by
    have := Nat.mod_lt (curr + alg.fieldBits) (show 0 < 2 ^ 32 by decide)
    rw [hpos]
    split
    · assumption
    · omega
  simp only [crcBody, if_neg helse, hreach, hclip, hmax, Nat.shiftRight_eq_div_pow,
    ← hpos, neg_and_seven hsmall]

/-- The step at a breakpoint on a byte boundary where the field starts: no bit
is read and the field is stepped over. -/
theorem crcBody_field {crc : BitVec w} (hdvd : 8 ∣ errCtlBitPos)
    (hsmall : errCtlBitPos + 8 < 2 ^ 32) (hfield : errCtlBitPos + alg.fieldBits < 2 ^ 32) :
    crcBody alg buf totalBitSize errCtlBitPos ⟨crc, errCtlBitPos, errCtlBitPos, 0⟩ =
      ⟨crc, errCtlBitPos + alg.fieldBits, totalBitSize,
        shiftAt (errCtlBitPos + alg.fieldBits)⟩ := by
  have hu := u32_of_lt hsmall
  have huf := u32_of_lt hfield
  have hreach : bitReach errCtlBitPos = errCtlBitPos + 8 := by
    rw [bitReach, if_pos (by omega), hu]
  rw [crcBody_bits errCtlBitPos errCtlBitPos (errCtlBitPos + alg.fieldBits)]
  · simp [crcBits]
  · show errCtlBitPos < 2 ^ 32
    omega
  · show errCtlBitPos < 2 ^ 32
    omega
  · show 0 = shiftAt errCtlBitPos
    unfold shiftAt
    omega
  · show ¬ (0 = 0 ∧ u32 (errCtlBitPos + 8) ≤ errCtlBitPos)
    omega
  · show errCtlBitPos = min errCtlBitPos (bitReach errCtlBitPos)
    omega
  · show errCtlBitPos = max errCtlBitPos errCtlBitPos
    omega
  · rw [if_pos rfl, huf]

/-- Without a field in the message, whole bytes are folded to the end. -/
theorem yields_aligned (alg : CrcAlgorithm w) (buf : Buffer)
    (hle : totalBitSize ≤ errCtlBitPos) (htotal : totalBitSize < 2 ^ 32)
    {n : Nat} (hn : totalBitSize = 8 * n) :
    ∃ t, Yields (crcCond totalBitSize) (crcBody alg buf totalBitSize errCtlBitPos)
        (crcStart alg totalBitSize errCtlBitPos) t ∧
      t.crc = updateBytes alg buf 0 n alg.init := by
  have hstart : crcStart alg totalBitSize errCtlBitPos = ⟨alg.init, 8 * 0, totalBitSize, 0⟩ := by
    rw [crcStart, if_neg (by omega)]
  refine ⟨⟨updateBytes alg buf 0 n alg.init, 8 * (0 + n), totalBitSize, 0⟩, ?_, rfl⟩
  rw [hstart, yields_table_run (Nat.le_refl _) htotal n 0 _ (by omega)]
  exact yields_of_neg (crcCond_eq_false.2 (by show totalBitSize ≤ 8 * (0 + n); omega))

/-- A field on a byte boundary is cut out: the bytes before it are folded, then
those behind it (none when the field reaches the end). -/
theorem yields_aligned_field (alg : CrcAlgorithm w) (buf : Buffer)
    (hlt : errCtlBitPos < totalBitSize) (htotal : totalBitSize < 2 ^ 32)
    {a f n : Nat} (ha : errCtlBitPos = 8 * a) (hf : alg.fieldBits = 8 * f) (hpos : 0 < f)
    (hsmall : errCtlBitPos + 8 * f < 2 ^ 32)
    (hn : totalBitSize ≤ 8 * (a + f) ∧ n = 0 ∨ totalBitSize = 8 * (a + f + n)) :
    ∃ t, Yields (crcCond totalBitSize) (crcBody alg buf totalBitSize errCtlBitPos)
        (crcStart alg totalBitSize errCtlBitPos) t ∧
      t.crc = updateBytes alg buf (a + f) n (updateBytes alg buf 0 a alg.init) := by
  have hstart : crcStart alg totalBitSize errCtlBitPos = ⟨alg.init, 8 * 0, errCtlBitPos, 0⟩ := by
    rw [crcStart, if_pos hlt]
  have hfield : crcBody alg buf totalBitSize errCtlBitPos
      ⟨updateBytes alg buf 0 a alg.init, errCtlBitPos, errCtlBitPos, 0⟩ =
      ⟨updateBytes alg buf 0 a alg.init, 8 * (a + f), totalBitSize, 0⟩ := by
    rw [crcBody_field (by omega) (by omega) (by omega), hf,
      show errCtlBitPos + 8 * f = 8 * (a + f) by omega]
    congr 1
    unfold shiftAt
    omega
  have hcond : crcCond totalBitSize
      (⟨updateBytes alg buf 0 a alg.init, errCtlBitPos, errCtlBitPos, 0⟩ : CrcState w) = true :=
    crcCond_eq_true.2 hlt
  refine ⟨⟨updateBytes alg buf (a + f) n (updateBytes alg buf 0 a alg.init), 8 * (a + f + n),
    totalBitSize, 0⟩, ?_, rfl⟩
  rw [hstart, yields_table_run (by omega) htotal a 0 _ (by omega),
    show 8 * (0 + a) = errCtlBitPos by omega, yields_iff_of_pos hcond, hfield]
  rcases hn with ⟨hend, rfl⟩ | hend
  · exact yields_of_neg (crcCond_eq_false.2 hend)
  rw [yields_table_run (Nat.le_refl _) htotal n (a + f) _ (by omega)]
  exact yields_of_neg (crcCond_eq_false.2 (by
    show totalBitSize ≤ 8 * (a + f + n)
    omega))

end Runs

end CfsEds.Edslib
