import CfsEds.Edslib.PackStyle

/-!
# Packing a scalar

`EdsLib_Internal_DoBitwisePack` puts a scalar at a bit offset of a buffer. The value is converted
to the encoding of the data sheet, shifted and inverted in memory, and then its bytes go
through a 32-bit shift register: byte by byte in, and byte by byte out, behind the bits that
stand before the field in its first byte.

`packImage_eq` says what the buffer is afterwards: the bits before the field, the bits of the
field, and the bits behind it, on which the rest of the last byte that was read is ORed. The
source takes care not to change the bits behind the field, but it does not clear that rest.
-/

namespace CfsEds.Edslib.Pack

open Lib.Bits Lib.ByteOrder List Option

/-- What depends on the machine: the byte order, and the conversions of floating point numbers
(`EdsLib_Internal_DoFloatPack` and `EdsLib_Internal_DoFloatUnpack`) on the bytes in memory. -/
structure Machine where
  native : Endian
  floatPack : List Byte → NumberEncoding → Nat → List Byte
  floatUnpack : Nat → List Byte → NumberEncoding → Nat → List Byte

/-! ## The value in memory -/

/-- The encoded value in memory, and how it is read: `LoadPtr`, `ConvSize` and `MemStride`. -/
structure Image where
  mem : List Byte
  convSize : Nat
  memStride : Int
  deriving DecidableEq, Repr

/-- The conversion to the intermediate type, if indicated. -/
def encodeImage (m : Machine) (f : Field) (style : PackStyle) (src : List Byte) : Image :=
  match style.intermediate with
  | none => ⟨src, f.bytes, style.memStride⟩
  | some (_, size) =>
    if size = 0 then ⟨src, f.bytes, style.memStride⟩
    else
      let mem :=
        match f.basicType with
        | .signedInt => signedIntPack m.native src f.encoding f.bits
        | .float => m.floatPack src f.encoding f.bits
        | _ => []
      if mem.length ≠ size then
        -- the pack routine did not output an object of the expected size
        ⟨0xFF#8 :: mem.tail, mem.length, 0⟩
      else ⟨mem, mem.length, style.memStride⟩

/-- The value is shifted, and inverted. The switch of the source has no case for other sizes: a
value of such a size (packed digits) is left as it is, also if its bits are to be inverted. -/
def shiftInvert (m : Machine) (style : PackStyle) (image : Image) : Image :=
  if 0 < style.intermediateShift ∨ style.invert = true then
    if IsIntSize image.convSize then
      let n := image.convSize
      let shifted := nativeValue m.native (image.mem.take n) * 2 ^ style.intermediateShift % 256 ^ n
      { image with
        mem := nativeBytes m.native n
          (if style.invert then 256 ^ n - 1 - shifted else shifted) }
    else image
  else image

/-- The byte that is loaded after `k` steps of `LoadPtr`. -/
def Image.byteAt (image : Image) (k : Nat) : Option Byte :=
  let start : Int := if image.memStride < 0 then (image.convSize : Int) - 1 else 0
  let pos := start + k * image.memStride
  if 0 ≤ pos then image.mem[pos.toNat]? else none

/-! ## The shift register -/

/-- The variables of the loops. -/
structure PackState where
  shiftRegister : BitVec 32
  highBitPos : Nat
  totalBits : Nat
  loads : Nat
  written : List Byte
  deriving DecidableEq, Repr

/-- Read 8 more bits of data into the bottom of the shift register. -/
def loadByte (byte : Byte) (st : PackState) : PackState :=
  { st with
    shiftRegister := st.shiftRegister <<< 8 ||| byte.setWidth 32
    highBitPos := st.highBitPos + 8
    loads := st.loads + 1 }

/-- Output 8 bits of data from the top of the shift register. -/
def outputByte (st : PackState) : PackState :=
  let highBitPos := st.highBitPos - 8
  { st with
    highBitPos
    totalBits := st.totalBits - 8
    written := st.written ++ [(st.shiftRegister >>> highBitPos).setWidth 8] }

/-- Existing bits of the buffer are kept before the field. -/
def preload (dst : List Byte) (dstBitOffset : Nat) : Option (BitVec 32) :=
  if dstBitOffset = 0 then some 0
  else dst.head?.map fun byte => (byte.setWidth 32 : BitVec 32) >>> (8 - dstBitOffset)

/-- The first octet, if it is not a whole one: skip whole bytes of padding, load the next byte
and shift out the rest of the padding. -/
def loadLeading (byteAt : Nat → Option Byte) (leadingPadBits : Nat) (st : PackState) :
    Option PackState :=
  if 0 < leadingPadBits then
    (byteAt (leadingPadBits / 8)).map fun byte =>
      { st with
        shiftRegister :=
          (st.shiftRegister <<< 8 ||| byte.setWidth 32) >>> (leadingPadBits % 8)
        highBitPos := st.highBitPos + (8 - leadingPadBits % 8)
        loads := leadingPadBits / 8 + 1 }
  else some st

/-- The loop that loads whole bytes. -/
def packLoop (byteAt : Nat → Option Byte) (st : PackState) : Option PackState :=
  if st.highBitPos < st.totalBits then
    if st.highBitPos < 24 then
      match byteAt st.loads with
      | none => none
      | some byte => packLoop byteAt (loadByte byte st)
    else packLoop byteAt (outputByte st)
  else some st
termination_by 2 * st.totalBits - st.highBitPos
decreasing_by
  · simp only [loadByte]
    omega
  · simp only [outputByte]
    omega

/-- The loop that outputs the remaining full octets. -/
def outputAll (st : PackState) : PackState :=
  if 8 ≤ st.totalBits then outputAll (outputByte st) else st
termination_by st.totalBits
decreasing_by
  simp only [outputByte]
  omega

/-- The remaining partial octet: the bits that follow in the buffer are ORed to it. -/
def lastOctet (st : PackState) (old : Byte) : Byte :=
  let reg :=
    if st.highBitPos ≤ 8 then st.shiftRegister <<< (8 - st.highBitPos)
    else st.shiftRegister >>> (st.highBitPos - 8)
  (reg ||| (old &&& (1#8 <<< (8 - st.totalBits) - 1#8)).setWidth 32).setWidth 8

/-- The buffer when everything is written. -/
def finish (dst : List Byte) (st : PackState) : Option (List Byte) :=
  if 0 < st.totalBits then
    dst[st.written.length]?.map fun old =>
      st.written ++ lastOctet st old :: dst.drop (st.written.length + 1)
  else if st.written.length ≤ dst.length then some (st.written ++ dst.drop st.written.length)
  else none

/-- The copy of an encoded value to the buffer. -/
def packImage (bits leadingPadBits : Nat) (image : Image) (dst : List Byte)
    (dstBitOffset : Nat) : Option (List Byte) :=
  (preload dst dstBitOffset).bind fun shiftRegister =>
    (loadLeading image.byteAt leadingPadBits
      ⟨shiftRegister, dstBitOffset, dstBitOffset + bits, 0, []⟩).bind fun st =>
        (packLoop image.byteAt st).bind fun st => finish dst (outputAll st)

/-- `EdsLib_Internal_DoBitwisePack`: the buffer from `DstPtr` on. -/
def bitwisePack (m : Machine) (f : Field) (src dst : List Byte) (dstBitOffset : Nat) :
    Option (List Byte) :=
  match getPackStyle m.native f with
  | none => some dst
  | some style =>
    packImage f.bits style.leadingPadBits (shiftInvert m style (encodeImage m f style src)) dst
      dstBitOffset

/-- A field packed at an offset of a buffer, as the callers do it. -/
def packAt (m : Machine) (f : Field) (src buffer : List Byte) (offset : Nat) :
    Option (List Byte) :=
  (bitwisePack m f src (buffer.drop (offset / 8)) (offset % 8)).map
    (buffer.take (offset / 8) ++ ·)

/-! ## What is in the shift register -/

/-- The bits written and those in the shift register are `bits`. -/
structure Packed (bits : List Bool) (st : PackState) : Prop where
  bits : bytesBits st.written ++ lowBits st.highBitPos st.shiftRegister = bits
  high : st.highBitPos < 32

section

variable {bits : List Bool} {st : PackState}

theorem Packed.loadByte (h : Packed bits st) (hhigh : st.highBitPos < 24) (byte : Byte) :
    Packed (bits ++ lowBits 8 byte) (loadByte byte st) := by
  refine ⟨?_, ?_⟩
  · simp only [Pack.loadByte]
    rw [lowBits_push (by omega), ← append_assoc, h.bits]
  · simp only [Pack.loadByte]
    omega

theorem Packed.outputByte (h : Packed bits st) (hhigh : 8 ≤ st.highBitPos) :
    Packed bits (outputByte st) := by
  have hlt := h.high
  have hsplit : lowBits st.highBitPos st.shiftRegister
      = lowBits 8 ((st.shiftRegister >>> (st.highBitPos - 8)).setWidth 8)
        ++ lowBits (st.highBitPos - 8) st.shiftRegister := by
    rw [lowBits_setWidth (Nat.le_refl 8), ← lowBits_add]
    congr 1
    omega
  refine ⟨?_, ?_⟩
  · simp only [Pack.outputByte]
    rw [bytesBits_append, bytesBits_cons, bytesBits_nil, append_nil, append_assoc, ← hsplit, h.bits]
  · simp only [Pack.outputByte]
    omega

/-- The position behind the last bit of the field. -/
def PackState.endPos (st : PackState) : Nat := 8 * st.written.length + st.totalBits

theorem endPos_start (reg : BitVec 32) (high total loads : Nat) :
    PackState.endPos ⟨reg, high, total, loads, []⟩ = total :=
  Nat.zero_add total

theorem endPos_outputByte (h : 8 ≤ st.totalBits) : (outputByte st).endPos = st.endPos := by
  simp only [PackState.endPos, outputByte, length_append, length_singleton]
  omega

/-- The loop loads the bytes that are needed to reach the end of the field. -/
theorem packLoop_eq {byteAt : Nat → Option Byte} (h : Packed bits st) (bytes : List Byte)
    (hbytes : ∀ i (hi : i < bytes.length), byteAt (st.loads + i) = some bytes[i])
    (hlen : bytes.length = (st.totalBits - st.highBitPos + 7) / 8) :
    ∃ st', packLoop byteAt st = some st' ∧ Packed (bits ++ bytesBits bytes) st' ∧
      st'.endPos = st.endPos ∧ st'.totalBits ≤ st'.highBitPos := by
  fun_induction packLoop byteAt st generalizing bits bytes with
  | case1 st hmore hroom hnone =>
    -- there is a byte to load
    cases bytes with
    | nil =>
      rw [length_nil] at hlen
      omega
    | cons =>
      have hbyte := hbytes 0 (by simp)
      rw [Nat.add_zero, hnone] at hbyte
      cases hbyte
  | case2 st hmore hroom byte hbyte ih =>
    cases bytes with
    | nil =>
      rw [length_nil] at hlen
      omega
    | cons b bytes =>
      have hb := hbytes 0 (by simp)
      rw [Nat.add_zero, hbyte] at hb
      obtain rfl : byte = b := Option.some.inj hb
      rw [length_cons] at hlen
      obtain ⟨st', hrun, hpacked, hend, hle⟩ := ih (h.loadByte hroom byte) bytes (fun i hi => by
          have hnext := hbytes (i + 1) (by simpa using hi)
          simp only [loadByte]
          rw [show st.loads + 1 + i = st.loads + (i + 1) by omega]
          exact hnext) (by simp only [loadByte]; omega)
      refine ⟨st', hrun, ?_, hend, hle⟩
      rw [bytesBits_cons, ← append_assoc]
      exact hpacked
  | case3 st hmore hfull ih =>
    obtain ⟨st', hrun, hpacked, hend, hle⟩ := ih (h.outputByte (by omega)) bytes hbytes
      (by simp only [outputByte]; omega)
    exact ⟨st', hrun, hpacked, hend.trans (endPos_outputByte (by omega)), hle⟩
  | case4 st hdone =>
    have hnil : bytes = [] := length_eq_zero_iff.mp (by omega)
    subst hnil
    exact ⟨st, rfl, by simpa using h, rfl, by omega⟩

theorem outputAll_eq (h : Packed bits st) (hle : st.totalBits ≤ st.highBitPos) :
    Packed bits (outputAll st) ∧ (outputAll st).endPos = st.endPos ∧
      (outputAll st).totalBits ≤ (outputAll st).highBitPos ∧ (outputAll st).totalBits < 8 := by
  fun_induction outputAll st with
  | case1 st hfull ih =>
    obtain ⟨hpacked, hend, hle', hlt⟩ := ih (h.outputByte (by omega))
      (by simp only [outputByte]; omega)
    exact ⟨hpacked, hend.trans (endPos_outputByte hfull), hle', hlt⟩
  | case2 st hpartial => exact ⟨h, rfl, hle, by omega⟩

/-- The bits of the buffer that follow in the last octet. -/
theorem lowBits_following {total : Nat} (hpos : 0 < total) (htotal : total ≤ 8) (old : Byte) :
    lowBits 8 (old &&& (1#8 <<< (8 - total) - 1#8))
      = List.replicate total false ++ (lowBits 8 old).drop total := by
  have hcases : total = 1 ∨ total = 2 ∨ total = 3 ∨ total = 4 ∨ total = 5 ∨ total = 6 ∨
      total = 7 ∨ total = 8 := by omega
  revert old
  rcases hcases with rfl | rfl | rfl | rfl | rfl | rfl | rfl | rfl <;> decide +kernel

/-- The octet in the register that has the end of the field. -/
theorem lowBits_lastRegister (h : st.highBitPos < 32) :
    lowBits 8 (if st.highBitPos ≤ 8 then st.shiftRegister <<< (8 - st.highBitPos)
      else st.shiftRegister >>> (st.highBitPos - 8))
      = padded 8 (lowBits st.highBitPos st.shiftRegister) := by
  split
  next hle =>
    have hshift := lowBits_shiftLeft (w := 32) (n := st.highBitPos) (k := 8 - st.highBitPos)
      (by omega) st.shiftRegister
    rw [show st.highBitPos + (8 - st.highBitPos) = 8 by omega] at hshift
    rw [hshift, padded_of_length_le (by simpa using hle), length_lowBits]
  next hlt =>
    have hsplit := lowBits_add 8 (st.highBitPos - 8) st.shiftRegister
    rw [show 8 + (st.highBitPos - 8) = st.highBitPos by omega] at hsplit
    rw [padded, take_append_of_le_length (by rw [length_lowBits]; omega), hsplit,
      take_left' (by simp)]

/-- The last octet: the end of the field, and what follows it in the buffer with the rest of
the register ORed on it. -/
theorem lowBits_lastOctet (h : st.highBitPos < 32) (hpos : 0 < st.totalBits)
    (htotal : st.totalBits ≤ 8) (hle : st.totalBits ≤ st.highBitPos) (old : Byte) :
    lowBits 8 (lastOctet st old) = (lowBits st.highBitPos st.shiftRegister).take st.totalBits
        ++ orBits (((lowBits st.highBitPos st.shiftRegister).drop st.totalBits).take
            (8 - st.totalBits))
          ((lowBits 8 old).drop st.totalBits) := by
  have hfield : ((lowBits st.highBitPos st.shiftRegister).take st.totalBits).length
      = st.totalBits := by
    rw [length_take, length_lowBits]
    omega
  unfold lastOctet
  rw [lowBits_setWidth (Nat.le_refl 8), lowBits_or, lowBits_lastRegister h,
    lowBits_setWidth (by omega), lowBits_following hpos htotal]
  generalize lowBits st.highBitPos st.shiftRegister = queue at hfield ⊢
  -- the register splits at the end of the field
  have hsplit : padded 8 queue
      = queue.take st.totalBits ++ padded (8 - st.totalBits) (queue.drop st.totalBits) := by
    have happend := padded_append (n := 8 - st.totalBits) (b := queue.drop st.totalBits) hfield
    rwa [take_append_drop, show st.totalBits + (8 - st.totalBits) = 8 by omega] at happend
  rw [hsplit, zipWith_append (by rw [hfield, length_replicate]),
    zipWith_or_zeros hfield, zipWith_or_padded (by rw [length_drop, length_lowBits])]

/-- The rest of the last byte that was loaded, as far as it is in the last octet. -/
def spill (endPos : Nat) (bits : List Bool) : List Bool :=
  if endPos % 8 = 0 then [] else (bits.drop endPos).take (8 - endPos % 8)

/-- The buffer in the end: the bits up to the end of the field, and the bits of the buffer
behind it, on which the rest of the last byte is ORed. -/
theorem finish_eq {dst : List Byte} (h : Packed bits st) (hle : st.totalBits ≤ st.highBitPos)
    (hlt : st.totalBits < 8) (hdst : st.endPos ≤ 8 * dst.length) :
    ∃ dst', finish dst st = some dst' ∧ bytesBits dst' = bits.take st.endPos
        ++ orBits (spill st.endPos bits) ((bytesBits dst).drop st.endPos) := by
  have hbits := h.bits
  unfold PackState.endPos at hdst ⊢
  unfold finish
  split
  next hpos =>
    obtain ⟨old, hold⟩ : ∃ old, dst[st.written.length]? = some old :=
      ⟨_, getElem?_eq_getElem (by omega)⟩
    have hindex : dst.drop st.written.length = old :: dst.drop (st.written.length + 1) := by
      obtain ⟨hlen, rfl⟩ := List.getElem?_eq_some_iff.mp hold
      exact List.drop_eq_getElem_cons hlen
    rw [hold, map_some]
    refine ⟨_, rfl, ?_⟩
    have hfollow : (bytesBits dst).drop (8 * st.written.length + st.totalBits)
        = (lowBits 8 old).drop st.totalBits ++ bytesBits (dst.drop (st.written.length + 1)) := by
      rw [← drop_drop, ← bytesBits_drop, hindex, bytesBits_cons,
        drop_append_of_le_length (by rw [length_lowBits]; omega)]
    have hmod : (8 * st.written.length + st.totalBits) % 8 = st.totalBits := by omega
    have hwritten : (bytesBits st.written).length = 8 * st.written.length := length_bytesBits _
    rw [bytesBits_append, bytesBits_cons, lowBits_lastOctet h.high hpos (by omega) hle, hfollow,
      spill, if_neg (by omega), hmod, ← hbits, ← hwritten, take_length_add_append,
      drop_length_add_append, orBits_append, append_assoc, append_assoc]
    rw [length_take, length_drop, length_drop, length_lowBits, length_lowBits]
    omega
  next hzero =>
    have htotal : st.totalBits = 0 := by omega
    rw [htotal, Nat.add_zero] at hdst ⊢
    rw [if_pos (by omega)]
    refine ⟨_, rfl, ?_⟩
    rw [bytesBits_append, bytesBits_drop, spill, if_pos (by omega), orBits_nil, ← hbits,
      take_left' (length_bytesBits _)]

end

/-! ## The buffer afterwards -/

/-- The bits of the field in the bytes of a value, in the order in which they are loaded. Whole
bytes of leading padding are skipped, and the low bits of the next byte. -/
def fieldBits (bits leadingPadBits : Nat) (order : List Byte) : List Bool :=
  if leadingPadBits = 0 then (bytesBits order).take bits
  else
    match order.drop (leadingPadBits / 8) with
    | [] => []
    | byte :: rest => (lowBits 8 byte).take (8 - leadingPadBits % 8) ++ bytesBits rest

/-- The bits behind the field in the last byte that is loaded. -/
def restBits (bits leadingPadBits : Nat) (order : List Byte) : List Bool :=
  if leadingPadBits = 0 then ((bytesBits order).take (8 * ((bits + 7) / 8))).drop bits else []

/-- The bytes that hold the field: those up to its end, or exactly those with the padding. -/
structure Holds (bits leadingPadBits : Nat) (order : List Byte) : Prop where
  trailing : leadingPadBits = 0 → (bits + 7) / 8 ≤ order.length
  leading : leadingPadBits ≠ 0 → 8 * order.length = leadingPadBits + bits ∧ 0 < bits

section

variable {bits leadingPadBits offset : Nat} {order dst : List Byte} {image : Image}

theorem preload_eq (hoffset : offset < 8) (hdst : offset ≤ 8 * dst.length) (total : Nat) :
    ∃ shiftRegister, preload dst offset = some shiftRegister ∧
      Packed ((bytesBits dst).take offset) ⟨shiftRegister, offset, total, 0, []⟩ := by
  unfold preload
  split
  next hzero =>
    subst hzero
    exact ⟨0, rfl, rfl, Nat.zero_lt_succ 31⟩
  next hpos =>
    obtain ⟨byte, rest, rfl⟩ : ∃ byte rest, dst = byte :: rest := by
      cases dst with
      | nil =>
        rw [length_nil] at hdst
        omega
      | cons byte rest => exact ⟨byte, rest, rfl⟩
    refine ⟨_, rfl, ?_, by show offset < 32; omega⟩
    have hsplit := lowBits_add offset (8 - offset) (byte.setWidth 32 : BitVec 32)
    rw [show offset + (8 - offset) = 8 by omega, lowBits_setWidth (by omega)] at hsplit
    show [] ++ lowBits offset _ = _
    rw [nil_append, bytesBits_cons,
      take_append_of_le_length (by rw [length_lowBits]; omega), hsplit,
      take_left' (by simp)]

/-- What is loaded until the end of the field, and the rest of the last byte. -/
theorem loads_eq (horder : ∀ i (hi : i < order.length), image.byteAt i = some order[i])
    (hholds : Holds bits leadingPadBits order) (hoffset : offset < 8) {before : List Bool}
    {shiftRegister : BitVec 32}
    (h : Packed before ⟨shiftRegister, offset, offset + bits, 0, []⟩) :
    ∃ st, ((loadLeading image.byteAt leadingPadBits
          ⟨shiftRegister, offset, offset + bits, 0, []⟩).bind (packLoop image.byteAt)) = some st ∧
      Packed (before ++ (fieldBits bits leadingPadBits order
        ++ restBits bits leadingPadBits order)) st ∧
      st.endPos = offset + bits ∧ st.totalBits ≤ st.highBitPos := by
  unfold loadLeading
  by_cases hlead : leadingPadBits = 0
  · -- whole bytes from the first one on
    have hlen := hholds.trailing hlead
    have hloop := packLoop_eq h (order.take ((bits + 7) / 8)) (fun i hi => by
        rw [length_take] at hi
        rw [getElem_take, Nat.zero_add]
        exact horder i (by omega))
      (by rw [length_take]; show _ = (offset + bits - offset + 7) / 8; omega)
    obtain ⟨st, hrun, hpacked, hend, hle⟩ := hloop
    rw [if_neg (by omega), bind_some]
    refine ⟨st, hrun, ?_, hend.trans (endPos_start ..), hle⟩
    have hfield : fieldBits bits leadingPadBits order ++ restBits bits leadingPadBits order
        = (bytesBits order).take (8 * ((bits + 7) / 8)) := by
      rw [fieldBits, restBits, if_pos hlead, if_pos hlead]
      conv_rhs => rw [← take_append_drop bits ((bytesBits order).take (8 * ((bits + 7) / 8)))]
      rw [take_take, Nat.min_eq_left (by omega)]
    rw [hfield, ← bytesBits_take]
    exact hpacked
  · -- the first byte is a partial one
    obtain ⟨hlen, hpos⟩ := hholds.leading hlead
    obtain ⟨byte, rest, hdrop⟩ : ∃ byte rest, order.drop (leadingPadBits / 8) = byte :: rest := by
      cases hd : order.drop (leadingPadBits / 8) with
      | nil =>
        have hnil := drop_eq_nil_iff.mp hd
        omega
      | cons byte rest => exact ⟨byte, rest, rfl⟩
    have hget : ∀ i (hi : i < (byte :: rest).length),
        image.byteAt (leadingPadBits / 8 + i) = some (byte :: rest)[i] := by
      intro i hi
      have hlt : leadingPadBits / 8 + i < order.length := by
        have hlength := congrArg List.length hdrop
        rw [length_drop] at hlength
        omega
      rw [horder _ hlt]
      congr 1
      rw [← getElem_drop (h := by rw [length_drop]; omega)]
      simp only [hdrop]
    have hrest : rest.length = order.length - leadingPadBits / 8 - 1 := by
      have hlength := congrArg List.length hdrop
      rw [length_drop, length_cons] at hlength
      omega
    have hfirst := hget 0 (by simp)
    rw [Nat.add_zero, getElem_cons_zero] at hfirst
    have hpush : Packed (before ++ (lowBits 8 byte).take (8 - leadingPadBits % 8))
        ⟨(shiftRegister <<< 8 ||| byte.setWidth 32) >>> (leadingPadBits % 8),
          offset + (8 - leadingPadBits % 8), offset + bits, leadingPadBits / 8 + 1, []⟩ := by
      refine ⟨?_, by show offset + (8 - leadingPadBits % 8) < 32; omega⟩
      have htake := lowBits_push_take (w := 32) (v := 8) (n := offset)
        (k := 8 - leadingPadBits % 8) (by omega) (by omega) shiftRegister byte
      rw [show 8 - (8 - leadingPadBits % 8) = leadingPadBits % 8 by omega] at htake
      rw [htake, ← append_assoc, h.bits]
    obtain ⟨st, hrun, hpacked, hend, hle⟩ := packLoop_eq hpush rest (fun i hi => by
        have hnext := hget (i + 1) (by simpa using hi)
        show image.byteAt (leadingPadBits / 8 + 1 + i) = _
        rw [show leadingPadBits / 8 + 1 + i = leadingPadBits / 8 + (i + 1) by omega]
        exact hnext)
      (by
        show rest.length = (offset + bits - (offset + (8 - leadingPadBits % 8)) + 7) / 8
        omega)
    rw [if_pos (by omega), hfirst, map_some, bind_some]
    refine ⟨st, hrun, ?_, hend.trans (endPos_start ..), hle⟩
    rw [fieldBits, restBits, if_neg hlead, if_neg hlead, hdrop, append_nil, ← append_assoc]
    exact hpacked

theorem length_fieldBits (hholds : Holds bits leadingPadBits order) :
    (fieldBits bits leadingPadBits order).length = bits := by
  unfold fieldBits
  split
  next hlead =>
    have hlen := hholds.trailing hlead
    rw [length_take, length_bytesBits]
    omega
  next hlead =>
    obtain ⟨hlen, hpos⟩ := hholds.leading hlead
    split
    next hnil =>
      have hle := drop_eq_nil_iff.mp hnil
      omega
    next byte rest hdrop =>
      have hlength := congrArg List.length hdrop
      rw [length_drop, length_cons] at hlength
      rw [length_append, length_take, length_lowBits, length_bytesBits]
      omega

/-- The part of the rest that falls in the last octet of the buffer. -/
def spilled (endPos : Nat) (rest : List Bool) : List Bool :=
  if endPos % 8 = 0 then [] else rest.take (8 - endPos % 8)

/-- What packing leaves in the buffer: the bits before the field, those of the field, and those
behind it with the rest of the last byte ORed on them. -/
theorem packImage_eq (horder : ∀ i (hi : i < order.length), image.byteAt i = some order[i])
    (hholds : Holds bits leadingPadBits order) (hoffset : offset < 8)
    (hdst : offset + bits ≤ 8 * dst.length) :
    ∃ dst', packImage bits leadingPadBits image dst offset = some dst' ∧
      bytesBits dst' = (bytesBits dst).take offset ++ fieldBits bits leadingPadBits order
        ++ orBits (spilled (offset + bits) (restBits bits leadingPadBits order))
          ((bytesBits dst).drop (offset + bits)) := by
  obtain ⟨shiftRegister, hpre, hpacked⟩ :=
    preload_eq hoffset (by omega : offset ≤ 8 * dst.length) (offset + bits)
  obtain ⟨st, hloads, hst, hend, hle⟩ := loads_eq horder hholds hoffset hpacked
  obtain ⟨hout, hend', hle', hlt⟩ := outputAll_eq hst hle
  obtain ⟨dst', hfinish, hbits⟩ := finish_eq hout hle' hlt (by rw [hend', hend]; exact hdst)
  refine ⟨dst', ?_, ?_⟩
  · rw [packImage, hpre, bind_some, ← bind_assoc, hloads, bind_some, hfinish]
  · have hbefore : ((bytesBits dst).take offset).length = offset := by
      rw [length_take, length_bytesBits]
      omega
    have hfield := length_fieldBits hholds
    have hsum : ((bytesBits dst).take offset ++ fieldBits bits leadingPadBits order).length
        = offset + bits := by rw [length_append, hbefore, hfield]
    rw [hbits, hend', hend, ← append_assoc, take_left' hsum, spill, drop_left' hsum]
    rfl

end

end CfsEds.Edslib.Pack
