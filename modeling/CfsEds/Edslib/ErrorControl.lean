import CfsEds.Lib.Loop
import Mathlib.Algebra.Ring.Nat
import Mathlib.Logic.Function.Iterate

/-!
# Error control algorithms

`edslib_datatypedb_errorcontrol.c`: the lookup tables built by
`EdsLib_ErrorControl_Initialize`, the five algorithms behind the dispatch table
and `EdsLib_ErrorControlCompute`.

A buffer is the byte memory seen from its base pointer, so a read past the end
of an object is still a read of some byte. Bit positions are the C code's
`uint32_t`: naturals kept below `2 ^ 32` by `u32` at every place where the C
arithmetic can wrap. The bit loops are `while` loops on wrapping counters and
need not end (a size within one byte of `2 ^ 32` makes the counter wrap before
it reaches the end), so they run on fuel. `none` is also the outcome of the one
undefined shift, `UINT32_C(1) << 32` in the word checksum.

The two CRC loops are the same code with another table lookup, polynomial and
field width; `crcBody` is that code and `crc16Ccitt`, `crc8` its two members.
-/

namespace CfsEds.Edslib

open CfsEds.Lib.Loop

/-- Bytes reached from a base pointer. -/
abbrev Buffer := Nat → BitVec 8

/-- Reduction to `uint32_t`. -/
def u32 (x : Nat) : Nat := x % 2 ^ 32

/-- `EDSLIB_CRC16_CCITT_POLY` -/
def crc16CcittPoly : BitVec 16 := 0x1021

/-- `EDSLIB_CRC8_POLY` -/
def crc8Poly : BitVec 8 := 0x07

/-! ## Lookup tables -/

/-- The shift register of the table construction: `<<= 1`, then the polynomial
when the bit just above the register is set. -/
def tableClock (top poly r : BitVec 32) : BitVec 32 :=
  let r := r <<< 1
  if r &&& top ≠ 0 then r ^^^ poly else r

/-- The bit loop that sets `0x80 >> bit` for every set bit of the low octet. -/
def reflectOctet (r : BitVec 32) : BitVec 32 :=
  (List.range 8).foldl
    (fun acc bit => if r &&& (1#32 <<< bit) ≠ 0 then acc ||| (0x80#32 >>> bit) else acc) 0

/-- `EDSLIB_CRC16_CCITT_TABLE` -/
def crc16CcittTable (i : BitVec 8) : BitVec 16 :=
  ((tableClock 0x10000 0x1021)^[8] (i.setWidth 32 <<< 8)).setWidth 16

/-- `EDSLIB_CRC8_TABLE`: the index enters and the entry leaves bit-reversed. -/
def crc8Table (i : BitVec 8) : BitVec 8 :=
  (reflectOctet ((tableClock 0x100 0x07)^[8] (reflectOctet (i.setWidth 32)))).setWidth 8

/-! ## CRC loops -/

/-- What differs between the two CRC functions. -/
structure CrcAlgorithm (w : Nat) where
  /-- `crc` before the first byte -/
  init : BitVec w
  /-- the table-driven update of a whole byte -/
  update : BitVec w → BitVec 8 → BitVec w
  poly : BitVec w
  /-- width of the error control field that is stepped over -/
  fieldBits : Nat

/-- Local variables of a CRC function at the head of its outer loop. -/
structure CrcState (w : Nat) where
  crc : BitVec w
  currBitPos : Nat
  breakpointBitPos : Nat
  currShift : Nat
  deriving DecidableEq

/-- The inner loop `while (CurrBitPos < NextBitPos)`, `n` bits of it. -/
def crcBits {w : Nat} (poly : BitVec w) : Nat → BitVec 8 → BitVec w → BitVec w
  | 0, _, crc => crc
  | n + 1, byte, crc =>
    crcBits poly n (byte <<< 1) (if byte &&& 0x80 ≠ 0 then crc ^^^ poly else crc)

/-- One iteration of the outer loop. -/
def crcBody {w : Nat} (alg : CrcAlgorithm w) (buf : Buffer) (totalBitSize errCtlBitPos : Nat)
    (s : CrcState w) : CrcState w :=
  let byte := buf (s.currBitPos >>> 3)
  let next := u32 (s.currBitPos + 8)
  if s.currShift = 0 ∧ next ≤ s.breakpointBitPos then
    { s with crc := alg.update s.crc byte, currBitPos := next }
  else
    let byte := byte <<< s.currShift
    let next := u32 (next + 2 ^ 32 - s.currShift)
    let next := if next > s.breakpointBitPos then s.breakpointBitPos else next
    let crc := crcBits alg.poly (next - s.currBitPos) byte s.crc
    -- the inner loop leaves CurrBitPos at NextBitPos, unless it did not run at all
    let curr := if s.currBitPos < next then next else s.currBitPos
    let next := if curr = errCtlBitPos then u32 (curr + alg.fieldBits) else next
    { crc := crc
      currBitPos := next
      breakpointBitPos := totalBitSize
      currShift := (2 ^ 32 - next) &&& 0x7 }

/-- The condition of the outer loop. -/
def crcCond {w : Nat} (totalBitSize : Nat) (s : CrcState w) : Bool :=
  decide (s.currBitPos < totalBitSize)

/-- The variables before the outer loop. -/
def crcStart {w : Nat} (alg : CrcAlgorithm w) (totalBitSize errCtlBitPos : Nat) : CrcState w where
  crc := alg.init
  currBitPos := 0
  breakpointBitPos := if errCtlBitPos < totalBitSize then errCtlBitPos else totalBitSize
  currShift := 0

/-- A CRC function: the `uintmax_t` it returns. -/
def crcRun {w : Nat} (alg : CrcAlgorithm w) (fuel : Nat) (buf : Buffer)
    (totalBitSize errCtlBitPos : Nat) : Option (BitVec 64) :=
  (whileFuel (crcCond totalBitSize) (crcBody alg buf totalBitSize errCtlBitPos) fuel
    (crcStart alg totalBitSize errCtlBitPos)).map fun s => s.crc.setWidth 64

/-- The parameters of `EdsLib_ErrorControlAlgorithm_CRC16_CCITT`. -/
def crc16Ccitt : CrcAlgorithm 16 where
  init := 0xFFFF
  update crc byte := crc16CcittTable (byte ^^^ (crc >>> 8).setWidth 8) ^^^ (crc <<< 8)
  poly := crc16CcittPoly
  fieldBits := 16

/-- The parameters of `EdsLib_ErrorControlAlgorithm_CRC8`. -/
def crc8 : CrcAlgorithm 8 where
  init := 0
  update crc byte := crc8Table (crc ^^^ byte)
  poly := crc8Poly
  fieldBits := 8

/-- `EdsLib_ErrorControlAlgorithm_CRC16_CCITT` -/
def errorControlAlgorithmCrc16Ccitt (fuel : Nat) (buf : Buffer)
    (totalBitSize errCtlBitPos : Nat) : Option (BitVec 64) :=
  crcRun crc16Ccitt fuel buf totalBitSize errCtlBitPos

/-- `EdsLib_ErrorControlAlgorithm_CRC8` -/
def errorControlAlgorithmCrc8 (fuel : Nat) (buf : Buffer)
    (totalBitSize errCtlBitPos : Nat) : Option (BitVec 64) :=
  crcRun crc8 fuel buf totalBitSize errCtlBitPos

/-! ## Checksums -/

/-- `EdsLib_ErrorControlAlgorithm_ZERO` -/
def errorControlAlgorithmZero : BitVec 64 := 0

/-- The byte loop of the longitudinal checksum from byte `currByte`, `n` bytes of it. -/
def checksumLongitudinalLoop (buf : Buffer) (errCtlBitPos : Nat) :
    Nat → Nat → BitVec 8 → BitVec 8 → BitVec 8
  | 0, _, _, checksum => checksum
  | n + 1, currByte, nextMask, checksum =>
    if currByte = errCtlBitPos >>> 3 then
      let nextMask := ((0x100#16 >>> (errCtlBitPos &&& 0x07)) - 1).setWidth 8
      checksumLongitudinalLoop buf errCtlBitPos n (currByte + 1) nextMask
        (checksum ^^^ (buf currByte &&& ~~~nextMask))
    else
      checksumLongitudinalLoop buf errCtlBitPos n (currByte + 1) 0xFF
        (checksum ^^^ (buf currByte &&& nextMask))

/-- `EdsLib_ErrorControlAlgorithm_CHECKSUM_LONGITUDINAL` -/
def errorControlAlgorithmChecksumLongitudinal (buf : Buffer)
    (totalBitSize errCtlBitPos : Nat) : BitVec 64 :=
  let totalByte := u32 (totalBitSize + 7) >>> 3
  (checksumLongitudinalLoop buf errCtlBitPos totalByte 0 0xFF 0xFF).setWidth 64

/-- Local variables of the word checksum; `undefined` records that the shift by
32 was evaluated. -/
structure ChecksumState where
  sum : BitVec 64
  nextMask : BitVec 32
  offset : Nat
  intermediate : BitVec 32
  srcPtr : Nat
  undefined : Bool
  deriving DecidableEq

/-- One iteration of the `for` loop of the word checksum. -/
def checksumBody (buf : Buffer) (errCtlBitPos : Nat) (s : ChecksumState) : ChecksumState :=
  let intermediate := (s.intermediate <<< 8) ||| (buf s.srcPtr).setWidth 32
  let s := { s with intermediate := intermediate, srcPtr := s.srcPtr + 1 }
  let s :=
    if s.offset &&& 0x18 = 0x18 then
      if s.offset >>> 5 = errCtlBitPos >>> 5 then
        let nextMask := (1#32 <<< (32 - (errCtlBitPos &&& 0x1F))) - 1
        let intermediate := intermediate &&& ~~~nextMask
        { s with nextMask := nextMask, intermediate := intermediate,
                 sum := s.sum + intermediate.setWidth 64,
                 undefined := s.undefined || decide (errCtlBitPos &&& 0x1F = 0) }
      else
        let intermediate := intermediate &&& s.nextMask
        { s with nextMask := 0xFFFFFFFF, intermediate := intermediate,
                 sum := s.sum + intermediate.setWidth 64 }
    else s
  { s with offset := u32 (s.offset + 8) }

/-- The last, incomplete word. -/
def checksumTail (s : ChecksumState) : BitVec 64 :=
  if s.offset &&& 0x1F ≠ 0 then
    let intermediate := s.intermediate <<< (32 - (s.offset &&& 0x1F))
    let intermediate := intermediate &&& s.nextMask
    s.sum + intermediate.setWidth 64
  else s.sum

/-- The variables before the `for` loop of the word checksum. -/
def checksumStart : ChecksumState where
  sum := 0
  nextMask := 0xFFFFFFFF
  offset := 0
  intermediate := 0
  srcPtr := 0
  undefined := false

/-- `EdsLib_ErrorControlAlgorithm_CHECKSUM` -/
def errorControlAlgorithmChecksum (fuel : Nat) (buf : Buffer)
    (totalBitSize errCtlBitPos : Nat) : Option (BitVec 64) :=
  match whileFuel (fun s => decide (s.offset < totalBitSize)) (checksumBody buf errCtlBitPos)
      fuel checksumStart with
  | none => none
  | some s => if s.undefined then none else some (checksumTail s)

/-! ## Dispatch -/

/-- `EdsLib_ErrorControlType_t` -/
inductive ErrorControlType where
  | invalid
  | checksum
  | checksumLongitudinal
  | crc8
  | crc16Ccitt
  | crc32
  deriving DecidableEq, Repr

/-- `EdsLib_ErrorControlCompute`, through `EDSLIB_ERRCTL_DISPATCH`. -/
def errorControlCompute (algorithm : ErrorControlType) (fuel : Nat) (buf : Buffer)
    (totalBitSize errCtlBitPos : Nat) : Option (BitVec 64) :=
  match algorithm with
  | .invalid => some errorControlAlgorithmZero
  | .checksum => errorControlAlgorithmChecksum fuel buf totalBitSize errCtlBitPos
  | .checksumLongitudinal =>
    some (errorControlAlgorithmChecksumLongitudinal buf totalBitSize errCtlBitPos)
  | .crc8 => errorControlAlgorithmCrc8 fuel buf totalBitSize errCtlBitPos
  | .crc16Ccitt => errorControlAlgorithmCrc16Ccitt fuel buf totalBitSize errCtlBitPos
  | .crc32 => some errorControlAlgorithmZero -- placeholder entry of the dispatch table

/-- The call returns `v`: some amount of fuel is enough. -/
def ErrorControlReturns (algorithm : ErrorControlType) (buf : Buffer)
    (totalBitSize errCtlBitPos : Nat) (v : BitVec 64) : Prop :=
  ∃ fuel, errorControlCompute algorithm fuel buf totalBitSize errCtlBitPos = some v

/-! ## The loops as `Yields` -/

section Yields

variable {w : Nat} {alg : CrcAlgorithm w} {buf : Buffer} {totalBitSize errCtlBitPos : Nat}

/-- A CRC function returns the register with which its outer loop ends. -/
theorem crcRun_eq_some_iff {v : BitVec 64} :
    (∃ fuel, crcRun alg fuel buf totalBitSize errCtlBitPos = some v) ↔
      ∃ t, Yields (crcCond totalBitSize) (crcBody alg buf totalBitSize errCtlBitPos)
        (crcStart alg totalBitSize errCtlBitPos) t ∧ t.crc.setWidth 64 = v := by
  constructor
  · rintro ⟨fuel, h⟩
    obtain ⟨t, ht, hv⟩ := Option.map_eq_some_iff.1 h
    exact ⟨t, ⟨fuel, ht⟩, hv⟩
  · rintro ⟨t, ⟨fuel, ht⟩, hv⟩
    exact ⟨fuel, Option.map_eq_some_iff.2 ⟨t, ht, hv⟩⟩

theorem crcCond_eq_true {s : CrcState w} :
    crcCond totalBitSize s = true ↔ s.currBitPos < totalBitSize := by
  simp [crcCond]

theorem crcCond_eq_false {s : CrcState w} :
    crcCond totalBitSize s = false ↔ totalBitSize ≤ s.currBitPos := by
  simp [crcCond]

/-- The table branch: a whole byte up to the breakpoint. -/
theorem crcBody_table {s : CrcState w} (hshift : s.currShift = 0)
    (hnext : u32 (s.currBitPos + 8) ≤ s.breakpointBitPos) :
    crcBody alg buf totalBitSize errCtlBitPos s =
      { s with crc := alg.update s.crc (buf (s.currBitPos / 8)),
               currBitPos := u32 (s.currBitPos + 8) } := by
  simp [crcBody, hshift, hnext, Nat.shiftRight_eq_div_pow]

theorem u32_of_lt {x : Nat} (h : x < 2 ^ 32) : u32 x = x := Nat.mod_eq_of_lt h

end Yields

end CfsEds.Edslib
