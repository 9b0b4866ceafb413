import CfsEds.Lib.ByteOrder
import CfsEds.Lib.Decimal
import Mathlib.Data.Nat.Log

/-!
# Scalars and their encodings

A scalar of a data sheet has a width in bits, an encoding, a byte order and maybe inverted
bits; in memory it is a number of bytes of the machine. `EdsLib_Internal_GetPackStyle` decides
how the one is made from the other: whether the value is first converted to an intermediate
one (`EdsLib_Internal_DoSignedIntPack`), by how many bits it is shifted to the left, and in which
direction its bytes are read.

Mirroring notes:
* The machine is little or big endian; `EDSLIB_LITTLE_ENDIAN_STRIDE` and
  `EDSLIB_BIG_ENDIAN_STRIDE` are computed from that.
* A buffer of memory is the list of its bytes. What a conversion returns as the size of its
  result is the length of the list.
* Integers are natural numbers modulo 2⁶⁴, or integers where they are signed.
* `TrailingPadBits` is set but never read, and left out.
* The conversions of floating point numbers are functions that are given.
-/

namespace CfsEds.Edslib.Pack

open Lib.Bits Lib.ByteOrder Lib.Decimal

abbrev Byte := BitVec 8

/-- `EdsLib_BasicType_t`, without the types that have sub-elements. -/
inductive BasicType where
  | signedInt
  | unsignedInt
  | float
  | binary
  deriving DecidableEq, Repr

/-- `EdsLib_NumberEncoding_Enum_t`. -/
inductive NumberEncoding where
  | undefined
  | unsignedInteger
  | signMagnitude
  | onesComplement
  | twosComplement
  | bcdOctet
  | bcdPacked
  | ieee754
  | milstd1750a
  deriving DecidableEq, Repr

/-- `EdsLib_NumberByteOrder_Enum_t`. -/
inductive NumberByteOrder where
  | undefined
  | bigEndian
  | littleEndian
  deriving DecidableEq, Repr

/-- The entry of a scalar in the database: `SizeInfo` and `Detail.Number`. -/
structure Field where
  basicType : BasicType
  bits : Nat
  bytes : Nat
  encoding : NumberEncoding
  byteOrder : NumberByteOrder
  bitInvert : Bool
  deriving DecidableEq, Repr

/-- `EdsLib_Internal_PackStyleInfo_t`. -/
structure PackStyle where
  byteOrder : NumberByteOrder
  /-- The type and the size of the intermediate value, if there is one. -/
  intermediate : Option (BasicType × Nat)
  memStride : Int
  leadingPadBits : Nat
  intermediateShift : Nat
  invert : Bool
  deriving DecidableEq, Repr

/-! ## The style -/

/-- `EDSLIB_VALUEBUFFER_MAX_BINARY_SIZE` -/
def maxBinarySize : Nat := 32

/-- The intermediate value of a type; the outer `none` is an encoding that is not valid. -/
def intermediateOf (f : Field) : Option (Option (BasicType × Nat)) :=
  match f.basicType with
  | .signedInt =>
    match f.encoding with
    | .bcdOctet | .bcdPacked =>
      let size := (f.bits + 7) / 8
      if maxBinarySize < size then none else some (some (.binary, size))
    | .twosComplement | .undefined => some none
    | _ => some (some (.unsignedInt, 8))
  | .float =>
    match f.encoding with
    | .milstd1750a =>
      if f.bits = 32 then some (some (.unsignedInt, 4))
      else if f.bits = 48 then some (some (.unsignedInt, 8))
      else none
    | .ieee754 | .undefined =>
      if f.bits = 128 then some (some (.binary, 16))
      else if f.bits ≠ 8 * f.bytes then
        if f.bits = 64 then some (some (.unsignedInt, 8))
        else if f.bits = 32 then some (some (.unsignedInt, 4))
        else none
      else some none
    | _ => none
  | .unsignedInt | .binary => some none

/-- The stride with which a number is read from its first byte in an order. -/
def strideFor (native order : Endian) : Int := if native = order then 1 else -1

/-- The type and the size that the bits are taken from. -/
def refOf (f : Field) : Option (BasicType × Nat) → BasicType × Nat
  | some ref => ref
  | none => (f.basicType, f.bytes)

/-- `EdsLib_Internal_GetPackStyle`. -/
def getPackStyle (native : Endian) (f : Field) : Option PackStyle :=
  match intermediateOf f with
  | none => none
  | some intermediate =>
    let ref := refOf f intermediate
    if ref.2 * 8 < f.bits then none
    else
      let padBits := ref.2 * 8 - f.bits
      -- only numbers have an order and inverted bits
      let invert := if f.basicType = .binary then false else f.bitInvert
      let byteOrder := if f.basicType = .binary then .undefined else f.byteOrder
      let little := byteOrder = .littleEndian
      some
        { byteOrder
          intermediate
          memStride :=
            if ref.1 = .binary then (if little then -1 else 1)
            else strideFor native (if little then .little else .big)
          -- pad bits at the leading edge
          leadingPadBits := if little then padBits else 0
          -- a number is shifted, so that its pad bits are its low ones
          intermediateShift := if ref.1 = .binary then 0 else padBits
          invert }

/-! ## Integers in memory -/

/-- The sizes of the integers of the machine. -/
def IsIntSize (n : Nat) : Prop := n = 1 ∨ n = 2 ∨ n = 4 ∨ n = 8

instance (n : Nat) : Decidable (IsIntSize n) :=
  inferInstanceAs (Decidable (n = 1 ∨ n = 2 ∨ n = 4 ∨ n = 8))

/-- The conversion to an unsigned integer of 64 bits. -/
def uint64 (v : Int) : Nat := (v % 2 ^ 64).toNat

/-- The signed integer in some bytes of memory. -/
def loadSigned (native : Endian) (src : List Byte) : Int :=
  if IsIntSize src.length then Int.bmod (nativeValue native src) (256 ^ src.length) else 0

/-! ## Decimal digits -/

/-- `snprintf` with `%0*lld` to a buffer of `maxBinarySize` characters. -/
def printZeroPadded (width : Nat) (v : Int) : List Byte :=
  let digits := Nat.log 10 v.natAbs + 1
  (if v < 0 then 0x2D#8 :: decimal (max (width - 1) digits) v.natAbs
    else decimal (max width digits) v.natAbs).take (maxBinarySize - 1)

def isDigit (c : Byte) : Bool := 0x30#8 ≤ c && c ≤ 0x39#8

/-- One octet for each character; a sign stays as it is. -/
def bcdOctets (text : List Byte) : List Byte :=
  text.map fun c => if isDigit c then c - 0x30#8 else c

/-- The value of a digit, and zero for anything else. -/
def nibble (c : Byte) : Byte := if isDigit c then c - 0x30#8 else 0

/-- Two characters for each octet. Behind the text is its terminator. -/
def bcdPairs : List Byte → List Byte
  | [] => []
  | [c] => [nibble c <<< 4 ||| nibble 0]
  | c :: c' :: text => (nibble c <<< 4 ||| nibble c') :: bcdPairs text

/-! ## Signed integers -/

/-- `EdsLib_Internal_DoSignedIntPack`. -/
def signedIntPack (native : Endian) (src : List Byte) (encoding : NumberEncoding)
    (encodingBits : Nat) : List Byte :=
  let v := loadSigned native src
  match encoding with
  | .signMagnitude =>
    nativeBytes native 8
      (if v < 0 then uint64 (-v) ||| 1 <<< (encodingBits - 1) else uint64 v)
  | .onesComplement =>
    nativeBytes native 8 (if v < 0 then 2 ^ 64 - 1 - uint64 (-v) else uint64 v)
  | .bcdOctet => bcdOctets (printZeroPadded (encodingBits / 8) v)
  | .bcdPacked => bcdPairs (printZeroPadded (encodingBits / 4) v)
  | .twosComplement | .undefined => nativeBytes native 8 (uint64 v)
  | _ => []

end CfsEds.Edslib.Pack
