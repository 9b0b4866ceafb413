import CfsEds.Lib.Crc
import CfsEds.Lib.Memory
import Mathlib.Tactic.IntervalCases

/-!
# The CRC of memory

`CFE_ES_CalculateCRC` computes CRC-16/ARC with a table of 256 entries: the polynomial is
`0x8005`, in a register that shifts towards its low bit `0xA001`. `serialCrc` is that
register, bit by bit.

The register is an `int16`, so the function computes with sign extended values, and the result
is one: `return (Crc)` makes a `uint32` of it, and from `0x8000` on its upper half is ones. The
index of the loop is a `uint32` and the length a `size_t`, so the loop goes on past the end of
a block of `2 ^ 32` bytes or more.
-/

namespace CfsEds.Es

open CfsEds.Lib.Crc CfsEds.Lib.Memory List BitVec

/-! ## The function -/

/-- `CrcTable` -/
def crcTable : Array (BitVec 16) :=
  #[0x0000, 0xC0C1, 0xC181, 0x0140, 0xC301, 0x03C0, 0x0280, 0xC241, 0xC601, 0x06C0, 0x0780, 0xC741,
    0x0500, 0xC5C1, 0xC481, 0x0440, 0xCC01, 0x0CC0, 0x0D80, 0xCD41, 0x0F00, 0xCFC1, 0xCE81, 0x0E40,
    0x0A00, 0xCAC1, 0xCB81, 0x0B40, 0xC901, 0x09C0, 0x0880, 0xC841, 0xD801, 0x18C0, 0x1980, 0xD941,
    0x1B00, 0xDBC1, 0xDA81, 0x1A40, 0x1E00, 0xDEC1, 0xDF81, 0x1F40, 0xDD01, 0x1DC0, 0x1C80, 0xDC41,
    0x1400, 0xD4C1, 0xD581, 0x1540, 0xD701, 0x17C0, 0x1680, 0xD641, 0xD201, 0x12C0, 0x1380, 0xD341,
    0x1100, 0xD1C1, 0xD081, 0x1040, 0xF001, 0x30C0, 0x3180, 0xF141, 0x3300, 0xF3C1, 0xF281, 0x3240,
    0x3600, 0xF6C1, 0xF781, 0x3740, 0xF501, 0x35C0, 0x3480, 0xF441, 0x3C00, 0xFCC1, 0xFD81, 0x3D40,
    0xFF01, 0x3FC0, 0x3E80, 0xFE41, 0xFA01, 0x3AC0, 0x3B80, 0xFB41, 0x3900, 0xF9C1, 0xF881, 0x3840,
    0x2800, 0xE8C1, 0xE981, 0x2940, 0xEB01, 0x2BC0, 0x2A80, 0xEA41, 0xEE01, 0x2EC0, 0x2F80, 0xEF41,
    0x2D00, 0xEDC1, 0xEC81, 0x2C40, 0xE401, 0x24C0, 0x2580, 0xE541, 0x2700, 0xE7C1, 0xE681, 0x2640,
    0x2200, 0xE2C1, 0xE381, 0x2340, 0xE101, 0x21C0, 0x2080, 0xE041, 0xA001, 0x60C0, 0x6180, 0xA141,
    0x6300, 0xA3C1, 0xA281, 0x6240, 0x6600, 0xA6C1, 0xA781, 0x6740, 0xA501, 0x65C0, 0x6480, 0xA441,
    0x6C00, 0xACC1, 0xAD81, 0x6D40, 0xAF01, 0x6FC0, 0x6E80, 0xAE41, 0xAA01, 0x6AC0, 0x6B80, 0xAB41,
    0x6900, 0xA9C1, 0xA881, 0x6840, 0x7800, 0xB8C1, 0xB981, 0x7940, 0xBB01, 0x7BC0, 0x7A80, 0xBA41,
    0xBE01, 0x7EC0, 0x7F80, 0xBF41, 0x7D00, 0xBDC1, 0xBC81, 0x7C40, 0xB401, 0x74C0, 0x7580, 0xB541,
    0x7700, 0xB7C1, 0xB681, 0x7640, 0x7200, 0xB2C1, 0xB381, 0x7340, 0xB101, 0x71C0, 0x7080, 0xB041,
    0x5000, 0x90C1, 0x9181, 0x5140, 0x9301, 0x53C0, 0x5280, 0x9241, 0x9601, 0x56C0, 0x5780, 0x9741,
    0x5500, 0x95C1, 0x9481, 0x5440, 0x9C01, 0x5CC0, 0x5D80, 0x9D41, 0x5F00, 0x9FC1, 0x9E81, 0x5E40,
    0x5A00, 0x9AC1, 0x9B81, 0x5B40, 0x9901, 0x59C0, 0x5880, 0x9841, 0x8801, 0x48C0, 0x4980, 0x8941,
    0x4B00, 0x8BC1, 0x8A81, 0x4A40, 0x4E00, 0x8EC1, 0x8F81, 0x4F40, 0x8D01, 0x4DC0, 0x4C80, 0x8C41,
    0x4400, 0x84C1, 0x8581, 0x4540, 0x8701, 0x47C0, 0x4680, 0x8641, 0x8201, 0x42C0, 0x4380, 0x8341,
    0x4100, 0x81C1, 0x8081, 0x4040]

/-- `CFE_MISSION_ES_CRC_16` -/
def missionEsCrc16 : BitVec 32 := 2

/-- A pass of the loop. `Crc` is an `int16`, and is promoted to `int` with its sign. -/
def crcUpdate (crc : BitVec 16) (byteValue : BitVec 8) : BitVec 16 :=
  let index := ((crc.signExtend 32 ^^^ byteValue.setWidth 32) &&& 0x00FF).setWidth 16
  let entry := crcTable.getD index.toNat 0
  ((((crc.signExtend 32).sshiftRight 8) &&& 0x00FF) ^^^ entry.setWidth 32).setWidth 16

/-- The loop, on the bytes from `BufPtr` on; `none` when it reads behind the block. -/
def crcLoop (dataLength : Nat) : List (BitVec 8) → Nat → BitVec 16 → Option (BitVec 16)
  | [], i, crc => if i < dataLength then none else some crc
  | byteValue :: rest, i, crc =>
    if i < dataLength then crcLoop dataLength rest (uint32 (i + 1)) (crcUpdate crc byteValue)
    else some crc

/-- `CFE_ES_CalculateCRC`. The other types of CRC are not implemented, and give zero. -/
def calculateCRC (data : List (BitVec 8)) (inputCRC typeCRC : BitVec 32) : Option (BitVec 32) :=
  if data.length = 0 then some inputCRC
  else if typeCRC = missionEsCrc16 then
    (crcLoop data.length data 0 ((0xFFFF &&& inputCRC).setWidth 16)).map fun crc =>
      crc.signExtend 32
  else some 0

/-! ## The serial register -/

/-- The bits of a byte in the order they enter, the low bit first. -/
def octetBitsLow (b : BitVec 8) : List Bool := (List.range 8).map b.getLsbD

/-- The bit-serial CRC of a byte string. -/
def serialCrc (seed : BitVec 16) (data : List (BitVec 8)) : BitVec 16 :=
  reflectedFeed 0xA001 seed (data.flatMap octetBitsLow)

/-- Eight clocks of a byte: the table lists them, a byte that is fed in gives the same as one that
stands in the register, and one in the high half only moves down. -/
private theorem reflectedFeed_octet : ∀ b : BitVec 8,
    crcTable.getD b.toNat 0 = reflectedFeed 0xA001 (b.setWidth 16) (List.replicate 8 false) ∧
      reflectedFeed 0xA001 0#16 (octetBitsLow b) =
        reflectedFeed 0xA001 (b.setWidth 16) (List.replicate 8 false) ∧
      reflectedFeed 0xA001 (b.setWidth 16 <<< 8) (List.replicate 8 false) = b.setWidth 16 := by
  decide +kernel

theorem and_octet (x : BitVec 32) : x &&& 0x00FF = (x.setWidth 8).setWidth 32 := by
  apply eq_of_toNat_eq
  have hmask : (0x00FF : BitVec 32).toNat = 2 ^ 8 - 1 := rfl
  rw [BitVec.toNat_and, hmask, Nat.and_two_pow_sub_one_eq_mod, BitVec.toNat_setWidth,
    BitVec.toNat_setWidth]
  omega

/-- The low byte of a promoted value is that of the value. -/
theorem signExtend_low (crc : BitVec 16) : (crc.signExtend 32).setWidth 8 = crc.setWidth 8 := by
  ext i hi
  rw [getElem_setWidth, getElem_setWidth, getLsbD_signExtend]
  simp [show i < 16 by omega, show i < 32 by omega]

/-- The shift brings in copies of the sign, which the mask takes away. -/
theorem signExtend_high (crc : BitVec 16) :
    (((crc.signExtend 32).sshiftRight 8).setWidth 8).setWidth 16 = crc >>> 8 := by
  ext i hi
  grind

/-- Of the promoted values only the low 16 bits matter. -/
theorem crcUpdate_eq (crc : BitVec 16) (b : BitVec 8) :
    crcUpdate crc b = (crc >>> 8) ^^^ crcTable.getD (crc.setWidth 8 ^^^ b).toNat 0 := by
  have hindex : (((crc.signExtend 32 ^^^ b.setWidth 32) &&& 0x00FF).setWidth 16).toNat =
      (crc.setWidth 8 ^^^ b).toNat := by
    rw [and_octet, setWidth_xor, signExtend_low, BitVec.toNat_setWidth,
      BitVec.toNat_setWidth, setWidth_setWidth_of_le _ (by decide), setWidth_eq]
    omega
  have hshift : ((((crc.signExtend 32).sshiftRight 8).setWidth 8).setWidth 32).setWidth 16 =
      crc >>> 8 := by
    rw [← signExtend_high, setWidth_setWidth_of_le _ (by decide : 16 ≤ 32)]
  unfold crcUpdate
  dsimp only
  rw [hindex, and_octet, setWidth_xor, hshift,
    setWidth_setWidth_of_le _ (by decide : 16 ≤ 32), setWidth_eq]

/-- A pass of the loop feeds one byte to the serial register. -/
theorem crcUpdate_feeds (crc : BitVec 16) (b : BitVec 8) :
    crcUpdate crc b = reflectedFeed 0xA001 crc (octetBitsLow b) := by
  have hlength : (octetBitsLow b).length = 8 := by simp [octetBitsLow]
  have hsplit : crc = (crc.setWidth 8).setWidth 16 ^^^ ((crc >>> 8).setWidth 8).setWidth 16 <<< 8 := by
    ext i hi
    simp
    grind
  have hhigh : ((crc >>> 8).setWidth 8).setWidth 16 = crc >>> 8 := by
    ext i hi
    simp
    grind
  -- what the register holds is shifted out, its high byte becomes the low one
  have hshifts : reflectedFeed 0xA001 crc (List.replicate 8 false) =
      reflectedFeed 0xA001 ((crc.setWidth 8).setWidth 16) (List.replicate 8 false) ^^^ (crc >>> 8) := by
    have h := congrArg (reflectedFeed 0xA001 · (List.replicate 8 false)) hsplit
    rwa [reflectedFeed_xor, length_replicate, (reflectedFeed_octet _).2.2, hhigh] at h
  have htable : crcTable.getD (crc.setWidth 8 ^^^ b).toNat 0 =
      reflectedFeed 0xA001 ((crc.setWidth 8).setWidth 16) (List.replicate 8 false) ^^^
        reflectedFeed 0xA001 (b.setWidth 16) (List.replicate 8 false) := by
    rw [(reflectedFeed_octet _).1, setWidth_xor, reflectedFeed_xor, length_replicate]
  have hfeed : reflectedFeed 0xA001 crc (octetBitsLow b) =
      reflectedFeed 0xA001 (b.setWidth 16) (List.replicate 8 false) ^^^
        reflectedFeed 0xA001 crc (List.replicate 8 false) := by
    have h := reflectedFeed_xor 0xA001 (octetBitsLow b) 0#16 crc
    rwa [zero_xor, hlength, (reflectedFeed_octet _).2.1] at h
  calc crcUpdate crc b
      = (crc >>> 8) ^^^ (reflectedFeed 0xA001 ((crc.setWidth 8).setWidth 16)
          (List.replicate 8 false) ^^^
            reflectedFeed 0xA001 (b.setWidth 16) (List.replicate 8 false)) := by
        rw [crcUpdate_eq, htable]
    _ = reflectedFeed 0xA001 (b.setWidth 16) (List.replicate 8 false) ^^^
          (reflectedFeed 0xA001 ((crc.setWidth 8).setWidth 16) (List.replicate 8 false) ^^^
            (crc >>> 8)) := by
        ac_rfl
    _ = reflectedFeed 0xA001 crc (octetBitsLow b) := by
        rw [← hshifts, ← hfeed]

/-! ## The loop -/

theorem serialCrc_cons (seed : BitVec 16) (b : BitVec 8) (data : List (BitVec 8)) :
    serialCrc seed (b :: data) = serialCrc (crcUpdate seed b) data := by
  rw [serialCrc, flatMap_cons, reflectedFeed_append, ← crcUpdate_feeds, serialCrc]

/-- With an index that does not overflow, the loop ends with the last byte. -/
theorem crcLoop_ends {dataLength : Nat} (hlength : dataLength < 2 ^ 32) :
    ∀ (data : List (BitVec 8)) (i : Nat) (crc : BitVec 16), i + data.length = dataLength →
      crcLoop dataLength data i crc = some (serialCrc crc data) := by
  intro data
  induction data with
  | nil =>
    intro i crc hi
    rw [crcLoop, if_neg (by simpa using hi.ge)]
    rfl
  | cons b rest ih =>
    intro i crc hi
    rw [length_cons] at hi
    have hnext : uint32 (i + 1) = i + 1 := Nat.mod_eq_of_lt (by omega)
    rw [crcLoop, if_pos (by omega), hnext, ih (i + 1) _ (by omega), serialCrc_cons]

/-- Otherwise it never does, and reads behind the block. -/
theorem crcLoop_overruns {dataLength : Nat} (hlength : 2 ^ 32 ≤ dataLength) :
    ∀ (data : List (BitVec 8)) (i : Nat) (crc : BitVec 16), i < 2 ^ 32 →
      crcLoop dataLength data i crc = none := by
  intro data
  induction data with
  | nil =>
    intro i crc hi
    exact if_pos (by omega)
  | cons b rest ih =>
    intro i crc hi
    rw [crcLoop, if_pos (by omega)]
    exact ih _ _ (Nat.mod_lt _ (by decide))

/-- Of a seed the low half is used. -/
theorem and_seed (seed : BitVec 32) : (0xFFFF &&& seed).setWidth 16 = seed.setWidth 16 := by
  have hmask : (0xFFFF : BitVec 32).toNat = 2 ^ 16 - 1 := rfl
  apply eq_of_toNat_eq
  rw [BitVec.toNat_setWidth, BitVec.and_comm, BitVec.toNat_and, hmask,
    Nat.and_two_pow_sub_one_eq_mod, BitVec.toNat_setWidth]
  omega

/-- What the function returns for the implemented CRC. -/
theorem calculateCRC_eq {data : List (BitVec 8)} (hdata : data ≠ []) (seed : BitVec 32) :
    calculateCRC data seed missionEsCrc16 =
      if data.length < 2 ^ 32 then some ((serialCrc (seed.setWidth 16) data).signExtend 32)
      else none := by
  have hlength : data.length ≠ 0 := fun h => hdata (length_eq_zero_iff.mp h)
  rw [calculateCRC, if_neg hlength, if_pos rfl, and_seed]
  split
  · rename_i hshort
    rw [crcLoop_ends hshort data 0 _ (by omega)]
    rfl
  · rename_i hlong
    rw [crcLoop_overruns (by omega) data 0 _ (by decide)]
    rfl

/-- A value of 16 bits keeps its value in 32 bits if it is not negative. -/
theorem signExtend_eq_setWidth_iff (crc : BitVec 16) :
    crc.signExtend 32 = crc.setWidth 32 ↔ crc.toNat < 0x8000 := by
  rw [← toNat_inj, toNat_signExtend, BitVec.toNat_setWidth]
  have hmsb := msb_eq_decide crc
  rw [hmsb]
  by_cases hneg : 0x8000 ≤ crc.toNat
  · simp [hneg]
  · simp [hneg]
    omega

/-- The function returns the bit-serial CRC exactly for blocks of less than `2 ^ 32` bytes whose
CRC is below `0x8000`. -/
theorem calculateCRC_conforms_iff (data : List (BitVec 8)) (hdata : data ≠ []) (seed : BitVec 16) :
    calculateCRC data (seed.setWidth 32) missionEsCrc16 = some ((serialCrc seed data).setWidth 32) ↔
      data.length < 2 ^ 32 ∧ (serialCrc seed data).toNat < 0x8000 := by
  rw [calculateCRC_eq hdata, setWidth_setWidth_of_le _ (by decide : 16 ≤ 32),
    setWidth_eq, ← signExtend_eq_setWidth_iff]
  split
  · rename_i hshort
    rw [Option.some_inj]
    exact ⟨fun h => ⟨hshort, h⟩, fun h => h.2⟩
  · rename_i hlong
    exact ⟨nofun, fun h => absurd h.1 hlong⟩

/-- The CRC of the byte 3 is positive. -/
theorem calculateCRC_conforms_byte : [(0x03 : BitVec 8)] ≠ [] ∧
    calculateCRC [0x03] ((0 : BitVec 16).setWidth 32) missionEsCrc16 = some 0x00000140 := by
  refine ⟨nofun, ?_⟩
  have hcrc : serialCrc 0 [0x03] = 0x0140 := by decide
  have h := (calculateCRC_conforms_iff [0x03] nofun 0).mpr (by rw [hcrc]; decide)
  exact h

/-- The CRC of the byte 1 is `0xC0C1`. -/
theorem calculateCRC_sign_extends : serialCrc 0 [0x01] = 0xC0C1 ∧
    calculateCRC [0x01] 0 missionEsCrc16 = some 0xFFFFC0C1 := by
  decide +kernel

/-! ## Blocks in pieces -/

theorem serialCrc_append (seed : BitVec 16) (a b : List (BitVec 8)) :
    serialCrc seed (a ++ b) = serialCrc (serialCrc seed a) b := by
  simp only [serialCrc, flatMap_append, reflectedFeed_append]

/-- A CRC that is fed back as the seed is cut to its 16 bits. -/
theorem setWidth_signExtend (crc : BitVec 16) : (crc.signExtend 32).setWidth 16 = crc := by
  ext i hi
  rw [getElem_setWidth, getLsbD_signExtend]
  simp [hi, show i < 32 by omega]

/-- The CRC of a block continues with the rest of it. -/
theorem calculateCRC_append {a b : List (BitVec 8)} (hlength : a.length + b.length < 2 ^ 32)
    (seed : BitVec 32) :
    (calculateCRC a seed missionEsCrc16).bind (calculateCRC b · missionEsCrc16) =
      calculateCRC (a ++ b) seed missionEsCrc16 := by
  by_cases ha : a = []
  · subst ha
    rfl
  by_cases hb : b = []
  · subst hb
    rw [append_nil]
    cases calculateCRC a seed missionEsCrc16 <;> rfl
  have hab : a ++ b ≠ [] := fun h => ha (append_eq_nil_iff.mp h).1
  rw [calculateCRC_eq ha, if_pos (by omega), Option.bind_some, calculateCRC_eq hb,
    if_pos (by omega), setWidth_signExtend, calculateCRC_eq hab,
    if_pos (by rwa [length_append]), serialCrc_append]

/-! ## The table tool -/

/-- `CrcTable` of `cfe_ts_crc` -/
def toolCrcTable : Array (BitVec 16) :=
  #[0x0000, 0xC0C1, 0xC181, 0x0140, 0xC301, 0x03C0, 0x0280, 0xC241, 0xC601, 0x06C0, 0x0780, 0xC741,
    0x0500, 0xC5C1, 0xC481, 0x0440, 0xCC01, 0x0CC0, 0x0D80, 0xCD41, 0x0F00, 0xCFC1, 0xCE81, 0x0E40,
    0x0A00, 0xCAC1, 0xCB81, 0x0B40, 0xC901, 0x09C0, 0x0880, 0xC841, 0xD801, 0x18C0, 0x1980, 0xD941,
    0x1B00, 0xDBC1, 0xDA81, 0x1A40, 0x1E00, 0xDEC1, 0xDF81, 0x1F40, 0xDD01, 0x1DC0, 0x1C80, 0xDC41,
    0x1400, 0xD4C1, 0xD581, 0x1540, 0xD701, 0x17C0, 0x1680, 0xD641, 0xD201, 0x12C0, 0x1380, 0xD341,
    0x1100, 0xD1C1, 0xD081, 0x1040, 0xF001, 0x30C0, 0x3180, 0xF141, 0x3300, 0xF3C1, 0xF281, 0x3240,
    0x3600, 0xF6C1, 0xF781, 0x3740, 0xF501, 0x35C0, 0x3480, 0xF441, 0x3C00, 0xFCC1, 0xFD81, 0x3D40,
    0xFF01, 0x3FC0, 0x3E80, 0xFE41, 0xFA01, 0x3AC0, 0x3B80, 0xFB41, 0x3900, 0xF9C1, 0xF881, 0x3840,
    0x2800, 0xE8C1, 0xE981, 0x2940, 0xEB01, 0x2BC0, 0x2A80, 0xEA41, 0xEE01, 0x2EC0, 0x2F80, 0xEF41,
    0x2D00, 0xEDC1, 0xEC81, 0x2C40, 0xE401, 0x24C0, 0x2580, 0xE541, 0x2700, 0xE7C1, 0xE681, 0x2640,
    0x2200, 0xE2C1, 0xE381, 0x2340, 0xE101, 0x21C0, 0x2080, 0xE041, 0xA001, 0x60C0, 0x6180, 0xA141,
    0x6300, 0xA3C1, 0xA281, 0x6240, 0x6600, 0xA6C1, 0xA781, 0x6740, 0xA501, 0x65C0, 0x6480, 0xA441,
    0x6C00, 0xACC1, 0xAD81, 0x6D40, 0xAF01, 0x6FC0, 0x6E80, 0xAE41, 0xAA01, 0x6AC0, 0x6B80, 0xAB41,
    0x6900, 0xA9C1, 0xA881, 0x6840, 0x7800, 0xB8C1, 0xB981, 0x7940, 0xBB01, 0x7BC0, 0x7A80, 0xBA41,
    0xBE01, 0x7EC0, 0x7F80, 0xBF41, 0x7D00, 0xBDC1, 0xBC81, 0x7C40, 0xB401, 0x74C0, 0x7580, 0xB541,
    0x7700, 0xB7C1, 0xB681, 0x7640, 0x7200, 0xB2C1, 0xB381, 0x7340, 0xB101, 0x71C0, 0x7080, 0xB041,
    0x5000, 0x90C1, 0x9181, 0x5140, 0x9301, 0x53C0, 0x5280, 0x9241, 0x9601, 0x56C0, 0x5780, 0x9741,
    0x5500, 0x95C1, 0x9481, 0x5440, 0x9C01, 0x5CC0, 0x5D80, 0x9D41, 0x5F00, 0x9FC1, 0x9E81, 0x5E40,
    0x5A00, 0x9AC1, 0x9B81, 0x5B40, 0x9901, 0x59C0, 0x5880, 0x9841, 0x8801, 0x48C0, 0x4980, 0x8941,
    0x4B00, 0x8BC1, 0x8A81, 0x4A40, 0x4E00, 0x8EC1, 0x8F81, 0x4F40, 0x8D01, 0x4DC0, 0x4C80, 0x8C41,
    0x4400, 0x84C1, 0x8581, 0x4540, 0x8701, 0x47C0, 0x4680, 0x8641, 0x8201, 0x42C0, 0x4380, 0x8341,
    0x4100, 0x81C1, 0x8081, 0x4040]

/-- A pass of the loop of the tool. `Crc` and `Index` are `int16`. -/
def toolCrcUpdate (crc : BitVec 16) (byteValue : BitVec 8) : BitVec 16 :=
  let index := ((crc.signExtend 32 ^^^ byteValue.setWidth 32) &&& 0x00FF).setWidth 16
  let entry := toolCrcTable.getD index.toNat 0
  ((((crc.signExtend 32).sshiftRight 8) &&& 0x00FF) ^^^ entry.setWidth 32).setWidth 16

/-- The loop of the tool. Its index is an `int32`, and a read gives at most 100 bytes. -/
def toolCrcLoop (dataLength : Nat) : List (BitVec 8) → Nat → BitVec 16 → BitVec 16
  | [], _, crc => crc
  | byteValue :: rest, i, crc =>
    if i < dataLength then toolCrcLoop dataLength rest (i + 1) (toolCrcUpdate crc byteValue) else crc

/-- `CalculateCRC` of `cfe_ts_crc`, which has no case for an empty block. -/
def toolCalculateCRC (data : List (BitVec 8)) (inputCRC : BitVec 32) : BitVec 32 :=
  (toolCrcLoop data.length data 0 ((0xFFFF &&& inputCRC).setWidth 16)).signExtend 32

/-- The loop of `cfe_ts_crc`, on what its reads return. The loop ends with a read of no bytes,
which is also what the end of the file gives. -/
def toolFileCRC : List (List (BitVec 8)) → BitVec 32 → BitVec 32
  | [], fileCRC => toolCalculateCRC [] fileCRC
  | buffer :: reads, fileCRC =>
    if 0 < buffer.length then toolFileCRC reads (toolCalculateCRC buffer fileCRC)
    else toolCalculateCRC buffer fileCRC

/-- The headers that the tool skips: `sizeof(CFE_FS_Header_t) + sizeof(CFE_TBL_File_Hdr_t)`. -/
def toolSkipSize : Nat := 116

/-- The two tables are maintained separately. -/
theorem toolCrcTable_eq : toolCrcTable = crcTable := rfl

/-- The loop of the tool computes the register of the flight code. -/
theorem toolCrcLoop_eq (dataLength : Nat) (data : List (BitVec 8)) (i : Nat) (crc : BitVec 16)
    (hi : i + data.length = dataLength) : toolCrcLoop dataLength data i crc = serialCrc crc data := by
  induction data generalizing i crc with
  | nil => rfl
  | cons b rest ih =>
    rw [length_cons] at hi
    have hupdate : toolCrcUpdate crc b = crcUpdate crc b := by
      rw [toolCrcUpdate, toolCrcTable_eq, crcUpdate]
    rw [toolCrcLoop, if_pos (by omega), ih (i + 1) _ (by omega), hupdate, serialCrc_cons]

theorem toolCalculateCRC_eq (data : List (BitVec 8)) (seed : BitVec 32) :
    toolCalculateCRC data seed = (serialCrc (seed.setWidth 16) data).signExtend 32 := by
  rw [toolCalculateCRC, toolCrcLoop_eq _ data 0 _ (Nat.zero_add _), and_seed]

/-- The pieces of a file add up to the CRC of all of it. -/
theorem toolFileCRC_eq {reads : List (List (BitVec 8))} (hreads : ∀ buffer ∈ reads, buffer ≠ [])
    (seed : BitVec 32) :
    toolFileCRC reads seed = (serialCrc (seed.setWidth 16) reads.flatten).signExtend 32 := by
  induction reads generalizing seed with
  | nil => exact toolCalculateCRC_eq [] seed
  | cons buffer reads ih =>
    have hbuffer := length_pos_iff.mpr (hreads buffer mem_cons_self)
    rw [toolFileCRC, if_pos hbuffer, ih fun b hb => hreads b (mem_cons_of_mem _ hb),
      toolCalculateCRC_eq, setWidth_signExtend, flatten_cons, serialCrc_append]

/-- A CRC may be computed piece by piece, and so it is by the tool that puts it into a table
file, whatever the sizes of its reads. -/
theorem calculateCRC_chains :
    (∀ (a b : List (BitVec 8)) (seed : BitVec 32), a.length + b.length < 2 ^ 32 →
      ∃ crc final, calculateCRC a seed missionEsCrc16 = some crc ∧
        calculateCRC b crc missionEsCrc16 = some final ∧
        calculateCRC (a ++ b) seed missionEsCrc16 = some final) ∧
    ∀ (file : List (BitVec 8)) (reads : List (List (BitVec 8))),
      toolSkipSize < file.length → file.length < 2 ^ 32 + toolSkipSize →
      (∀ buffer ∈ reads, buffer ≠ []) → reads.flatten = file.drop toolSkipSize →
      calculateCRC (file.drop toolSkipSize) 0 missionEsCrc16 = some (toolFileCRC reads 0) := by
  have hsome {data : List (BitVec 8)} (h : data.length < 2 ^ 32) (seed : BitVec 32) :
      ∃ crc, calculateCRC data seed missionEsCrc16 = some crc := by
    by_cases hdata : data = []
    · exact ⟨seed, by rw [hdata]; rfl⟩
    · exact ⟨_, (calculateCRC_eq hdata seed).trans (if_pos h)⟩
  constructor
  · intro a b seed hlength
    obtain ⟨crc, ha⟩ := hsome (show a.length < 2 ^ 32 by omega) seed
    obtain ⟨final, hb⟩ := hsome (show b.length < 2 ^ 32 by omega) crc
    have happend := calculateCRC_append hlength seed
    rw [ha, Option.bind_some, hb] at happend
    exact ⟨crc, final, ha, hb, happend.symm⟩
  · intro file reads hfile hshort hreads hflatten
    have hdrop : (file.drop toolSkipSize).length = file.length - toolSkipSize := length_drop
    have hdata : file.drop toolSkipSize ≠ [] := ne_nil_of_length_pos (by omega)
    rw [calculateCRC_eq hdata, if_pos (by omega), toolFileCRC_eq hreads, hflatten]

/-- Three bytes behind the headers, in two reads. -/
theorem toolFileCRC_three_bytes :
    calculateCRC [1, 2, 3] 0 missionEsCrc16 = some (toolFileCRC [[1], [2, 3]] 0) := by
  have h := calculateCRC_chains.2 (List.replicate 116 0 ++ [1, 2, 3]) [[1], [2, 3]]
  exact h (by decide) (by decide) (by simp) rfl

end CfsEds.Es
