import CfsEds.Lib.Bits
import Mathlib.Data.List.DropRight

/-!
# Base64 texts of binary values

`EdsLib_DisplayDB_Base64Encode` writes a string of bits as characters of six bits each, and
`EdsLib_DisplayDB_Base64Decode` reads them back. Both run the bits through a 32-bit shift
register. There is no `=` padding; the encoder ends the text at the last character that is
not zero, and the decoder supplies the zeros.

The encoder fills up the last six bits with zeros only where the string ends inside of a byte.
When its length is a multiple of 8 the loop ends with up to four bits still in the register,
and they are never written. So the string comes back exactly when its length is not a multiple
of 8 or these bits are zero (`decode_encode_iff`). In the decoder the number of bytes is
computed in 32 bits, which wraps for the seven largest lengths.

Mirroring notes:
* The pointer `In` is the bytes left. To read behind them is the result `none`.
* `Out` is the characters written so far, and `OutputPos` one more than their number.
* `& 0x3F` of the shift register is a conversion to six bits.
* The entries of the reverse table are given by the ranges of characters they stand for.
-/

namespace CfsEds.Edslib.Base64

open Lib.Bits List

abbrev Byte := BitVec 8

/-! ## The encoder -/

/-- `EdsLib_BASE64_CHARSET` -/
def base64Charset : List Byte :=
  ("ABCDEFGHIJKLMNOPQRSTUVWXYZ" ++ "abcdefghijklmnopqrstuvwxyz" ++ "0123456789+/").toList.map
    fun c => BitVec.ofNat 8 c.toNat

/-- A character of the set. -/
def charOf (outCh : BitVec 6) : Byte := base64Charset.getD outCh.toNat 0

/-- The variables of the encoder. -/
structure EncodeState where
  shiftReg : BitVec 32
  numBits : Nat
  inputLenBits : Nat
  outputPos : Nat
  tailPos : Nat
  out : List Byte
  deriving DecidableEq, Repr

/-- The next byte goes into the shift register. -/
def loadByte (byte : Byte) (st : EncodeState) : EncodeState :=
  let shiftReg := st.shiftReg <<< 8 ||| byte.setWidth 32
  if 8 ≤ st.inputLenBits then
    { st with shiftReg, numBits := st.numBits + 8, inputLenBits := st.inputLenBits - 8 }
  else
    -- shift out bits that are not valid
    let shiftReg := shiftReg >>> (8 - st.inputLenBits)
    let numBits := st.numBits + st.inputLenBits
    if numBits % 6 ≠ 0 then
      -- pad with zero bits to make a multiple of 6
      { st with
        shiftReg := shiftReg <<< (6 - numBits % 6)
        numBits := numBits + (6 - numBits % 6)
        inputLenBits := 0 }
    else { st with shiftReg, numBits, inputLenBits := 0 }

/-- One pass of the inner loop: six bits go out, if there is space for the character. -/
def emit (outputLenBytes : Nat) (st : EncodeState) : EncodeState :=
  let numBits := st.numBits - 6
  if st.outputPos < outputLenBytes then
    let outCh := (st.shiftReg >>> numBits).setWidth 6
    { st with
      numBits
      -- track the last nonzero bit
      tailPos := if outCh ≠ 0 then st.outputPos else st.tailPos
      out := st.out ++ [charOf outCh]
      outputPos := st.outputPos + 1 }
  else { st with numBits }

theorem numBits_emit (outputLenBytes : Nat) (st : EncodeState) :
    (emit outputLenBytes st).numBits = st.numBits - 6 := by
  unfold emit
  split <;> rfl

/-- The inner loop. -/
def emitAll (outputLenBytes : Nat) (st : EncodeState) : EncodeState :=
  if 6 ≤ st.numBits then emitAll outputLenBytes (emit outputLenBytes st) else st
termination_by st.numBits
decreasing_by
  rw [numBits_emit]
  omega

/-- The loop over the input. -/
def encodeLoop (outputLenBytes : Nat) : List Byte → EncodeState → Option EncodeState
  | bytes, st =>
    if st.inputLenBits = 0 then some st
    else
      match bytes with
      | [] => none
      | byte :: bytes => encodeLoop outputLenBytes bytes (emitAll outputLenBytes (loadByte byte st))

/-- `EdsLib_DisplayDB_Base64Encode`: the characters in the buffer. -/
def base64Encode (outputLenBytes : Nat) (bytes : List Byte) (inputLenBits : Nat) :
    Option (List Byte) :=
  (encodeLoop outputLenBytes bytes ⟨0, 0, inputLenBits, 1, 0, []⟩).map fun st =>
    -- truncate at the last nonzero character
    if st.tailPos < outputLenBytes then
      st.out.take st.tailPos ++ 0 :: st.out.drop (st.tailPos + 1)
    else st.out

/-! ## The decoder -/

/-- `EdsLib_BASE64_REVERSE` -/
def base64Reverse (ch : Nat) : Byte :=
  if 0x41 ≤ ch ∧ ch ≤ 0x5A then BitVec.ofNat 8 (0x80 + (ch - 0x41))
  else if 0x61 ≤ ch ∧ ch ≤ 0x7A then BitVec.ofNat 8 (0x9A + (ch - 0x61))
  else if 0x30 ≤ ch ∧ ch ≤ 0x39 then BitVec.ofNat 8 (0xB4 + (ch - 0x30))
  else if ch = 0x2B then 0xBE
  else if ch = 0x2F then 0xBF
  else 0

/-- The variables of the decoder. -/
structure DecodeState where
  shiftReg : BitVec 32
  numBits : Nat
  out : List Byte
  deriving DecidableEq, Repr

/-- A character of the text. One that is not within the character set is skipped. -/
def takeChar (char : Byte) (st : DecodeState) : DecodeState :=
  let ch := base64Reverse (char &&& 0x7F).toNat
  if ch ≠ 0 then
    { st with
      shiftReg := st.shiftReg <<< 6 ||| (ch &&& 0x3F).setWidth 32
      numBits := st.numBits + 6 }
  else st

/-- Zero padding to fill the entire space. -/
def takeZeros (st : DecodeState) : DecodeState :=
  { st with shiftReg := st.shiftReg <<< 8, numBits := st.numBits + 8 }

/-- A byte goes out. -/
def putByte (st : DecodeState) : DecodeState :=
  let numBits := st.numBits - 8
  { st with numBits, out := st.out ++ [(st.shiftReg >>> numBits).setWidth 8] }

/-- The loop of the decoder. -/
def decodeLoop : Nat → List Byte → DecodeState → Option (List Byte)
  | 0, _, st => some st.out
  | _ + 1, [], _ => none
  | actualLen + 1, char :: text, st =>
    -- the terminator is not passed, and after the zeros there are 8 bits in any case
    if char = 0 then decodeLoop actualLen (char :: text) (putByte (takeZeros st))
    else
      let st := takeChar char st
      if 8 ≤ st.numBits then decodeLoop actualLen text (putByte st)
      else decodeLoop (actualLen + 1) text st
termination_by actualLen text => actualLen + text.length

/-- `EdsLib_DisplayDB_Base64Decode`: the bytes written. -/
def base64Decode (outputLenBits : Nat) (text : List Byte) : Option (List Byte) :=
  decodeLoop ((outputLenBits + 7) % 2 ^ 32 / 8) text ⟨0, 0, []⟩

/-! ## Groups of six bits -/

/-- The bits of some groups. -/
def groupBits (groups : List (BitVec 6)) : List Bool := groups.flatMap (lowBits 6)

/-- The groups up to the last that is not zero. -/
def trim (groups : List (BitVec 6)) : List (BitVec 6) := groups.rdropWhile (· = 0)

@[simp] theorem groupBits_nil : groupBits [] = [] := rfl

@[simp] theorem groupBits_cons (g : BitVec 6) (groups : List (BitVec 6)) :
    groupBits (g :: groups) = lowBits 6 g ++ groupBits groups := rfl

@[simp] theorem groupBits_append (a b : List (BitVec 6)) :
    groupBits (a ++ b) = groupBits a ++ groupBits b := flatMap_append

@[simp] theorem length_groupBits (groups : List (BitVec 6)) :
    (groupBits groups).length = 6 * groups.length := by
  induction groups with
  | nil => rfl
  | cons g groups ih =>
    rw [groupBits_cons, length_append, ih, length_lowBits, length_cons]
    omega

theorem groupBits_replicate_zero (n : Nat) :
    groupBits (List.replicate n 0) = List.replicate (6 * n) false := by
  induction n with
  | zero => rfl
  | succ n ih =>
    have hzero : lowBits 6 (0 : BitVec 6) = List.replicate 6 false := lowBits_zero_word 6
    rw [replicate_succ, groupBits_cons, ih, hzero, replicate_append_replicate]
    congr 1
    omega

theorem trim_concat (groups : List (BitVec 6)) (g : BitVec 6) :
    trim (groups ++ [g]) = if g = 0 then trim groups else groups ++ [g] := by
  unfold trim
  rw [rdropWhile_concat]
  simp only [decide_eq_true_eq]

/-- The groups that were dropped are zero. -/
theorem exists_trim_append (groups : List (BitVec 6)) :
    ∃ n, groups = trim groups ++ List.replicate n 0 := by
  induction groups using List.reverseRecOn with
  | nil => exact ⟨0, rfl⟩
  | append_singleton groups g ih =>
    rw [trim_concat]
    split
    next hg =>
      obtain ⟨n, hn⟩ := ih
      refine ⟨n + 1, ?_⟩
      rw [hg, replicate_succ', ← append_assoc, ← hn]
    next => exact ⟨0, by simp⟩

theorem length_trim_le (groups : List (BitVec 6)) : (trim groups).length ≤ groups.length := by
  obtain ⟨n, hn⟩ := exists_trim_append groups
  have hlen := congrArg List.length hn
  rw [length_append] at hlen
  omega

/-- Dropping zeros at the end does not change the bits. -/
theorem padded_trim (m : Nat) (groups : List (BitVec 6)) :
    padded m (groupBits (trim groups)) = padded m (groupBits groups) := by
  obtain ⟨n, hn⟩ := exists_trim_append groups
  have hbits := congrArg groupBits hn
  rw [groupBits_append, groupBits_replicate_zero] at hbits
  rw [hbits, padded_append_zeros]

/-! ## What the encoder has written -/

/-- The encoder has taken in `bits`: the groups `groups` went out, as far as there was space,
and the rest is in the shift register. -/
structure Encoded (outputLenBytes : Nat) (bits : List Bool) (groups : List (BitVec 6))
    (st : EncodeState) : Prop where
  bits : groupBits groups ++ lowBits st.numBits st.shiftReg = bits
  out : st.out = (groups.take (outputLenBytes - 1)).map charOf
  pos : st.outputPos = st.out.length + 1
  tail : st.tailPos = (trim (groups.take (outputLenBytes - 1))).length

section

variable {outputLenBytes : Nat} {bits : List Bool} {groups : List (BitVec 6)} {st : EncodeState}

theorem Encoded.length_out (h : Encoded outputLenBytes bits groups st) :
    st.out.length = min (outputLenBytes - 1) groups.length := by
  rw [h.out, length_map, List.length_take]

/-- Six bits go from the shift register to the groups. -/
theorem Encoded.emit (h : Encoded outputLenBytes bits groups st) (hnum : 6 ≤ st.numBits) :
    Encoded outputLenBytes bits
      (groups ++ [(st.shiftReg >>> (st.numBits - 6)).setWidth 6]) (emit outputLenBytes st) := by
  have hlen := h.length_out
  have hsplit : lowBits st.numBits st.shiftReg
      = lowBits 6 ((st.shiftReg >>> (st.numBits - 6)).setWidth 6)
        ++ lowBits (st.numBits - 6) st.shiftReg := by
    rw [lowBits_setWidth (Nat.le_refl 6), ← lowBits_add]
    congr 1
    omega
  have hbits : groupBits (groups ++ [(st.shiftReg >>> (st.numBits - 6)).setWidth 6])
      ++ lowBits (st.numBits - 6) st.shiftReg = bits := by
    rw [← h.bits, hsplit, groupBits_append, groupBits_cons, groupBits_nil, append_nil, append_assoc]
  unfold Base64.emit
  dsimp only
  generalize (st.shiftReg >>> (st.numBits - 6)).setWidth 6 = g at hbits ⊢
  split
  next hspace =>
    -- the character is written
    have hroom : groups.length < outputLenBytes - 1 := by
      have hpos := h.pos
      omega
    have htake : (groups ++ [g]).take (outputLenBytes - 1) = groups ++ [g] := by
      rw [take_of_length_le]
      rw [length_append, length_singleton]
      omega
    have hall : groups.take (outputLenBytes - 1) = groups := take_of_length_le (by omega)
    refine ⟨hbits, ?_, ?_, ?_⟩
    · rw [htake, h.out, hall, map_append, map_singleton]
    · rw [length_append, length_singleton, h.pos]
    · rw [htake, trim_concat, h.tail, hall]
      by_cases hg : g = 0
      · rw [if_pos hg, if_neg (not_not_intro hg)]
      · rw [if_neg hg, if_pos hg, h.pos, h.out, hall, length_map, length_append, length_singleton]
  next hspace =>
    -- there is no space
    have hfull : (groups ++ [g]).take (outputLenBytes - 1) = groups.take (outputLenBytes - 1) := by
      have hpos := h.pos
      exact take_append_of_le_length (by omega)
    exact ⟨hbits, by rw [hfull, h.out], h.pos, by rw [hfull, h.tail]⟩

theorem inputLenBits_emit (outputLenBytes : Nat) (st : EncodeState) :
    (emit outputLenBytes st).inputLenBits = st.inputLenBits := by
  unfold emit
  split <;> rfl

/-- After the inner loop there are fewer than six bits left. -/
theorem Encoded.emitAll (h : Encoded outputLenBytes bits groups st) :
    ∃ groups', Encoded outputLenBytes bits groups' (emitAll outputLenBytes st) ∧
      (emitAll outputLenBytes st).numBits = st.numBits % 6 ∧
      (emitAll outputLenBytes st).inputLenBits = st.inputLenBits := by
  fun_induction Base64.emitAll outputLenBytes st generalizing groups with
  | case1 st hnum ih =>
    obtain ⟨groups', henc, hbits, hlen⟩ := ih (h.emit hnum)
    rw [numBits_emit] at hbits
    rw [inputLenBits_emit] at hlen
    exact ⟨groups', henc, by omega, hlen⟩
  | case2 st hnum => exact ⟨groups, h, by omega, rfl⟩

/-- A whole byte is taken in. -/
theorem Encoded.loadByte (h : Encoded outputLenBytes bits groups st) (hnum : st.numBits < 6)
    (hlen : 8 ≤ st.inputLenBits) (byte : Byte) :
    Encoded outputLenBytes (bits ++ lowBits 8 byte) groups (loadByte byte st) ∧
      (loadByte byte st).inputLenBits = st.inputLenBits - 8 := by
  unfold Base64.loadByte
  rw [if_pos hlen]
  refine ⟨⟨?_, h.out, h.pos, h.tail⟩, rfl⟩
  rw [lowBits_push (by omega), ← append_assoc, h.bits]

/-- The end of the string is taken in, and zeros that make the bits a number of groups. -/
theorem Encoded.loadLast (h : Encoded outputLenBytes bits groups st) (hnum : st.numBits < 6)
    (hlen : st.inputLenBits < 8) (byte : Byte) :
    ∃ n, Encoded outputLenBytes
        (bits ++ (lowBits 8 byte).take st.inputLenBits ++ List.replicate n false) groups
        (Base64.loadByte byte st) ∧
      (Base64.loadByte byte st).inputLenBits = 0 ∧ (Base64.loadByte byte st).numBits % 6 = 0 := by
  generalize hk : st.inputLenBits = k at hlen
  -- the valid bits of the byte
  have hvalid : lowBits (st.numBits + k) ((st.shiftReg <<< 8 ||| byte.setWidth 32) >>> (8 - k))
        = lowBits st.numBits st.shiftReg ++ (lowBits 8 byte).take k :=
    lowBits_push_take (by omega) (by omega) _ _
  unfold Base64.loadByte
  dsimp only
  rw [hk, if_neg (by omega)]
  split
  next hrest =>
    refine ⟨6 - (st.numBits + k) % 6, ⟨?_, h.out, h.pos, h.tail⟩, rfl, ?_⟩
    · rw [lowBits_shiftLeft (by omega), hvalid, ← h.bits]
      simp only [append_assoc]
    · show (st.numBits + k + (6 - (st.numBits + k) % 6)) % 6 = 0
      omega
  next hrest =>
    refine ⟨0, ⟨?_, h.out, h.pos, h.tail⟩, rfl, ?_⟩
    · rw [hvalid, ← h.bits]
      simp only [append_assoc, replicate_zero, append_nil]
    · show (st.numBits + k) % 6 = 0
      omega

/-- The bits that a string of `len` bits leaves in the groups and in the register: all of them
and, if it ends inside of a byte, zeros up to a number of groups. -/
structure Finished (outputLenBytes len : Nat) (bits : List Bool) (groups : List (BitVec 6))
    (st : EncodeState) : Prop where
  padding : ∃ n, Encoded outputLenBytes (bits ++ List.replicate n false) groups st ∧
    (len % 8 = 0 → n = 0)
  numBits : st.numBits = if len % 8 = 0 then bits.length % 6 else 0

theorem encodeLoop_finished (bytes : List Byte) {len : Nat}
    (h : Encoded outputLenBytes bits groups st) (hnum : st.numBits < 6)
    (hlen : st.inputLenBits = len) (hbytes : bytes.length = (len + 7) / 8) :
    ∃ st' groups', encodeLoop outputLenBytes bytes st = some st' ∧
      Finished outputLenBytes len (bits ++ (bytesBits bytes).take len) groups' st' := by
  induction bytes generalizing len bits groups st with
  | nil =>
    have hzero : len = 0 := by
      rw [length_nil] at hbytes
      omega
    subst hzero
    refine ⟨st, groups, ?_, ⟨0, by simpa using h, fun _ => rfl⟩, ?_⟩
    · rw [encodeLoop, if_pos hlen]
    · have hlength := congrArg List.length h.bits
      rw [length_append, length_groupBits, length_lowBits] at hlength
      simp only [bytesBits_nil, take_nil, append_nil, ← hlength, Nat.zero_mod, if_true]
      omega
  | cons byte bytes ih =>
    rw [length_cons] at hbytes
    rw [encodeLoop, if_neg (by omega), bytesBits_cons]
    by_cases hwhole : 8 ≤ len
    · -- a whole byte, then the rest
      obtain ⟨hload, hrest⟩ := h.loadByte hnum (by omega) byte
      obtain ⟨groups', henc, hbits, hleft⟩ := hload.emitAll
      obtain ⟨st', groups'', hrun, hfin⟩ :=
        ih henc (by omega) (show _ = len - 8 by omega) (by omega)
      have htake : bits ++ (lowBits 8 byte ++ bytesBits bytes).take len
          = bits ++ lowBits 8 byte ++ (bytesBits bytes).take (len - 8) := by
        rw [take_append, take_of_length_le (by simpa using hwhole), length_lowBits, append_assoc]
      have hmod : (len - 8) % 8 = len % 8 := by omega
      refine ⟨st', groups'', hrun, ?_⟩
      rw [htake]
      obtain ⟨hpad, hnum'⟩ := hfin
      rw [hmod] at hpad hnum'
      exact ⟨hpad, hnum'⟩
    · -- the end of the string inside of a byte
      have hnil : bytes = [] := length_eq_zero_iff.mp (by omega)
      subst hnil
      obtain ⟨n, hload, hrest, hnum6⟩ := h.loadLast hnum (by omega) byte
      obtain ⟨groups', henc, hbits, hleft⟩ := hload.emitAll
      refine ⟨emitAll outputLenBytes (loadByte byte st), groups', ?_, ⟨n, ?_, by omega⟩, ?_⟩
      · rw [encodeLoop, if_pos (by omega)]
      · rw [bytesBits_nil, append_nil, ← hlen]
        exact henc
      · rw [if_neg (by omega), hbits, hnum6]

end

/-! ## What the decoder writes -/

theorem base64Reverse_charOf (g : BitVec 6) :
    base64Reverse (charOf g &&& 0x7F).toNat = 0x80 ||| g.setWidth 8 := by
  revert g
  decide +kernel

theorem charOf_ne_zero (g : BitVec 6) : charOf g ≠ 0 := by
  revert g
  decide +kernel

/-- A character of the set gives its six bits. -/
theorem takeChar_charOf (g : BitVec 6) (st : DecodeState) : takeChar (charOf g) st
      = { st with shiftReg := st.shiftReg <<< 6 ||| g.setWidth 32, numBits := st.numBits + 6 } := by
  have hne : ∀ g : BitVec 6, (0x80 ||| g.setWidth 8 : BitVec 8) ≠ 0 := by decide +kernel
  have hlow : ∀ g : BitVec 6, ((0x80 ||| g.setWidth 8 : BitVec 8) &&& 0x3F).setWidth 32
      = g.setWidth 32 := by decide +kernel
  unfold takeChar
  rw [base64Reverse_charOf]
  rw [if_pos (hne g), hlow g]

/-- A byte goes out of the register, and what follows is written behind it. -/
theorem putByte_writes {st : DecodeState} (h : 8 ≤ st.numBits) {n : Nat} {bits : List Bool}
    {r : Option (List Byte)}
    (hrest : ∃ bytes, r = some ((putByte st).out ++ bytes) ∧ bytesBits bytes
      = padded (8 * n) (lowBits (putByte st).numBits (putByte st).shiftReg ++ bits)) :
    ∃ bytes, r = some (st.out ++ bytes) ∧
      bytesBits bytes = padded (8 * (n + 1)) (lowBits st.numBits st.shiftReg ++ bits) := by
  obtain ⟨bytes, hr, hbits⟩ := hrest
  have hsplit : lowBits st.numBits st.shiftReg
      = lowBits 8 ((st.shiftReg >>> (st.numBits - 8)).setWidth 8)
        ++ lowBits (st.numBits - 8) st.shiftReg := by
    rw [lowBits_setWidth (Nat.le_refl 8), ← lowBits_add]
    congr 1
    omega
  refine ⟨(st.shiftReg >>> (st.numBits - 8)).setWidth 8 :: bytes, ?_, ?_⟩
  · rw [hr]
    simp only [putByte, append_assoc, singleton_append]
  · rw [hsplit, append_assoc, Nat.mul_succ, Nat.add_comm,
      padded_append (length_lowBits 8 _), bytesBits_cons, hbits]
    rfl

/-- What the decoder adds to the output is the bits in the register and in the text, followed
by zeros. -/
theorem decodeLoop_eq (groups : List (BitVec 6)) (rest : List Byte) (actualLen : Nat)
    (st : DecodeState) (hnum : st.numBits < 8) :
    ∃ bytes, decodeLoop actualLen (groups.map charOf ++ 0 :: rest) st = some (st.out ++ bytes) ∧
      bytesBits bytes
        = padded (8 * actualLen) (lowBits st.numBits st.shiftReg ++ groupBits groups) := by
  induction groups generalizing actualLen st with
  | nil =>
    -- the terminator: only zeros are left
    induction actualLen generalizing st with
    | zero => exact ⟨[], by rw [append_nil]; exact decodeLoop.eq_1 _ st, rfl⟩
    | succ n ih =>
      have hzeros : lowBits (takeZeros st).numBits (takeZeros st).shiftReg
          = lowBits st.numBits st.shiftReg ++ List.replicate 8 false :=
        lowBits_shiftLeft (by omega) _
      have hnum' : (putByte (takeZeros st)).numBits < 8 := by
        show st.numBits + 8 - 8 < 8
        omega
      have hput : 8 ≤ (takeZeros st).numBits := Nat.le_add_left 8 _
      have hwrites := putByte_writes hput (ih (putByte (takeZeros st)) hnum')
      rw [groupBits_nil, append_nil, hzeros, padded_append_zeros] at hwrites
      rw [groupBits_nil, append_nil, map_nil, nil_append, decodeLoop, if_pos rfl]
      exact hwrites
  | cons g groups ih =>
    cases actualLen with
    | zero => exact ⟨[], by rw [append_nil]; exact decodeLoop.eq_1 _ st, rfl⟩
    | succ n =>
      have hpush : lowBits (st.numBits + 6) (st.shiftReg <<< 6 ||| g.setWidth 32)
          = lowBits st.numBits st.shiftReg ++ lowBits 6 g := lowBits_push (by omega) _ _
      rw [map_cons, cons_append, decodeLoop, if_neg (charOf_ne_zero g), takeChar_charOf]
      rw [groupBits_cons, ← append_assoc, ← hpush]
      dsimp only
      generalize st.shiftReg <<< 6 ||| g.setWidth 32 = shiftReg
      split
      next hput =>
        have hnum' : (putByte ⟨shiftReg, st.numBits + 6, st.out⟩).numBits < 8 := by
          show st.numBits + 6 - 8 < 8
          omega
        exact putByte_writes hput (ih n _ hnum')
      next hput =>
        exact ih (n + 1) ⟨shiftReg, st.numBits + 6, st.out⟩ (Nat.lt_of_not_le hput)

/-! ## There and back -/

/-- A string of `len` bits, stored left-aligned in bytes with zero pad bits. -/
structure LeftAligned (len : Nat) (bytes : List Byte) : Prop where
  length : bytes.length = (len + 7) / 8
  padding : ∀ b ∈ (bytesBits bytes).drop len, b = false

/-- The text and its terminator fit the buffer: whatever would be written behind it is zero. -/
structure Fits (outputLenBytes len : Nat) (bytes : List Byte) : Prop where
  pos : 0 < outputLenBytes
  zeros : ∀ b ∈ ((bytesBits bytes).take len).drop (6 * (outputLenBytes - 1)), b = false

/-- The bits behind the last whole group of a string are zero. -/
def TailZero (len : Nat) (bytes : List Byte) : Prop :=
  ∀ b ∈ ((bytesBits bytes).take len).drop (len - len % 6), b = false

section

variable {len outputLenBytes : Nat} {bytes : List Byte}

theorem LeftAligned.length_take (h : LeftAligned len bytes) :
    ((bytesBits bytes).take len).length = len := by
  have hlen := h.length
  rw [List.length_take, length_bytesBits]
  omega

/-- The bytes are the bits of the string and zeros. -/
theorem LeftAligned.bytesBits_eq (h : LeftAligned len bytes) :
    bytesBits bytes = padded (8 * ((len + 7) / 8)) ((bytesBits bytes).take len) := by
  have hlen : (bytesBits bytes).length = 8 * ((len + 7) / 8) := by
    rw [length_bytesBits, h.length]
  have hzeros := eq_replicate_false h.padding
  rw [length_drop, hlen] at hzeros
  rw [padded_of_length_le (by rw [h.length_take]; omega), h.length_take, ← hzeros, take_append_drop]

/-- The text that the encoder leaves in the buffer. -/
theorem base64Encode_eq (hstored : LeftAligned len bytes) (hfits : Fits outputLenBytes len bytes) :
    ∃ groups st rest, base64Encode outputLenBytes bytes len
        = some ((trim (groups.take (outputLenBytes - 1))).map charOf ++ 0 :: rest) ∧
      Finished outputLenBytes len ((bytesBits bytes).take len) groups st := by
  have hstart : Encoded outputLenBytes [] [] ⟨0, 0, len, 1, 0, []⟩ :=
    ⟨rfl, by rw [take_nil]; rfl, rfl, by rw [take_nil]; rfl⟩
  obtain ⟨st, groups, hrun, hfin⟩ :=
    encodeLoop_finished bytes hstart (Nat.zero_lt_succ 5) rfl hstored.length
  obtain ⟨n, henc, -⟩ := hfin.padding
  have hpos := hfits.pos
  have hle := length_trim_le (groups.take (outputLenBytes - 1))
  rw [List.length_take] at hle
  -- the terminator is put behind the last character that is not zero
  have htext : st.out.take st.tailPos = (trim (groups.take (outputLenBytes - 1))).map charOf := by
    obtain ⟨k, hk⟩ := exists_trim_append (groups.take (outputLenBytes - 1))
    rw [henc.out, henc.tail, ← map_take]
    conv_lhs => rw [hk]
    rw [take_left']
    rw [← hk]
  refine ⟨groups, st, st.out.drop (st.tailPos + 1), ?_, hfin⟩
  rw [base64Encode, hrun, Option.map_some, if_pos (by rw [henc.tail]; omega), htext]

/-- There is nothing but zeros in the groups that did not fit. -/
theorem padded_take_groups (hfits : Fits outputLenBytes len bytes) {groups : List (BitVec 6)}
    {st : EncodeState} {n : Nat}
    (henc : Encoded outputLenBytes ((bytesBits bytes).take len ++ List.replicate n false)
      groups st) (m : Nat) :
    padded m (groupBits (groups.take (outputLenBytes - 1))) = padded m (groupBits groups) := by
  have hsplit : groupBits groups = groupBits (groups.take (outputLenBytes - 1))
      ++ groupBits (groups.drop (outputLenBytes - 1)) := by
    rw [← groupBits_append, take_append_drop]
  have hzeros : ∀ b ∈ groupBits (groups.drop (outputLenBytes - 1)), b = false := by
    intro b hb
    rcases Nat.le_total groups.length (outputLenBytes - 1) with hall | hsome
    · rw [drop_of_length_le hall] at hb
      cases hb
    have hlen : (groupBits (groups.take (outputLenBytes - 1))).length
        = 6 * (outputLenBytes - 1) := by
      rw [length_groupBits, List.length_take, Nat.min_eq_left hsome]
    have hdrop := congrArg (List.drop (6 * (outputLenBytes - 1))) henc.bits
    rw [hsplit, append_assoc, drop_left' hlen, drop_append] at hdrop
    have hmem : b ∈ ((bytesBits bytes).take len).drop (6 * (outputLenBytes - 1))
        ++ (List.replicate n false).drop
          (6 * (outputLenBytes - 1) - ((bytesBits bytes).take len).length) :=
      hdrop ▸ mem_append_left _ hb
    rcases mem_append.mp hmem with hbits | hpad
    · exact hfits.zeros b hbits
    · exact eq_of_mem_replicate (mem_of_mem_drop hpad)
  rw [hsplit, eq_replicate_false hzeros, padded_append_zeros]

/-- The groups have the whole string, but for the bits behind the last whole group of a string
that ends with a byte. -/
theorem padded_groups {groups : List (BitVec 6)} {st : EncodeState}
    (hstored : LeftAligned len bytes)
    (hfin : Finished outputLenBytes len ((bytesBits bytes).take len) groups st) (m : Nat) :
    padded m (groupBits groups) = padded m (if len % 8 = 0
      then ((bytesBits bytes).take len).take (len - len % 6) else (bytesBits bytes).take len) := by
  have hnum := hfin.numBits
  obtain ⟨n, henc, hn⟩ := hfin.padding
  have hbits := henc.bits
  split
  next h8 =>
    rw [if_pos h8] at hnum
    rw [hn h8, replicate_zero, append_nil, hnum] at hbits
    have hlen := congrArg List.length hbits
    rw [hstored.length_take, length_append, length_lowBits] at hlen
    rw [← hbits, take_left' (by omega)]
  next h8 =>
    rw [if_neg h8] at hnum
    rw [hnum, lowBits_zero, append_nil] at hbits
    rw [hbits, padded_append_zeros]

/-- A string comes back exactly when its length is not a multiple of 8 or the bits behind its
last whole group are zero, and the number of its bytes can be computed in 32 bits. -/
theorem decode_encode_iff (hlen : len < 2 ^ 32) (hstored : LeftAligned len bytes)
    (hfits : Fits outputLenBytes len bytes) :
    (base64Encode outputLenBytes bytes len).bind (base64Decode len) = some bytes ↔
      len + 7 < 2 ^ 32 ∧ (len % 8 = 0 → TailZero len bytes) := by
  obtain ⟨groups, st, rest, hencode, hfin⟩ := base64Encode_eq hstored hfits
  obtain ⟨n, henc, -⟩ := hfin.padding
  obtain ⟨decoded, hdecode, hbits⟩ := decodeLoop_eq (trim (groups.take (outputLenBytes - 1))) rest
    ((len + 7) % 2 ^ 32 / 8) ⟨0, 0, []⟩ (by decide)
  rw [lowBits_zero, nil_append, padded_trim, padded_take_groups hfits henc,
    padded_groups hstored hfin] at hbits
  rw [hencode, Option.bind_some, base64Decode, hdecode, nil_append, Option.some.injEq]
  have hcount : decoded.length = (len + 7) % 2 ^ 32 / 8 := by
    have hlength := congrArg List.length hbits
    rw [length_bytesBits, length_padded] at hlength
    omega
  have hnum := hstored.length
  have hall := hstored.bytesBits_eq
  constructor
  · intro heq
    subst heq
    have hfit : len + 7 < 2 ^ 32 := by omega
    refine ⟨hfit, fun h8 => ?_⟩
    -- behind the last whole group the decoder has zeros
    have hwhole : (bytesBits decoded).take len = bytesBits decoded :=
      take_of_length_le (by rw [length_bytesBits]; omega)
    have htake : (((bytesBits decoded).take len).take (len - len % 6)).length = len - len % 6 := by
      rw [List.length_take, hstored.length_take]
      omega
    rw [if_pos h8, padded_of_length_le (by omega), htake] at hbits
    intro b hb
    rw [hwhole, hbits, drop_left' htake] at hb
    exact eq_of_mem_replicate hb
  · intro ⟨hfit, htail⟩
    apply bytesBits_injective
    refine Eq.trans ?_ hall.symm
    rw [hbits, Nat.mod_eq_of_lt hfit]
    split
    next h8 =>
      have hsplit := take_append_drop (len - len % 6) ((bytesBits bytes).take len)
      rw [eq_replicate_false (htail h8)] at hsplit
      conv_rhs => rw [← hsplit, padded_append_zeros]
    next => rfl

end

/-- Twelve bits with the last bit set. -/
theorem decode_encode_twelve :
    (base64Encode 3 [0x00, 0x10] 12).bind (base64Decode 12) = some [0x00, 0x10] :=
  (decode_encode_iff (by decide) ⟨by decide, by decide⟩ ⟨by decide, by decide⟩).mpr
    ⟨by decide, fun h => absurd h (by decide)⟩

/-- One byte, whose last bit is lost. -/
theorem decode_encode_one_byte : LeftAligned 8 [0x01] ∧ Fits 3 8 [0x01] ∧
      (base64Encode 3 [0x01] 8).bind (base64Decode 8) = some [0x00] :=
  ⟨⟨by decide, by decide⟩, ⟨by decide, by decide⟩, by decide +kernel⟩

end CfsEds.Edslib.Base64
