import CfsEds.Edslib.BitPack

/-!
# What packing changes

A scalar that is packed at an offset of a buffer should change the bits of its field only. By
`packImage_eq` the bits before the field stay, and on the bits behind it the rest of the last
byte of the value is ORed. So everything depends on that rest: it is the padding of the value in
memory, which is behind the field unless the field is little endian.

* The low bits of a number are free after the shift, and zero; inverting the number makes them
  ones.
* Packed decimal digits are not shifted; the low half of the last byte is zero when the number of
  digits is odd, and inverted with the rest for the sizes of integers only.
* A string of bits has the padding that stands in memory.

`packAt_keepsOthers_iff` says exactly when the other bits stay: where the padding has ones, the
buffer must have them already.
-/

namespace CfsEds.Edslib.Pack

open Lib.Bits Lib.ByteOrder List

/-! ## The bytes that are loaded -/

/-- The bytes in the order in which they are loaded. -/
def Loads (image : Image) (order : List Byte) : Prop :=
  ∀ i (hi : i < order.length), image.byteAt i = some order[i]

section

variable {image : Image}

theorem byteAt_eq {k pos : Nat}
    (h : (if image.memStride < 0 then (image.convSize : Int) - 1 else 0) + k * image.memStride
      = pos) :
    image.byteAt k = image.mem[pos]? := by
  unfold Image.byteAt
  dsimp only
  rw [h, if_pos (Int.natCast_nonneg pos), Int.toNat_natCast]

theorem loads_forward (h : image.memStride = 1) : Loads image image.mem := by
  intro i hi
  have hpos : image.byteAt i = image.mem[i]? := byteAt_eq (by rw [h, if_neg (by omega)]; omega)
  rw [hpos, getElem?_eq_getElem hi]

theorem loads_backward (h : image.memStride = -1) (hsize : image.mem.length = image.convSize) :
    Loads image image.mem.reverse := by
  intro i hi
  rw [length_reverse] at hi
  have hpos : image.byteAt i = image.mem[image.mem.length - 1 - i]? :=
    byteAt_eq (by rw [h, if_pos (by omega)]; omega)
  rw [hpos, getElem?_eq_getElem (by omega), getElem_reverse]

/-- After a failed conversion the first byte is loaded again and again. -/
theorem loads_constant (h : image.memStride = 0) {byte : Byte} (hmem : image.mem.head? = some byte)
    (n : Nat) : Loads image (List.replicate n byte) := by
  intro i hi
  have hpos : image.byteAt i = image.mem[0]? := byteAt_eq (by rw [h, if_neg (by omega)]; omega)
  rw [hpos, ← head?_eq_getElem?, hmem, getElem_replicate]

end

/-! ## Numbers -/

/-- A number of `n` bytes, shifted to the left and inverted. -/
def shiftedNumber (n shift : Nat) (invert : Bool) (x : Nat) : Nat :=
  let shifted := x * 2 ^ shift % 256 ^ n
  if invert then 256 ^ n - 1 - shifted else shifted

section

variable {n shift : Nat} {invert : Bool} {x : Nat}

theorem pow256 (n : Nat) : 256 ^ n = 2 ^ (8 * n) := by
  rw [Nat.pow_mul]


/-- The low bits are free, and the others are those of the number. -/
theorem testBit_shiftedNumber {i : Nat} (hi : i < 8 * n) :
    (shiftedNumber n shift invert x).testBit i
      = (invert ^^ (decide (shift ≤ i) && x.testBit (i - shift))) := by
  have hshifted : (x * 2 ^ shift % 256 ^ n).testBit i
      = (decide (shift ≤ i) && x.testBit (i - shift)) := by
    rw [pow256, Nat.testBit_mod_two_pow, decide_eq_true hi, Bool.true_and, Nat.mul_comm,
      Nat.testBit_two_pow_mul]
  have hlt : x * 2 ^ shift % 256 ^ n < 2 ^ (8 * n) := by
    rw [← pow256]
    exact Nat.mod_lt _ (Nat.pow_pos (by omega))
  cases invert with
  | false =>
    rw [Bool.false_xor, ← hshifted]
    rfl
  | true =>
    rw [Bool.true_xor, ← hshifted]
    show (256 ^ n - 1 - x * 2 ^ shift % 256 ^ n).testBit i = _
    rw [Nat.sub_sub, Nat.add_comm 1, pow256, Nat.testBit_two_pow_sub_succ (by rwa [pow256] at hlt),
      decide_eq_true hi, Bool.true_and]

theorem shiftInvert_number (m : Machine) (style : PackStyle) {image : Image}
    (hsize : IsIntSize image.convSize) (hmem : image.mem.length = image.convSize) :
    shiftInvert m style image = { image with
        mem := nativeBytes m.native image.convSize
          (shiftedNumber image.convSize style.intermediateShift style.invert
            (nativeValue m.native image.mem)) } := by
  unfold shiftInvert
  by_cases h : 0 < style.intermediateShift ∨ style.invert = true
  · rw [if_pos h, if_pos hsize]
    dsimp only
    rw [take_of_length_le (Nat.le_of_eq hmem)]
    rfl
  -- nothing is done, and nothing changes
  obtain ⟨hshift, hinvert⟩ : style.intermediateShift = 0 ∧ style.invert = false := by
    rw [not_or, Nat.not_lt, Nat.le_zero, Bool.not_eq_true] at h
    exact h
  have hlt := nativeValue_lt m.native image.mem
  have hsame : shiftedNumber image.convSize style.intermediateShift style.invert
      (nativeValue m.native image.mem) = nativeValue m.native image.mem := by
    rw [hshift, hinvert, ← hmem]
    show nativeValue m.native image.mem * 2 ^ 0 % _ = _
    rw [Nat.pow_zero, Nat.mul_one, Nat.mod_eq_of_lt hlt]
  rw [if_neg h, hsame, ← hmem, nativeBytes_nativeValue, hmem]

/-- Loading a number with the stride for an order gives its bytes in that order. -/
theorem loads_number {image : Image} {native order : Endian} {x : Nat}
    (hstride : image.memStride = strideFor native order)
    (hmem : image.mem = nativeBytes native image.convSize x) :
    Loads image (nativeBytes order image.convSize x) := by
  have hlen : image.mem.length = image.convSize := by rw [hmem, length_nativeBytes]
  by_cases horder : native = order
  · rw [strideFor, if_pos horder] at hstride
    rw [← horder, ← hmem]
    exact loads_forward hstride
  rw [strideFor, if_neg horder] at hstride
  have hreverse : nativeBytes order image.convSize x = image.mem.reverse := by
    cases native <;> cases order <;> simp_all [nativeBytes]
  rw [hreverse]
  exact loads_backward hstride hlen

/-- Behind a big endian number are its free bits. -/
theorem restBits_number {bits : Nat} (h : bits ≤ 8 * n) :
    restBits bits 0 (nativeBytes .big n (shiftedNumber n (8 * n - bits) invert x))
      = List.replicate (8 * ((bits + 7) / 8) - bits) invert := by
  have hbits : 8 * n = bits + (8 * n - bits) := by omega
  have hfree : descending (shiftedNumber n (8 * n - bits) invert x).testBit (8 * n - bits)
      = List.replicate (8 * n - bits) invert := by
    rw [← descending_const]
    refine descending_congr fun i hi => ?_
    rw [testBit_shiftedNumber (by omega), decide_eq_false (by omega), Bool.false_and,
      Bool.xor_false]
  rw [restBits, if_pos rfl, nativeBytes, bytesBits_reverse_leBytes, hbits, descending_add,
    ← hbits, hfree, drop_take, drop_left' (length_descending _ _), take_replicate,
    Nat.min_eq_left (by omega)]

end

/-! ## Strings of bits -/

theorem leBytes_complement (l : List Byte) :
    leBytes l.length (256 ^ l.length - 1 - leValue l) = l.map (~~~ ·) := by
  induction l with
  | nil => rfl
  | cons b l ih =>
    have hlt := leValue_lt l
    rw [length_cons, leBytes, leValue, Nat.pow_succ, map_cons]
    have hsplit : 256 ^ l.length * 256 - 1 - (b.toNat + 256 * leValue l)
        = 255 - b.toNat + 256 * (256 ^ l.length - 1 - leValue l) := by omega
    have hhead : BitVec.ofNat 8 (255 - b.toNat + 256 * (256 ^ l.length - 1 - leValue l)) = ~~~b := by
      apply BitVec.eq_of_toNat_eq
      rw [BitVec.toNat_ofNat, BitVec.toNat_not]
      omega
    have htail : (255 - b.toNat + 256 * (256 ^ l.length - 1 - leValue l)) / 256
        = 256 ^ l.length - 1 - leValue l := by omega
    rw [hsplit, hhead, htail, ih]

theorem nativeBytes_complement (e : Endian) (l : List Byte) :
    nativeBytes e l.length (256 ^ l.length - 1 - nativeValue e l) = l.map (~~~ ·) := by
  cases e with
  | little => exact leBytes_complement l
  | big =>
    have h := leBytes_complement l.reverse
    rw [length_reverse] at h
    rw [nativeBytes, nativeValue, h, map_reverse, reverse_reverse]

/-- A byte, inverted or not. -/
def flipByte (inverted : Bool) (b : Byte) : Byte := if inverted then ~~~b else b

theorem lowBits_flipByte (inverted : Bool) (b : Byte) :
    lowBits 8 (flipByte inverted b) = (lowBits 8 b).map (· ^^ inverted) := by
  revert inverted b
  decide +kernel

theorem map_flipByte_false (l : List Byte) : l.map (flipByte false) = l := map_id l

/-- A string that is not shifted: its bytes are inverted where it has the size of an integer. -/
theorem shiftInvert_binary (m : Machine) {style : PackStyle} {image : Image}
    (hshift : style.intermediateShift = 0)
    (hmem : IsIntSize image.convSize → image.mem.length = image.convSize) :
    shiftInvert m style image = { image with
        mem := image.mem.map (flipByte (style.invert && decide (IsIntSize image.convSize))) } := by
  by_cases hsize : IsIntSize image.convSize
  · rw [shiftInvert_number m style hsize (hmem hsize), decide_eq_true hsize, Bool.and_true,
      ← hmem hsize, hshift]
    have hmod : nativeValue m.native image.mem * 2 ^ 0 % 256 ^ image.mem.length
        = nativeValue m.native image.mem := by
      rw [Nat.pow_zero, Nat.mul_one, Nat.mod_eq_of_lt (nativeValue_lt m.native image.mem)]
    cases style.invert with
    | false =>
      rw [shiftedNumber, hmod, if_neg (by simp), nativeBytes_nativeValue, map_flipByte_false]
    | true =>
      rw [shiftedNumber, hmod, if_pos rfl, nativeBytes_complement]
      rfl
  · rw [decide_eq_false hsize, Bool.and_false, map_flipByte_false]
    unfold shiftInvert
    rw [if_neg hsize, ite_self]

/-! ## The fields -/

/-- The fields that the source can pack. -/
def Supported (f : Field) : Prop :=
  0 < f.bits ∧
  match f.basicType with
  | .binary => f.bits ≤ 8 * f.bytes
  | .unsignedInt => IsIntSize f.bytes ∧ f.bits ≤ 8 * f.bytes
  | .signedInt =>
    IsIntSize f.bytes ∧
    match f.encoding with
    | .twosComplement | .undefined => f.bits ≤ 8 * f.bytes
    | .signMagnitude | .onesComplement => f.bits ≤ 64
    | .bcdOctet => 8 ∣ f.bits ∧ f.bits ≤ 8 * maxBinarySize
    | .bcdPacked => 4 ∣ f.bits ∧ f.bits ≤ 8 * maxBinarySize
    | _ => False
  | .float =>
    match f.encoding with
    | .milstd1750a => f.bits = 32 ∨ f.bits = 48
    | .ieee754 | .undefined => f.bits = 32 ∨ f.bits = 64 ∨ f.bits = 128 ∨ f.bits = 8 * f.bytes
    | _ => False

/-- The order of the bytes of a field. Strings of bits have none. -/
def Field.order (f : Field) : Endian :=
  if f.basicType ≠ .binary ∧ f.byteOrder = .littleEndian then .little else .big

/-- The number of bits behind the field in its last byte. -/
def restWidth (bits : Nat) : Nat := 8 * ((bits + 7) / 8) - bits

/-- The half of a byte behind an odd number of packed digits. A value with too many digits may
have one more there, and one with even more is replaced by `0xFF`. -/
def packedPad (native : Endian) (f : Field) (src : List Byte) : List Bool :=
  let digits := signedIntPack native src .bcdPacked f.bits
  let last := if digits.length = (f.bits + 7) / 8 then digits.getLast?.getD 0 else 0xFF#8
  ((lowBits 8 last).drop 4).map (· ^^ (f.bitInvert && decide (IsIntSize digits.length)))

/-- The padding behind a field. -/
def trailingPad (native : Endian) (f : Field) (src : List Byte) : List Bool :=
  if f.basicType = .binary then ((bytesBits src).drop f.bits).take (restWidth f.bits)
  else if f.order = .little then []
  else if f.basicType = .signedInt ∧ f.encoding = .bcdPacked then
    (packedPad native f src).take (restWidth f.bits)
  else List.replicate (restWidth f.bits) f.bitInvert

/-- The style of a field with an intermediate value. -/
def Field.style (native : Endian) (f : Field) (intermediate : Option (BasicType × Nat)) :
    PackStyle :=
  let ref := refOf f intermediate
  let padBits := ref.2 * 8 - f.bits
  { byteOrder := if f.basicType = .binary then .undefined else f.byteOrder
    intermediate
    memStride :=
      if ref.1 = .binary then (if f.order = .little then -1 else 1) else strideFor native f.order
    leadingPadBits := if f.order = .little then padBits else 0
    intermediateShift := if ref.1 = .binary then 0 else padBits
    invert := if f.basicType = .binary then false else f.bitInvert }

theorem getPackStyle_eq {native : Endian} {f : Field} {intermediate : Option (BasicType × Nat)}
    (h : intermediateOf f = some intermediate) (hfit : f.bits ≤ 8 * (refOf f intermediate).2) :
    getPackStyle native f = some (f.style native intermediate) := by
  unfold getPackStyle
  rw [h]
  dsimp only
  rw [if_neg (by omega)]
  unfold Field.style Field.order
  by_cases hbinary : f.basicType = .binary
  · simp [hbinary]
  · by_cases hlittle : f.byteOrder = .littleEndian
    · simp [hbinary, hlittle]
    · simp [hbinary, hlittle]

section

variable {m : Machine} {f : Field} {src : List Byte} {intermediate : Option (BasicType × Nat)}

theorem restBits_of_dvd {bits leadingPadBits : Nat} (h : 8 ∣ bits) (order : List Byte) :
    restBits bits leadingPadBits order = [] := by
  unfold restBits
  split
  next =>
    rw [drop_take, show 8 * ((bits + 7) / 8) - bits = 0 by omega, take_zero]
  next => rfl

/-- What packing a field loads: the field is in there, and behind it the padding. -/
structure FieldLoads (m : Machine) (f : Field) (src : List Byte) (style : PackStyle)
    (order : List Byte) : Prop where
  packStyle : getPackStyle m.native f = some style
  loads : Loads (shiftInvert m style (encodeImage m f style src)) order
  holds : Holds f.bits style.leadingPadBits order
  rest : restBits f.bits style.leadingPadBits order = trailingPad m.native f src

/-- The bytes of the reference type hold the field. -/
theorem holds_style {order : List Byte} (hpos : 0 < f.bits)
    (hfit : f.bits ≤ 8 * (refOf f intermediate).2) (hlen : order.length = (refOf f intermediate).2) :
    Holds f.bits (f.style m.native intermediate).leadingPadBits order := by
  refine ⟨fun _ => by omega, fun hlead => ?_⟩
  simp only [Field.style] at hlead ⊢
  split at hlead
  next hlittle =>
    rw [if_pos hlittle]
    omega
  next => exact absurd rfl hlead

/-- Behind a little endian field, or a field of whole bytes, there is nothing. -/
theorem restBits_style_nil {order : List Byte} (hfit : f.bits ≤ 8 * (refOf f intermediate).2)
    (h : f.order = .little ∨ 8 ∣ f.bits) :
    restBits f.bits (f.style m.native intermediate).leadingPadBits order = [] := by
  by_cases hdvd : 8 ∣ f.bits
  · exact restBits_of_dvd hdvd order
  · have hlittle : f.order = .little := h.resolve_right hdvd
    simp only [Field.style, if_pos hlittle]
    rw [restBits, if_neg (by omega)]

theorem restWidth_of_dvd {bits : Nat} (h : 8 ∣ bits) : restWidth bits = 0 := by
  unfold restWidth
  omega

theorem trailingPad_nil (native : Endian) (hnumber : f.basicType ≠ .binary)
    (h : f.order = .little ∨ 8 ∣ f.bits) : trailingPad native f src = [] := by
  have hcase : ∀ l : List Bool, l.length ≤ restWidth f.bits →
      (if f.order = .little then [] else l) = [] := by
    intro l hl
    rcases h with hlittle | hdvd
    · exact if_pos hlittle
    · rw [restWidth_of_dvd hdvd, Nat.le_zero, length_eq_zero_iff] at hl
      rw [hl, ite_self]
  rw [trailingPad, if_neg hnumber]
  apply hcase
  split
  next => exact length_take_le _ _
  next => rw [length_replicate]

/-- A number is loaded in the order of its field. -/
theorem number_fieldLoads {mem : List Byte} (hinter : intermediateOf f = some intermediate)
    (hnumber : f.basicType ≠ .binary) (hkind : (refOf f intermediate).1 ≠ .binary)
    (hplain : ¬ (f.basicType = .signedInt ∧ f.encoding = .bcdPacked))
    (hsize : IsIntSize (refOf f intermediate).2) (hpos : 0 < f.bits)
    (hfit : f.bits ≤ 8 * (refOf f intermediate).2) (hmem : mem.length = (refOf f intermediate).2)
    (himage : encodeImage m f (f.style m.native intermediate) src
      = ⟨mem, (refOf f intermediate).2, (f.style m.native intermediate).memStride⟩) :
    FieldLoads m f src (f.style m.native intermediate) (nativeBytes f.order (refOf f intermediate).2
        (shiftedNumber (refOf f intermediate).2 (8 * (refOf f intermediate).2 - f.bits) f.bitInvert
          (nativeValue m.native mem))) := by
  have hstyle : (f.style m.native intermediate).memStride = strideFor m.native f.order ∧
      (f.style m.native intermediate).intermediateShift = 8 * (refOf f intermediate).2 - f.bits ∧
      (f.style m.native intermediate).invert = f.bitInvert := by
    simp only [Field.style]
    rw [if_neg hkind, if_neg hkind, if_neg hnumber, Nat.mul_comm]
    exact ⟨rfl, rfl, rfl⟩
  obtain ⟨hstride, hshift, hinvert⟩ := hstyle
  refine ⟨getPackStyle_eq hinter hfit, ?_, holds_style hpos hfit (length_nativeBytes _ _ _), ?_⟩
  · rw [himage, shiftInvert_number m _ hsize hmem, hshift, hinvert]
    exact loads_number hstride rfl
  · cases horder : f.order with
    | little =>
      rw [restBits_style_nil hfit (.inl horder), trailingPad_nil m.native hnumber (.inl horder)]
    | big =>
      have hlead : (f.style m.native intermediate).leadingPadBits = 0 := by
        simp only [Field.style]
        rw [horder, if_neg (by simp)]
      rw [hlead, restBits_number hfit, trailingPad, if_neg hnumber, horder, if_neg (by simp),
        if_neg hplain]
      rfl

/-- A string of bits is loaded as it is. -/
theorem binary_fieldLoads (hbinary : f.basicType = .binary) (hpos : 0 < f.bits)
    (hfit : f.bits ≤ 8 * f.bytes) (hsrc : src.length = f.bytes) :
    FieldLoads m f src (f.style m.native none) src := by
  have hinter : intermediateOf f = some none := by rw [intermediateOf, hbinary]
  have horder : f.order = .big := if_neg (fun h => h.1 hbinary)
  have himage : shiftInvert m (f.style m.native none)
      (encodeImage m f (f.style m.native none) src) = ⟨src, f.bytes, 1⟩ := by
    have href : (refOf f none).1 = .binary := hbinary
    have hstyle : (f.style m.native none).memStride = 1 ∧
        (f.style m.native none).intermediateShift = 0 ∧ (f.style m.native none).invert = false := by
      simp only [Field.style]
      rw [if_pos href, if_pos href, horder, if_neg (by simp), if_pos hbinary]
      exact ⟨rfl, rfl, rfl⟩
    obtain ⟨hstride, hshift, hinvert⟩ := hstyle
    have hencode : encodeImage m f (f.style m.native none) src = ⟨src, f.bytes, 1⟩ := by
      rw [← hstride]
      rfl
    rw [hencode, shiftInvert, if_neg]
    rw [hshift, hinvert]
    simp
  refine ⟨getPackStyle_eq hinter hfit, ?_, holds_style hpos hfit hsrc, ?_⟩
  · rw [himage]
    exact loads_forward rfl
  · simp only [Field.style]
    rw [horder, if_neg (by simp), restBits, if_pos rfl, drop_take, trailingPad, if_pos hbinary]
    rfl

/-- The intermediate value. -/
def converted (m : Machine) (f : Field) (src : List Byte) : List Byte :=
  match f.basicType with
  | .signedInt => signedIntPack m.native src f.encoding f.bits
  | .float => m.floatPack src f.encoding f.bits
  | _ => []

/-- What a conversion leaves: an image of the expected size, or the mark of a failure. -/
theorem encodeImage_some {kind : BasicType} {size : Nat} {style : PackStyle}
    (hstyle : style.intermediate = some (kind, size)) (hsize : size ≠ 0) :
    encodeImage m f style src =
      if (converted m f src).length = size then ⟨converted m f src, size, style.memStride⟩
      else ⟨0xFF#8 :: (converted m f src).tail, (converted m f src).length, 0⟩ := by
  rw [encodeImage, hstyle]
  dsimp only
  rw [if_neg hsize]
  show (if (converted m f src).length ≠ size then
      (⟨0xFF#8 :: (converted m f src).tail, (converted m f src).length, 0⟩ : Image)
    else ⟨converted m f src, (converted m f src).length, style.memStride⟩) = _
  by_cases h : (converted m f src).length = size
  · rw [if_neg (not_not_intro h), if_pos h, h]
  · rw [if_pos h, if_neg h]

/-- Whatever the value, there are bytes to load. -/
theorem loads_image (style : PackStyle) {image : Image} {size : Nat}
    (h : (image.mem.length = size ∧ image.convSize = size ∧
        (image.memStride = 1 ∨ image.memStride = -1)) ∨
      (image.memStride = 0 ∧ image.mem ≠ [])) :
    ∃ order, Loads (shiftInvert m style image) order ∧ order.length = size := by
  have hstride : (shiftInvert m style image).memStride = image.memStride := by
    unfold shiftInvert
    split <;> [split; skip] <;> rfl
  rcases h with ⟨hmem, hconv, hdir⟩ | ⟨hfailed, hmem⟩
  · -- the size does not change
    have hsize : (shiftInvert m style image).convSize = size ∧
        (shiftInvert m style image).mem.length = size := by
      unfold shiftInvert
      split <;> [split; skip]
      · exact ⟨hconv, (length_nativeBytes _ _ _).trans hconv⟩
      · exact ⟨hconv, hmem⟩
      · exact ⟨hconv, hmem⟩
    rcases hdir with hdir | hdir
    · exact ⟨_, loads_forward (hstride.trans hdir), hsize.2⟩
    · exact ⟨_, loads_backward (hstride.trans hdir) (hsize.2.trans hsize.1.symm),
        (length_reverse).trans hsize.2⟩
  · have hhead : ∃ byte, (shiftInvert m style image).mem.head? = some byte := by
      rw [← Option.isSome_iff_exists, isSome_head?]
      unfold shiftInvert
      split <;> [split; skip]
      next hsize =>
        have hpos : 0 < image.convSize := by
          rcases hsize with h | h | h | h <;> omega
        exact ne_nil_of_length_pos (by simpa using hpos)
      next => exact hmem
      next => exact hmem
    obtain ⟨byte, hbyte⟩ := hhead
    exact ⟨_, loads_constant (hstride.trans hfailed) hbyte size, length_replicate⟩

theorem style_memStride (native : Endian) (f : Field) (intermediate : Option (BasicType × Nat)) :
    (f.style native intermediate).memStride = 1 ∨ (f.style native intermediate).memStride = -1 := by
  simp only [Field.style, strideFor]
  split <;> split <;> simp

theorem binaryStyle_memStride (native : Endian) (f : Field) (size : Nat) :
    (f.style native (some (.binary, size))).memStride = if f.order = .little then -1 else 1 :=
  rfl

/-- Little endian fields and those of whole bytes need no more. -/
theorem whole_fieldLoads (hinter : intermediateOf f = some intermediate)
    (hnumber : f.basicType ≠ .binary) (hwhole : f.order = .little ∨ 8 ∣ f.bits) (hpos : 0 < f.bits)
    (hfit : f.bits ≤ 8 * (refOf f intermediate).2) (hsrc : src.length = f.bytes) :
    ∃ order, FieldLoads m f src (f.style m.native intermediate) order := by
  have hstride := style_memStride m.native f intermediate
  have himage : ∃ order, Loads (shiftInvert m (f.style m.native intermediate)
      (encodeImage m f (f.style m.native intermediate) src)) order ∧
        order.length = (refOf f intermediate).2 := by
    apply loads_image
    cases intermediate with
    | none => exact .inl ⟨hsrc, rfl, hstride⟩
    | some ref =>
      obtain ⟨kind, size⟩ := ref
      have hsize : size ≠ 0 := by
        rintro rfl
        exact absurd hfit (by show ¬ f.bits ≤ 0; omega)
      rw [encodeImage_some rfl hsize]
      split
      next hlen => exact .inl ⟨hlen, rfl, hstride⟩
      next => exact .inr ⟨rfl, cons_ne_nil _ _⟩
  obtain ⟨order, hloads, hlen⟩ := himage
  refine ⟨order, getPackStyle_eq hinter hfit, hloads, holds_style hpos hfit hlen, ?_⟩
  rw [restBits_style_nil hfit hwhole, trailingPad_nil m.native hnumber hwhole]

theorem restBits_half (init : List Byte) (last : Byte) :
    restBits (8 * init.length + 4) 0 (init ++ [last]) = (lowBits 8 last).drop 4 := by
  have hinit := length_bytesBits init
  rw [restBits, if_pos rfl, bytesBits_append, bytesBits_cons, bytesBits_nil, append_nil,
    show 8 * ((8 * init.length + 4 + 7) / 8) = (bytesBits init).length + 8 by omega,
    take_length_add_append, ← hinit, drop_length_add_append, take_of_length_le]
  simp

/-- An odd number of packed digits, the most significant one first. -/
theorem packed_fieldLoads (hsigned : f.basicType = .signedInt) (hpacked : f.encoding = .bcdPacked)
    (hbig : f.order = .big) (hhalf : f.bits % 8 = 4) (hmax : f.bits ≤ 8 * maxBinarySize) :
    ∃ order, FieldLoads m f src (f.style m.native (some (.binary, (f.bits + 7) / 8))) order := by
  have hinter : intermediateOf f = some (some (.binary, (f.bits + 7) / 8)) := by
    simp only [intermediateOf, hsigned, hpacked]
    rw [if_neg (by omega)]
  have hfit : f.bits ≤ 8 * (refOf f (some (.binary, (f.bits + 7) / 8))).2 := by
    show f.bits ≤ 8 * ((f.bits + 7) / 8)
    omega
  have hstride : (f.style m.native (some (.binary, (f.bits + 7) / 8))).memStride = 1 := by
    rw [binaryStyle_memStride, hbig, if_neg (by simp)]
  have hlead : (f.style m.native (some (.binary, (f.bits + 7) / 8))).leadingPadBits = 0 := by
    simp only [Field.style]
    rw [hbig, if_neg (by simp)]
  have hinvert : (f.style m.native (some (.binary, (f.bits + 7) / 8))).invert = f.bitInvert :=
    if_neg (by rw [hsigned]; simp)
  have hdigits : converted m f src = signedIntPack m.native src .bcdPacked f.bits := by
    rw [converted, hsigned, hpacked]
  -- the last byte, and what is inverted
  have hload : ∃ init last, init.length = (f.bits + 7) / 8 - 1 ∧
      Loads (shiftInvert m (f.style m.native (some (.binary, (f.bits + 7) / 8)))
        (encodeImage m f (f.style m.native (some (.binary, (f.bits + 7) / 8))) src))
        (init ++ [last]) ∧
      (lowBits 8 last).drop 4 = packedPad m.native f src := by
    have hflip : ∀ byte inverted, (lowBits 8 (flipByte inverted byte)).drop 4
        = ((lowBits 8 byte).drop 4).map (· ^^ inverted) := fun byte inverted => by
      rw [lowBits_flipByte, map_drop]
    rw [encodeImage_some rfl (by omega), hdigits, packedPad]
    generalize signedIntPack m.native src .bcdPacked f.bits = digits
    by_cases hlen : digits.length = (f.bits + 7) / 8
    · obtain ⟨init, last, rfl⟩ : ∃ init last, digits = init ++ [last] :=
        ⟨_, _, (dropLast_append_getLast (ne_nil_of_length_pos (by omega))).symm⟩
      rw [if_pos hlen, if_pos hlen, shiftInvert_binary m rfl (fun _ => hlen), hinvert, hlen,
        getLast?_append_cons, getLast?_singleton, Option.getD_some]
      rw [length_append, length_singleton] at hlen
      refine ⟨init.map (flipByte (f.bitInvert && decide (IsIntSize ((f.bits + 7) / 8)))), _, ?_, ?_,
        hflip last _⟩
      · rw [length_map]
        omega
      · rw [← map_singleton, ← map_append]
        exact loads_forward hstride
    · -- the mark of a failure is in every byte
      rw [if_neg hlen, if_neg hlen, shiftInvert_binary m rfl, hinvert]
      refine ⟨List.replicate ((f.bits + 7) / 8 - 1)
        (flipByte (f.bitInvert && decide (IsIntSize digits.length)) 0xFF#8), _,
        length_replicate, ?_, hflip 0xFF#8 _⟩
      · rw [← replicate_succ']
        exact loads_constant rfl rfl _
      · intro hsize
        have hpos : 0 < digits.length := by
          rcases hsize with h | h | h | h <;> simp only at h <;> omega
        simp only [length_cons, length_tail]
        omega
  obtain ⟨init, last, hinit, hloads, hpad⟩ := hload
  refine ⟨init ++ [last], getPackStyle_eq hinter hfit, hloads, holds_style (by omega) hfit ?_, ?_⟩
  · rw [length_append, length_singleton, hinit]
    show (f.bits + 7) / 8 - 1 + 1 = (f.bits + 7) / 8
    omega
  · have hbits : f.bits = 8 * init.length + 4 := by omega
    have hfour : (packedPad m.native f src).length ≤ restWidth f.bits := by
      rw [← hpad, length_drop, length_lowBits, restWidth]
      omega
    rw [hlead, trailingPad, if_neg (by rw [hsigned]; simp), if_neg (by rw [hbig]; simp),
      if_pos ⟨hsigned, hpacked⟩, take_of_length_le hfour, ← hpad, hbits, restBits_half]

/-- Packing a supported field loads bytes that hold it, and its padding behind it. -/
theorem exists_fieldLoads (hf : Supported f) (hsrc : src.length = f.bytes) :
    ∃ style order, FieldLoads m f src style order := by
  obtain ⟨hpos, hf⟩ := hf
  cases htype : f.basicType with
  | binary =>
    simp only [htype] at hf
    exact ⟨_, _, binary_fieldLoads htype hpos hf hsrc⟩
  | unsignedInt =>
    simp only [htype] at hf
    have hinter : intermediateOf f = some none := by rw [intermediateOf, htype]
    have hkind : (refOf f none).1 = .unsignedInt := htype
    exact ⟨_, _, number_fieldLoads hinter (by simp [htype]) (by simp [hkind]) (by simp [htype])
      hf.1 hpos hf.2 hsrc rfl⟩
  | signedInt =>
    simp only [htype] at hf
    obtain ⟨hsize, hf⟩ := hf
    have hdirect : f.encoding = .twosComplement ∨ f.encoding = .undefined →
        f.bits ≤ 8 * f.bytes → ∃ style order, FieldLoads m f src style order := by
      intro henc hfit
      have hinter : intermediateOf f = some none := by
        rcases henc with henc | henc <;> simp only [intermediateOf, htype, henc]
      have hkind : (refOf f none).1 = .signedInt := htype
      have hplain : f.encoding ≠ .bcdPacked := by rcases henc with henc | henc <;> simp [henc]
      exact ⟨_, _, number_fieldLoads hinter (by simp [htype]) (by simp [hkind])
        (fun h => hplain h.2) hsize hpos hfit hsrc rfl⟩
    have hencoded : f.encoding = .signMagnitude ∨ f.encoding = .onesComplement →
        f.bits ≤ 64 → ∃ style order, FieldLoads m f src style order := by
      intro henc hfit
      have hinter : intermediateOf f = some (some (.unsignedInt, 8)) := by
        rcases henc with henc | henc <;> simp only [intermediateOf, htype, henc]
      have hlen : (converted m f src).length = 8 := by
        rcases henc with henc | henc <;> simp only [converted, htype, henc, signedIntPack] <;>
          exact length_nativeBytes _ _ _
      have hplain : f.encoding ≠ .bcdPacked := by rcases henc with henc | henc <;> simp [henc]
      exact ⟨_, _, number_fieldLoads hinter (by simp [htype]) (by simp [refOf])
        (fun h => hplain h.2) (by simp [refOf, IsIntSize]) hpos hfit hlen
        (by rw [encodeImage_some rfl (by omega), if_pos hlen]; rfl)⟩
    have hbcd : f.encoding = .bcdOctet ∨ f.encoding = .bcdPacked →
        f.bits ≤ 8 * maxBinarySize → (f.order = .little ∨ 8 ∣ f.bits) →
          ∃ style order, FieldLoads m f src style order := by
      intro henc hmax hwhole
      have hinter : intermediateOf f = some (some (.binary, (f.bits + 7) / 8)) := by
        rcases henc with henc | henc <;> simp only [intermediateOf, htype, henc] <;>
          rw [if_neg (by omega)]
      exact ⟨_, whole_fieldLoads hinter (by simp [htype]) hwhole hpos
        (by show f.bits ≤ 8 * ((f.bits + 7) / 8); omega) hsrc⟩
    cases henc : f.encoding <;> simp only [henc] at hf
    case twosComplement => exact hdirect (.inl henc) hf
    case undefined => exact hdirect (.inr henc) hf
    case signMagnitude => exact hencoded (.inl henc) hf
    case onesComplement => exact hencoded (.inr henc) hf
    case bcdOctet => exact hbcd (.inl henc) hf.2 (.inr hf.1)
    case bcdPacked =>
      cases horder : f.order with
      | little => exact hbcd (.inr henc) hf.2 (.inl horder)
      | big =>
        by_cases hdvd : 8 ∣ f.bits
        · exact hbcd (.inr henc) hf.2 (.inr hdvd)
        · exact ⟨_, packed_fieldLoads htype henc horder (by omega) hf.2⟩
  | float =>
    simp only [htype] at hf
    have hwhole : 8 ∣ f.bits := by
      cases henc : f.encoding <;> simp only [henc] at hf <;> omega
    obtain ⟨intermediate, hinter, hfit⟩ : ∃ intermediate,
        intermediateOf f = some intermediate ∧ f.bits ≤ 8 * (refOf f intermediate).2 := by
      cases henc : f.encoding <;> simp only [henc] at hf <;>
        simp only [intermediateOf, htype, henc] <;> split_ifs <;>
        first | exact ⟨_, rfl, by simp only [refOf]; omega⟩ | omega
    exact ⟨_, whole_fieldLoads hinter (by simp [htype]) (.inr hwhole) hpos hfit hsrc⟩

end

/-! ## The frame -/

/-- Only the bits of a field differ between two buffers. -/
structure KeepsOthers (offset bits : Nat) (buffer buffer' : List Byte) : Prop where
  length : buffer'.length = buffer.length
  before : (bytesBits buffer').take offset = (bytesBits buffer).take offset
  after : (bytesBits buffer').drop (offset + bits) = (bytesBits buffer).drop (offset + bits)

section

variable {m : Machine} {f : Field} {src buffer order : List Byte} {style : PackStyle} {offset : Nat}

/-- The buffer after a field was packed. -/
theorem FieldLoads.packAt_eq (h : FieldLoads m f src style order)
    (hroom : offset + f.bits ≤ 8 * buffer.length) :
    ∃ buffer', packAt m f src buffer offset = some buffer' ∧
      bytesBits buffer' = (bytesBits buffer).take offset
        ++ fieldBits f.bits style.leadingPadBits order
        ++ orBits (spilled (offset + f.bits) (trailingPad m.native f src))
          ((bytesBits buffer).drop (offset + f.bits)) := by
  have hdiv : offset = 8 * (offset / 8) + offset % 8 := by omega
  obtain ⟨dst, hpack, hbits⟩ := packImage_eq h.loads h.holds (Nat.mod_lt offset (by omega))
    (show offset % 8 + f.bits ≤ 8 * (buffer.drop (offset / 8)).length by
      rw [length_drop]; omega)
  refine ⟨buffer.take (offset / 8) ++ dst, ?_, ?_⟩
  · rw [packAt, bitwisePack, h.packStyle]
    dsimp only
    rw [hpack, Option.map_some]
  · have hspilled : spilled (offset % 8 + f.bits) (trailingPad m.native f src)
        = spilled (offset + f.bits) (trailingPad m.native f src) := by
      rw [spilled, spilled, show (offset % 8 + f.bits) % 8 = (offset + f.bits) % 8 by omega]
    have hbefore : (bytesBits buffer).take (8 * (offset / 8))
        ++ ((bytesBits buffer).drop (8 * (offset / 8))).take (offset % 8)
          = (bytesBits buffer).take offset := by
      conv_rhs => rw [hdiv, take_add]
    rw [bytesBits_append, hbits, h.rest, hspilled, bytesBits_take, bytesBits_drop, drop_drop,
      show 8 * (offset / 8) + (offset % 8 + f.bits) = offset + f.bits by omega,
      ← append_assoc, ← append_assoc, hbefore]

/-- Packing keeps the other bits exactly if the buffer has ones where the padding, as far as it
falls in the last octet, has them. -/
theorem packAt_keepsOthers_iff (m : Machine) (f : Field) (src buffer : List Byte) (offset : Nat)
    (hf : Supported f) (hsrc : src.length = f.bytes) (hroom : offset + f.bits ≤ 8 * buffer.length) :
    ∃ buffer', packAt m f src buffer offset = some buffer' ∧
      (KeepsOthers offset f.bits buffer buffer' ↔
        ∀ i : Nat, (spilled (offset + f.bits) (trailingPad m.native f src))[i]? = some true →
          (bytesBits buffer)[offset + f.bits + i]? = some true) := by
  obtain ⟨style, order, hloads⟩ := exists_fieldLoads hf hsrc
  obtain ⟨buffer', hpack, hbits⟩ := hloads.packAt_eq hroom
  refine ⟨buffer', hpack, ?_⟩
  have hoffset : ((bytesBits buffer).take offset).length = offset := by
    rw [length_take, length_bytesBits]
    omega
  have hfield := length_fieldBits hloads.holds
  have hsum : ((bytesBits buffer).take offset ++ fieldBits f.bits style.leadingPadBits order).length
      = offset + f.bits := by rw [length_append, hoffset, hfield]
  have hlength : buffer'.length = buffer.length := by
    have h := congrArg List.length hbits
    rw [length_bytesBits, length_append, hsum, length_orBits, length_drop, length_bytesBits] at h
    omega
  have hbefore : (bytesBits buffer').take offset = (bytesBits buffer).take offset := by
    rw [hbits, append_assoc, take_left' hoffset]
  -- so it is the bits behind the field that matter
  have hafter : (bytesBits buffer').drop (offset + f.bits)
      = orBits (spilled (offset + f.bits) (trailingPad m.native f src))
        ((bytesBits buffer).drop (offset + f.bits)) := by
    rw [hbits, drop_left' hsum]
  have hfits : (spilled (offset + f.bits) (trailingPad m.native f src)).length
      ≤ ((bytesBits buffer).drop (offset + f.bits)).length := by
    have htake := length_take_le (8 - (offset + f.bits) % 8) (trailingPad m.native f src)
    rw [length_drop, length_bytesBits]
    unfold spilled
    split
    · simp
    · omega
  have hiff : KeepsOthers offset f.bits buffer buffer' ↔
      orBits (spilled (offset + f.bits) (trailingPad m.native f src))
        ((bytesBits buffer).drop (offset + f.bits)) = (bytesBits buffer).drop (offset + f.bits) :=
    ⟨fun h => hafter ▸ h.after, fun h => ⟨hlength, hbefore, hafter.trans h⟩⟩
  rw [hiff, orBits_eq_self_iff hfits]
  simp only [getElem?_drop]

end

/-- A little endian machine, without floating point conversions. -/
def littleHost : Machine := ⟨.little, fun _ _ _ => [], fun size _ _ _ => List.replicate size 0⟩

/-- An unsigned integer of twelve bits, the most significant ones first. -/
def twelveBits (bitInvert : Bool) : Field :=
  ⟨.unsignedInt, 12, 2, .unsignedInteger, .bigEndian, bitInvert⟩

theorem supported_twelveBits (bitInvert : Bool) : Supported (twelveBits bitInvert) :=
  ⟨show 0 < 12 by decide, .inr (.inl rfl), show 12 ≤ 16 by decide⟩

/-- Without the inversion the bits behind the field stay, whatever they are. -/
theorem packAt_keepsOthers_twelve :
    ∃ buffer', packAt littleHost (twelveBits false) [0x34#8, 0x12#8] [0x00#8, 0x05#8, 0xA5#8] 0
        = some buffer' ∧
      KeepsOthers 0 12 [0x00#8, 0x05#8, 0xA5#8] buffer' := by
  obtain ⟨buffer', hpack, hkeeps⟩ := packAt_keepsOthers_iff littleHost (twelveBits false)
    [0x34#8, 0x12#8] [0x00#8, 0x05#8, 0xA5#8] 0 (supported_twelveBits false) rfl (by decide)
  refine ⟨buffer', hpack, hkeeps.mpr fun i hi => ?_⟩
  have hpad : spilled (0 + 12) (trailingPad littleHost.native (twelveBits false) [0x34#8, 0x12#8])
      = List.replicate 4 false := by decide
  have hmem := mem_of_getElem? hi
  rw [show (twelveBits false).bits = 12 from rfl, hpad, mem_replicate] at hmem
  exact absurd hmem.2 (by simp)

/-- An inverted field of twelve bits sets the four bits behind it. -/
theorem packAt_inverted_clobbers : Supported (twelveBits true) ∧
      packAt littleHost (twelveBits true) [0x00#8, 0x00#8] [0x00#8, 0x00#8] 0
        = some [0xFF#8, 0xFF#8] ∧
      ¬ KeepsOthers 0 12 [0x00#8, 0x00#8] [0xFF#8, 0xFF#8] :=
  ⟨supported_twelveBits true, by decide +kernel, fun h => absurd h.after (by decide)⟩

end CfsEds.Edslib.Pack
