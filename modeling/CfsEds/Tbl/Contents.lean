import CfsEds.Tbl.Bounds
import CfsEds.Tbl.Validated

/-!
# What a load leaves in the buffers

The functions between a table file and the active buffer, by the bytes they leave behind.
`Filled b v` says that buffer `b` is `v` now and that all others are as they were. A file
that `CFE_TBL_LoadFromFile` reads to its end (`FileRead`) either brings the whole table,
and then its data are unpacked over the working buffer, or a part of it, and then the
working buffer stays as it was although the load goes on.
-/

namespace CfsEds.Tbl

open CfsEds.Lib.Faults List Function

variable {work : BufRef} {data : Bytes} {hdr : FileHdr} {std : FsHeader} {name : List Char}
  {status : Status} {f : TableFile} {info : TypeInfo}

/-! ## Patches -/

theorem patch_nil (bytes : Bytes) (offset : Nat) : patch bytes offset [] = bytes := by
  simp [patch]

/-- What stands at the start of a patched buffer. -/
theorem take_patch_zero (bytes : Bytes) {n : Nat} (h : n ≤ data.length) :
    (patch bytes 0 data).take n = data.take n := by
  rw [patch, take_zero, nil_append, take_append_of_le_length h]

/-- A second patch of the same length covers the first. -/
theorem patch_patch_zero (bytes : Bytes) {data' : Bytes} (h : data.length = data'.length) :
    patch (patch bytes 0 data) 0 data' = patch bytes 0 data' := by
  simp [patch, ← h]

/-! ## Decoding -/

namespace EdsLib

variable (eds : EdsLib)

/-- Unpacking and verifying of an object: whether both succeed, and the native object that
they leave. -/
def decode (edsId : Nat) (native packed : Bytes) (bits : Nat) : Bool × Bytes :=
  let unpacked := eds.unpackPartialObject edsId native packed bits
  if unpacked.ok then eds.verifyUnpackedObject unpacked.edsId unpacked.native packed
  else (false, unpacked.native)

theorem length_decode (edsId : Nat) (native packed : Bytes) (bits : Nat) :
    (eds.decode edsId native packed bits).2.length = native.length := by
  unfold decode
  dsimp only
  split
  · rw [eds.length_verify, eds.length_unpack]
  · rw [eds.length_unpack]

/-- The sizes that the library goes by: it does not read behind the packed size of a type,
refuses a native object that is too short for the type, and fills the packed size. -/
structure Sizes : Prop where
  reads : ∀ {edsId : Nat} {info : TypeInfo}, eds.getTypeInfo edsId = some info →
    ∀ native packed packed', packed.take info.packedSize = packed'.take info.packedSize →
      eds.decode edsId native packed info.bits = eds.decode edsId native packed' info.bits
  fits : ∀ {edsId : Nat} {info : TypeInfo}, eds.getTypeInfo edsId = some info →
    ∀ native packed, (eds.decode edsId native packed info.bits).1 = true →
      info.bytes ≤ native.length
  packs : ∀ {edsId : Nat} {info : TypeInfo}, eds.getTypeInfo edsId = some info →
    ∀ native, (eds.packCompleteObject edsId native info.bits).1 = true →
      (eds.packCompleteObject edsId native info.bits).2.length = info.packedSize

end EdsLib

/-! ## Buffers -/

/-- Buffer `b` has become `v`; the other buffers, the records and the handles are as they
were. -/
structure Filled (b : BufRef) (v : LoadBuff) (s s' : TblState) : Prop where
  buffers : s'.buffers = Function.update s.buffers b v
  registry : s'.registry = s.registry
  handles : s'.handles = s.handles

namespace Filled

variable {b : BufRef} {v w : LoadBuff} {s s' s'' : TblState}

theorem self (h : Filled b v s s') : s'.buffers b = v := by
  rw [h.buffers, update_self]

theorem other (h : Filled b v s s') {c : BufRef} (hc : c ≠ b) : s'.buffers c = s.buffers c := by
  rw [h.buffers, update_of_ne hc]

theorem trans (h : Filled b v s s') (h' : Filled b w s' s'') : Filled b w s s'' where
  buffers := by rw [h'.buffers, h.buffers, update_idem]
  registry := h'.registry.trans h.registry
  handles := h'.handles.trans h.handles

theorem setBuff (s : TblState) (b : BufRef) (v : LoadBuff) : Filled b v s (s.setBuff b v) :=
  ⟨rfl, rfl, rfl⟩

theorem refl (s : TblState) (b : BufRef) : Filled b (s.buffers b) s s :=
  ⟨(update_eq_self b s.buffers).symm, rfl, rfl⟩

end Filled

section Contents

variable {cfg : TblConfig} {eds : EdsLib} {s : TblState} {t : Nat} {b : BufRef}

theorem writeBytes_filled {offset : Nat}
    (hfit : offset + data.length ≤ (s.buffers b).bytes.length ∨ data = []) :
    Completes (writeBytes b offset data)
      (fun _ s' => Filled b { s.buffers b with bytes := patch (s.buffers b).bytes offset data } s s')
      s := by
  simp only [Completes, writeBytes, wp_bind, wp_get]
  split
  · rename_i hnil
    rw [hnil, patch_nil]
    exact .refl s b
  rename_i hdata
  have hfit := hfit.resolve_right hdata
  simp only [hfit, if_true, modifyBuff, note, wp_bind, wp_modify]
  exact ⟨rfl, rfl, rfl⟩

/-- What a file is unpacked to stands at the start of the buffer. -/
theorem decodeFromMemory_filled {packed : Bytes} {edsId : Nat}
    (hinfo : eds.getTypeInfo edsId = some info) :
    Completes (decodeFromMemory cfg eds packed edsId b t) (fun _ s' => ∃ v, Filled b v s s' ∧
        v.bytes = patch (s.buffers b).bytes 0 (eds.decode edsId (image s t b) packed info.bits).2 ∧
        v.crc = if (eds.decode edsId (image s t b) packed info.bits).1
          then cfg.calculateCRC (v.bytes.take info.bytes) else (s.buffers b).crc) s := by
  have himage : (s.buffers b).bytes.take (s.registry t).size = image s t b := rfl
  have hlength : (image s t b).length ≤ (s.buffers b).bytes.length := by
    simp [image]
  have hunpacked := eds.length_unpack edsId (image s t b) packed info.bits
  unfold decodeFromMemory
  simp only [hinfo, Completes, wp_bind, wp_get, modifyBuff, wp_modify, himage]
  refine wp_imp (writeBytes_filled (.inl ?_)) fun _ s₁ h₁ => ?_
  · rw [hunpacked, Nat.zero_add]
    simpa using hlength
  have hfilled₁ := (Filled.setBuff s b _).trans h₁
  cases hok : (eds.unpackPartialObject edsId (image s t b) packed info.bits).ok with
  | false =>
    refine ⟨_, hfilled₁, ?_, ?_⟩
    · simp [EdsLib.decode, hok]
    · simp [EdsLib.decode, hok]
  | true =>
    -- the verified object replaces the unpacked one, which is as long
    have hdecode : eds.decode edsId (image s t b) packed info.bits = eds.verifyUnpackedObject
          (eds.unpackPartialObject edsId (image s t b) packed info.bits).edsId
          (eds.unpackPartialObject edsId (image s t b) packed info.bits).native packed := by
      simp [EdsLib.decode, hok]
    have hverified := eds.length_decode edsId (image s t b) packed info.bits
    simp only [Bool.not_true, Bool.false_eq_true, if_false, wp_bind, ← hdecode]
    refine wp_imp (writeBytes_filled (.inl ?_)) fun _ s₂ h₂ => ?_
    · rw [hverified, Nat.zero_add, h₁.self, length_patch]
      · simpa using hlength
      · rw [hunpacked, Nat.zero_add]
        simpa using hlength
    have hfilled₂ := hfilled₁.trans h₂
    have hbytes : patch (s₁.buffers b).bytes 0 (eds.decode edsId (image s t b) packed info.bits).2 =
        patch (s.buffers b).bytes 0 (eds.decode edsId (image s t b) packed info.bits).2 := by
      rw [h₁.self]
      simp only [TblState.setBuff, update_self]
      exact patch_patch_zero _ (hunpacked.trans hverified.symm)
    cases hd : (eds.decode edsId (image s t b) packed info.bits).1 with
    | false =>
      refine ⟨_, hfilled₂, hbytes, ?_⟩
      simp [h₁.self]
    | true =>
      refine ⟨_, hfilled₂.trans (Filled.setBuff s₂ b _), ?_, ?_⟩
      · rw [h₂.self]
        exact hbytes
      · simp

/-! ## Files -/

/-- A file that `CFE_TBL_LoadFromFile` reads to its end. -/
structure FileRead (cfg : TblConfig) (eds : EdsLib) (name : List Char) (f : TableFile)
    (std : FsHeader) (hdr : FileHdr) (info : TypeInfo) : Prop
    extends FileAccepted cfg eds name f std hdr info where
  complete : f.complete hdr.numBytes = true
  ends : f.hasExtraByte hdr.numBytes = false

/-- The file brings the whole packed table. -/
def FileHdr.IsWhole (hdr : FileHdr) (info : TypeInfo) : Prop :=
  hdr.offset = 0 ∧ info.packedSize ≤ hdr.numBytes.toNat

instance (hdr : FileHdr) (info : TypeInfo) : Decidable (hdr.IsWhole info) :=
  inferInstanceAs (Decidable (_ ∧ _))

theorem loadWarning_eq_success : loadWarning hdr info.packedSize = .success ↔ hdr.IsWhole info := by
  unfold loadWarning FileHdr.IsWhole
  split
  · rename_i hoffset
    exact ⟨fun hwarn => (by cases hwarn), fun hwhole => absurd hwhole.1 hoffset⟩
  rename_i hoffset
  have hoffset : hdr.offset = 0 := not_not.1 hoffset
  split
  · exact ⟨fun hwarn => (by cases hwarn), fun hwhole => absurd hwhole.2 (by omega)⟩
  · exact ⟨fun _ => ⟨hoffset, by omega⟩, fun _ => rfl⟩

theorem loadWarning_isGood (hdr : FileHdr) (size : Nat) : (loadWarning hdr size).isGood = true := by
  unfold loadWarning
  split
  · rfl
  · split <;> rfl

/-- The data of a file that is read to its end. -/
theorem FileRead.length_read (hfile : FileRead cfg eds name f std hdr info) :
    (f.read hdr.numBytes).length = hdr.numBytes.toNat := by
  have hcount := hfile.complete
  simp only [TableFile.complete, TableFile.readCount, beq_iff_eq] at hcount
  have hle := f.length_read_le hdr.numBytes
  split at hcount
  · omega
  · exact hcount

/-- There is one pair of headers in a file, and one size for a type. -/
theorem FileAccepted.unique {std' : FsHeader} {hdr' : FileHdr} {info' : TypeInfo}
    (h : FileAccepted cfg eds name f std hdr info)
    (h' : FileAccepted cfg eds name f std' hdr' info') : hdr = hdr' ∧ info = info' := by
  obtain ⟨-, rfl⟩ := Prod.mk.inj (Except.ok.inj (h.headers.symm.trans h'.headers))
  exact ⟨rfl, Option.some.inj (h.typeInfo.symm.trans h'.typeInfo)⟩

theorem readHeaders_error {e : Status} (h : readHeaders f = .error e) : e.isGood = false := by
  unfold readHeaders at h
  split at h
  · cases h; rfl
  split at h
  · cases h; rfl
  split at h
  · cases h; rfl
  · split at h
    · cases h; rfl
    · cases h

/-- A file that can be read is in the buffer, and the status is a warning unless it was all. -/
theorem loadFromFile_filled (hfile : FileRead cfg eds (s.registry t).name f std hdr info)
    (hfit : ¬Exceeds f hdr (s.buffers b).bytes.length) :
    Completes (loadFromFile cfg eds f b t)
      (fun r s' => r = loadWarning hdr info.packedSize ∧ ∃ v, Filled b v s s' ∧
        v.bytes = patch (s.buffers b).bytes hdr.offset.toNat (f.read hdr.numBytes) ∧
        v.edsContentId = hdr.edsId) s := by
  have hfilename := hfile.filename
  have hsize := hfile.size
  unfold loadFromFile
  simp only [Completes, wp_bind, wp_get]
  rw [if_neg (by omega), if_neg (by simp [hfile.opens]), hfile.headers]
  dsimp only
  rw [hfile.typeInfo]
  dsimp only
  rw [if_neg (not_not.2 hfile.tableName), if_neg (by omega)]
  unfold readTableData
  rw [wp_bind]
  have hwrite : hdr.offset.toNat + (f.read hdr.numBytes).length ≤ (s.buffers b).bytes.length ∨
      f.read hdr.numBytes = [] := by
    by_cases hnil : f.read hdr.numBytes = []
    · exact .inr hnil
    · refine .inl ?_
      by_contra hout
      exact hfit ⟨hnil, by omega⟩
  refine wp_imp (writeBytes_filled hwrite) fun _ s₁ h₁ => ?_
  simp only [hfile.complete, hfile.ends, Bool.not_true, Bool.false_eq_true, if_false, modifyBuff,
    wp_bind, wp_modify, wp_pure]
  refine ⟨trivial, _, h₁.trans (Filled.setBuff s₁ b _), ?_, rfl⟩
  simp [h₁.self]

/-- Any other file is refused, although some of it may have been read. -/
theorem loadFromFile_refused
    (hfile : ∀ std hdr info, ¬FileRead cfg eds (s.registry t).name f std hdr info)
    (hfit : ∀ std hdr info, FileAccepted cfg eds (s.registry t).name f std hdr info →
      ¬Exceeds f hdr (s.buffers b).bytes.length) :
    Completes (loadFromFile cfg eds f b t) (fun r s' => r.isGood = false ∧ Touched {b} s s') s := by
  have htouched := loadFromFile_completes hfit
  have hbad : wp (loadFromFile cfg eds f b t) (fun r _ => r.isGood = false) (fun _ => True) s := by
    unfold loadFromFile
    simp only [wp_bind, wp_get]
    split
    · rfl
    rename_i hfilename
    split
    · rfl
    rename_i hopens
    split
    · rename_i e hread
      exact readHeaders_error hread
    rename_i std hdr hread
    split
    · rfl
    rename_i info hinfo
    split
    · rfl
    rename_i hname
    split
    · rfl
    rename_i hsize
    have haccepted : FileAccepted cfg eds (s.registry t).name f std hdr info :=
      ⟨by omega, by simpa using hopens, hread, hinfo, not_not.1 hname, by omega⟩
    unfold readTableData
    rw [wp_bind]
    refine wp_mono (writeFile_completes (hfit std hdr info haccepted))
      (fun _ s₁ _ => ?_) (fun _ h => h.elim)
    split
    · rfl
    rename_i hcomplete
    split
    · rfl
    · rename_i hends
      exact absurd ⟨haccepted, by simpa using hcomplete, by simpa using hends⟩ (hfile std hdr info)
  exact wp_mono (wp_and hbad htouched) (fun _ _ h => h) (fun _ h => h.2)

/-! ## The working buffer -/

/-- The decoding of the data of a file over previous contents: they take their place in the
packed form of these, which is unpacked. -/
def fileDecode (eds : EdsLib) (prev : Bytes) (f : TableFile) (hdr : FileHdr) (info : TypeInfo) :
    Bool × Bytes :=
  eds.decode hdr.edsId prev
    (patch (eds.packCompleteObject hdr.edsId prev info.bits).2 hdr.offset.toNat
      (f.read hdr.numBytes)) info.bits

/-- What a file that is read to its end leaves in the working buffer. -/
def writtenImage (eds : EdsLib) (prev : Bytes) (f : TableFile) (hdr : FileHdr) (info : TypeInfo) :
    Bytes :=
  if hdr.IsWhole info then (fileDecode eds prev f hdr info).2 else prev

/-- The CRC it leaves there. -/
def writtenCrc (cfg : TblConfig) (eds : EdsLib) (prev : Bytes) (f : TableFile) (hdr : FileHdr)
    (info : TypeInfo) (crc : BitVec 32) : BitVec 32 :=
  if hdr.IsWhole info ∧ (fileDecode eds prev f hdr info).1 = true then
    cfg.calculateCRC ((fileDecode eds prev f hdr info).2.take info.bytes)
  else crc

/-- The data of a whole file cover all that is unpacked. -/
theorem FileRead.decode_eq (hsizes : eds.Sizes) (hfile : FileRead cfg eds name f std hdr info)
    (hwhole : hdr.IsWhole info) (prev scratch : Bytes) :
    eds.decode hdr.edsId prev (patch scratch hdr.offset.toNat (f.read hdr.numBytes)) info.bits =
      fileDecode eds prev f hdr info := by
  have hlength : info.packedSize ≤ (f.read hdr.numBytes).length := by
    rw [hfile.length_read]
    exact hwhole.2
  refine hsizes.reads hfile.typeInfo _ _ _ ?_
  rw [hwhole.1]
  exact (take_patch_zero _ hlength).trans (take_patch_zero _ hlength).symm

/-- The scratch buffer is unpacked into the working buffer if the file is whole. -/
theorem loadScratch_written (hsizes : eds.Sizes) {i : Nat} (hne : work ≠ .shared i)
    (hfile : FileRead cfg eds (s.registry t).name f std hdr info)
    (hfit : ¬Exceeds f hdr (s.buffers (.shared i)).bytes.length)
    (hlength : (s.registry t).size ≤ (s.buffers work).bytes.length) :
    Completes (loadScratch cfg eds f work t i) (fun r s' => r = loadWarning hdr info.packedSize ∧
        image s' t work = writtenImage eds (image s t work) f hdr info ∧
        (s'.buffers work).crc =
          writtenCrc cfg eds (image s t work) f hdr info (s.buffers work).crc) s := by
  unfold loadScratch
  simp only [Completes, wp_bind, wp_get]
  refine wp_imp (loadFromFile_filled hfile hfit) fun status s₁ h₁ => ?_
  obtain ⟨rfl, v, hv, hbytes, hid⟩ := h₁
  have himage : image s₁ t work = image s t work := by
    unfold image
    rw [hv.other hne, hv.registry]
  by_cases hwhole : hdr.IsWhole info
  · -- the file is whole: what is unpacked replaces the image
    have hstatus := loadWarning_eq_success.2 hwhole
    simp only [hstatus, onlyIf, beq_self_eq_true, if_true, wp_bind, hv.self, hid, hbytes]
    refine wp_imp (decodeFromMemory_filled hfile.typeInfo) fun _ s₂ h₂ => ?_
    obtain ⟨w, hw, hwbytes, hwcrc⟩ := h₂
    rw [himage, hfile.decode_eq hsizes hwhole, hv.other hne] at hwbytes
    rw [himage, hfile.decode_eq hsizes hwhole, hv.other hne] at hwcrc
    have hdecoded : (fileDecode eds (image s t work) f hdr info).2.length = (s.registry t).size := by
      unfold fileDecode
      rw [eds.length_decode]
      simpa [image] using hlength
    simp only [wp_pure, modifyBuff, wp_modify]
    refine ⟨trivial, ?_, ?_⟩
    · change ((s₂.setBuff work _).buffers work).bytes.take ((s₂.setBuff work _).registry t).size = _
      simp only [TblState.setBuff, update_self, hw.self, hw.registry, hv.registry, hwbytes,
        writtenImage, hwhole, if_true]
      rw [take_patch_zero _ hdecoded.ge]
      exact take_of_length_le hdecoded.le
    · simp only [TblState.setBuff, update_self, hw.self, hwcrc, writtenCrc, hwhole, true_and]
      split
      · rename_i hok
        have hfits := hsizes.fits hfile.typeInfo _ _ hok
        have hnative : (image s t work).length = (s.registry t).size := by
          simpa [image] using hlength
        rw [hwbytes, take_patch_zero]
        rw [hdecoded, ← hnative]
        exact hfits
      · rfl
  · -- a part only: nothing is unpacked
    have hstatus : (loadWarning hdr info.packedSize == .success) = false := by
      simpa using fun h => hwhole (loadWarning_eq_success.1 h)
    simp only [hstatus, onlyIf, Bool.false_eq_true, if_false, wp_pure, modifyBuff, wp_modify]
    refine ⟨trivial, ?_, ?_⟩
    · simp only [writtenImage, hwhole, if_false, image, TblState.setBuff, update_self]
      rw [hv.other hne]
      simp [hv.registry]
    · simp [writtenCrc, hwhole, hv.other hne]

/-- The status of a file that is read to its end. A first load must start at offset 0. -/
def readStatus (hdr : FileHdr) (info : TypeInfo) (loadedOnce : Bool) : Status :=
  if hdr.offset ≠ 0 ∧ loadedOnce = false then .errPartialLoad
  else loadWarning hdr info.packedSize

theorem loadWarning_eq_partial {size : Nat} :
    loadWarning hdr size = .warnPartialLoad ↔ hdr.offset ≠ 0 := by
  unfold loadWarning
  split
  · rename_i hoffset
    exact ⟨fun _ => hoffset, fun _ => rfl⟩
  · rename_i hoffset
    refine ⟨fun hwarn => ?_, fun hne => absurd hne hoffset⟩
    split at hwarn <;> cases hwarn

theorem loadData_written (hsizes : eds.Sizes) {i : Nat} (hi : findFreeLoadBuff cfg s = some i)
    (hne : work ≠ .shared i) (hfile : FileRead cfg eds (s.registry t).name f std hdr info)
    (hfit : ¬Exceeds f hdr (s.buffers (.shared i)).bytes.length)
    (hlength : (s.registry t).size ≤ (s.buffers work).bytes.length) :
    Completes (loadData cfg eds (.file f) work t)
      (fun r s' => r = readStatus hdr info (s.registry t).tableLoadedOnce ∧
        image s' t work = writtenImage eds (image s t work) f hdr info ∧
        (s'.buffers work).crc =
          writtenCrc cfg eds (image s t work) f hdr info (s.buffers work).crc) s := by
  have htouched : wp (loadScratch cfg eds f work t i) _ _ _ := loadScratch_touches cfg eds f work t i
    (s.setBuff (.shared i) { s.buffers (.shared i) with taken := true })
  have himage : image (s.setBuff (.shared i) { s.buffers (.shared i) with taken := true }) t work =
      image s t work := by
    simp [image, hne]
  have hwork : (s.setBuff (.shared i) { s.buffers (.shared i) with taken := true }).buffers work =
      s.buffers work := by
    simp [hne]
  have hwritten : Completes (loadScratch cfg eds f work t i) _
      (s.setBuff (.shared i) { s.buffers (.shared i) with taken := true }) :=
    loadScratch_written hsizes hne (by simpa using hfile)
      (by simpa using hfit) (by simpa [hwork] using hlength)
  rw [himage, hwork] at hwritten
  unfold loadData loadFromFileAndDecode
  simp only [Completes, wp_bind, wp_get, hi, modifyBuff, wp_modify, wp_pure]
  refine wp_mono (wp_and hwritten htouched) (fun r s₁ h₁ => ?_) (fun _ h => h.1)
  obtain ⟨⟨rfl, himage₁, hcrc₁⟩, htouched₁⟩ := h₁
  have hregistry : s₁.registry = s.registry := htouched₁.registry
  refine ⟨?_, ?_, ?_⟩
  · simp only [TblState.setBuff_registry, hregistry, readStatus, loadWarning_eq_partial]
    simp
  · rw [← himage₁]
    simp [image, hne]
  · rw [← hcrc₁]
    simp [hne]

/-- A file that is refused leaves the working buffer as it was. -/
theorem loadData_refused (hfile : ∀ i std hdr info, findFreeLoadBuff cfg s = some i →
      ¬FileRead cfg eds (s.registry t).name f std hdr info)
    (hwork : ∀ i, findFreeLoadBuff cfg s = some i → work ≠ .shared i)
    (hfit : ∀ i std hdr info, findFreeLoadBuff cfg s = some i →
      FileAccepted cfg eds (s.registry t).name f std hdr info →
      ¬Exceeds f hdr (s.buffers (.shared i)).bytes.length) :
    Completes (loadData cfg eds (.file f) work t)
      (fun r s' => r.isGood = false ∧ image s' t work = image s t work) s := by
  unfold loadData loadFromFileAndDecode loadScratch
  simp only [Completes, wp_bind, wp_get]
  cases hi : findFreeLoadBuff cfg s with
  | none => simp [Status.isGood]
  | some i =>
    have hne := hwork i hi
    simp only [modifyBuff, wp_bind, wp_get, wp_modify, wp_pure]
    refine wp_imp (loadFromFile_refused ?_ ?_) fun r s₁ h₁ => ?_
    · intro std hdr info
      simpa using hfile i std hdr info hi
    · intro std hdr info haccepted
      simpa using hfit i std hdr info hi (by simpa using haccepted)
    · obtain ⟨hbad, htouched⟩ := h₁
      have hne_success : (r == .success) = false := by
        cases r <;> first | rfl | cases hbad
      have hne_partial : r ≠ .warnPartialLoad := by
        rintro rfl
        cases hbad
      simp only [onlyIf, hne_success, Bool.false_eq_true, if_false, wp_pure, hne_partial, false_and]
      refine ⟨hbad, ?_⟩
      have hsame := htouched.frame work (by simpa using hne)
      simp [image, hne, hsame, htouched.registry]

/-! ## Taking and giving up the working buffer -/

/-- The active buffer of a table. -/
def activeBuffer (s : TblState) (t : Nat) : BufRef := .own t (s.registry t).activeBufferIndex

/-- The active contents of a table. -/
def activeImage (s : TblState) (t : Nat) : Bytes := image s t (activeBuffer s t)

/-- A load starts with the active contents, or on them. -/
theorem copyActive_image (hactive : (s.buffers (activeBuffer s t)).bytes.length = (s.registry t).size)
    (hfit : (s.registry t).size ≤ (s.buffers b).bytes.length) :
    Completes (copyActive t b) (fun _ s' => image s' t b = activeImage s t ∧
      (s'.buffers b).crc = (s.buffers b).crc) s := by
  simp only [Completes, copyActive, wp_bind, wp_get]
  split
  · rename_i hb
    rw [hb]
    exact ⟨rfl, rfl⟩
  have hdata : ((s.buffers (.own t (s.registry t).activeBufferIndex)).bytes.take
      (s.registry t).size).length = (s.registry t).size := by
    rw [length_take]
    unfold activeBuffer at hactive
    omega
  refine wp_imp (writeBytes_filled (.inl ?_)) fun _ s₁ h₁ => ?_
  · omega
  · refine ⟨?_, ?_⟩
    · rw [image, h₁.self, h₁.registry, take_patch_zero _ hdata.ge, take_take, Nat.min_self]
      rfl
    · rw [h₁.self]

theorem getWorkingBuffer_image (hinv : SizeInv cfg s) (hsized : TableSized cfg s t)
    (htable : TableInv s.handles (s.registry t)) (calledByApp : Bool)
    (hlip : (s.registry t).loadInProgress = none) :
    Completes (getWorkingBuffer cfg t calledByApp)
      (fun r s' => ∀ b, r = .ok b → image s' t b = activeImage s t ∧
        (s'.buffers b).crc = (s.buffers b).crc) s := by
  have hactive := (own_length hsized htable).1
  have hfits : ∀ b, workingBuffer cfg s t calledByApp = some b →
      (s.registry t).size ≤ (s.buffers b).bytes.length :=
    fun _ => size_le_workingBuffer hinv hsized htable
  have hdirect : BufRef.own t (if (s.registry t).doubleBuffered = true then
      (s.registry t).activeBufferIndex else 0) = activeBuffer s t := by
    unfold activeBuffer
    cases hdouble : (s.registry t).doubleBuffered with
    | true => rfl
    | false => rw [htable.single hdouble]; rfl
  unfold workingBuffer at hfits
  unfold Completes getWorkingBuffer
  simp only [wp_bind, wp_get, hlip] at hfits ⊢
  split
  · rw [hdirect]
    intro b hb
    obtain rfl := Except.ok.inj hb
    exact ⟨rfl, rfl⟩
  rename_i hlater
  rw [if_neg hlater] at hfits
  split
  · rename_i hdouble
    simp only [hdouble, if_true] at hfits
    split
    · intro b hb
      cases hb
    rename_i hfree
    rw [if_neg hfree] at hfits
    simp only [modifyReg, wp_bind, wp_modify, wp_pure]
    refine wp_imp (copyActive_image ?_ ?_) fun _ s₁ h₁ b hb => ?_
    · simpa [activeBuffer] using hactive
    · simpa using hfits _ rfl
    · obtain rfl := Except.ok.inj hb
      simpa [activeImage, activeBuffer, image] using h₁
  · rename_i hsingle
    rw [if_neg hsingle] at hfits
    split
    · intro b hb
      cases hb
    rename_i i hfree
    rw [hfree] at hfits
    simp only [modifyBuff, modifyReg, wp_bind, wp_modify, wp_pure]
    refine wp_imp (copyActive_image ?_ ?_) fun _ s₁ h₁ b hb => ?_
    · simpa [activeBuffer] using hactive
    · simpa using hfits _ rfl
    · obtain rfl := Except.ok.inj hb
      simpa [activeImage, activeBuffer, image] using h₁

/-- The validation function of the table does not accept an image. -/
def Rejects (s : TblState) (t : Nat) (vf : Bytes → Int) (img : Bytes) : Prop :=
  (s.registry t).validationFunc = true ∧ vf img ≠ 0

instance (s : TblState) (t : Nat) (vf : Bytes → Int) (img : Bytes) : Decidable (Rejects s t vf img) :=
  inferInstanceAs (Decidable (_ ∧ _))

/-- A rejected image is cleared. -/
theorem validateLoad_rejected {vf : Bytes → Int} (hgood : status.isGood = true)
    (hrejects : Rejects s t vf (image s t b))
    (hfit : (s.registry t).size ≤ (s.buffers b).bytes.length) :
    Completes (validateLoad vf b t status)
      (fun r s' => r.isGood = false ∧ image s' t b = List.replicate (s.registry t).size 0 ∧
        (∀ c, c ≠ b → s'.buffers c = s.buffers c) ∧ s'.registry = s.registry) s := by
  have himage : (s.buffers b).bytes.take (s.registry t).size = image s t b := rfl
  unfold validateLoad
  simp only [Completes, wp_bind, wp_get, hgood, hrejects.1, Bool.and_self, if_true, note, wp_modify,
    himage, if_neg hrejects.2, wp_pure]
  refine wp_imp (writeBytes_filled (.inl ?_)) fun _ s₁ h₁ => ?_
  · simpa using hfit
  · refine ⟨rfl, ?_, fun c hc => h₁.other hc, h₁.registry⟩
    rw [image, h₁.self, h₁.registry]
    change (patch _ 0 (List.replicate (s.registry t).size 0)).take (s.registry t).size = _
    rw [take_patch_zero _ (by simp)]
    simp

/-- Any other image is left alone. -/
theorem validateLoad_accepted {vf : Bytes → Int}
    (h : status.isGood = false ∨ ¬Rejects s t vf (image s t b)) :
    Completes (validateLoad vf b t status)
      (fun r s' => r.isGood = status.isGood ∧ s'.buffers = s.buffers ∧ s'.registry = s.registry ∧
        s'.handles = s.handles) s := by
  have himage : (s.buffers b).bytes.take (s.registry t).size = image s t b := rfl
  unfold validateLoad
  simp only [Completes, wp_bind, wp_get, himage]
  split
  · rename_i hcheck
    simp only [Bool.and_eq_true] at hcheck
    have hzero : vf (image s t b) = 0 := by
      by_contra hne
      rcases h with hbad | haccepts
      · simp [hcheck.1] at hbad
      · exact haccepts ⟨hcheck.2, hne⟩
    simp only [note, wp_bind, wp_modify, if_pos hzero, wp_pure]
    refine ⟨?_, rfl, rfl, rfl⟩
    rw [hcheck.1]
    rfl
  · exact ⟨rfl, rfl, rfl, rfl⟩

/-- An update makes the image of the working buffer the active contents, unless some user
has locked the table. -/
theorem updateInternal_image (hsized : TableSized cfg s t)
    (htable : TableInv s.handles (s.registry t)) (hpending : (s.registry t).loadPending = true)
    (hwork : (s.registry t).workBuffer t = some b)
    (hfit : (s.registry t).size ≤ (s.buffers b).bytes.length) :
    Completes (updateInternal cfg t) (fun r s' => (r = .success ∧ activeImage s' t = image s t b ∧
          (s'.buffers (activeBuffer s' t)).crc = (s.buffers b).crc) ∨
        (r = .infoTableLocked ∧ s' = s)) s := by
  obtain ⟨k, hlip, hb⟩ := Option.map_eq_some_iff.1 hwork
  unfold updateInternal
  simp only [Completes, wp_bind, wp_get, hlip, hpending, Bool.not_true, Bool.false_eq_true, if_false]
  cases hdouble : (s.registry t).doubleBuffered with
  | true =>
    simp only [hdouble, if_true] at hb ⊢
    subst hb
    simp only [swapBuffers, notifyTblUsersOfUpdate, modifyReg, note, wp_bind, wp_get, wp_modify,
      wp_pure]
    refine .inl ⟨trivial, ?_, ?_⟩
    · simp [activeImage, activeBuffer, image]
    · simp [activeBuffer]
  | false =>
    simp only [hdouble, Bool.false_eq_true, if_false] at hb ⊢
    subst hb
    split
    · exact .inr ⟨rfl, rfl⟩
    have hlt := hsized.range k hdouble hlip
    have hactive := htable.single hdouble
    have hdata : ((s.buffers (.shared k)).bytes.take (s.registry t).size).length =
        (s.registry t).size := by
      rw [length_take]
      omega
    simp only [wp_bind, loadBuffIndex, if_pos hlt, wp_pure, copyLoaded, wp_get]
    refine wp_imp (writeBytes_filled (.inl ?_)) fun _ s₁ h₁ => ?_
    · rw [hdata, hsized.own 0 (.inl rfl), Nat.zero_add]
    · refine .inl ⟨trivial, ?_, ?_⟩
      · simp only [activeImage, activeBuffer, image, TblState.setReg, TblState.setBuff,
          TblState.note, update_self, h₁.registry, hactive]
        rw [update_of_ne (by simp), update_self, h₁.self,
          take_patch_zero _ hdata.ge, take_take, Nat.min_self]
      · simp only [activeBuffer, TblState.setReg, TblState.setBuff, TblState.note,
          update_self, h₁.registry, hactive]
        rw [update_of_ne (by simp), update_self]

/-- Where a load that returned `status` has put the image: it is the active contents or, of
a table that is locked, still in the working buffer. -/
def loadedBuffer (s : TblState) (t : Nat) (status : Status) : BufRef :=
  if status = .infoTableLocked then ((s.registry t).workBuffer t).getD (activeBuffer s t)
  else activeBuffer s t

/-- The end of a load that went well. -/
theorem finishLoad_loaded (hsized : TableSized cfg s t) (htable : TableInv s.handles (s.registry t))
    (hgood : status.isGood = true)
    (hb : ((s.registry t).tableLoadedOnce = true ∧ (s.registry t).workBuffer t = some b) ∨
      ((s.registry t).tableLoadedOnce = false ∧ b = activeBuffer s t))
    (hfit : (s.registry t).size ≤ (s.buffers b).bytes.length) :
    Completes (finishLoad cfg t status)
      (fun r s' => r.isGood = true ∧ image s' t (loadedBuffer s' t r) = image s t b ∧
        (s'.buffers (loadedBuffer s' t r)).crc = (s.buffers b).crc) s := by
  unfold finishLoad
  simp only [Completes, wp_bind, wp_get, hgood, Bool.not_true, Bool.false_eq_true, if_false]
  rcases hb with ⟨honce, hwork⟩ | ⟨honce, rfl⟩
  · rw [if_pos honce]
    have hreg : (s.setReg t { s.registry t with loadPending := true }).registry t =
        { s.registry t with loadPending := true } := by simp
    have hsized' : TableSized cfg (s.setReg t { s.registry t with loadPending := true }) t := by
      constructor
      · simpa using hsized.own
      · simpa using hsized.single
      · simpa using hsized.range
    have hwork' : ((s.setReg t { s.registry t with loadPending := true }).registry t).workBuffer t =
        some b := by
      rw [hreg]
      exact hwork
    have hupdate := updateInternal_image hsized'
      (by rw [hreg]; exact ⟨htable.nodup, htable.active_le, htable.single, htable.inactive,
        htable.unlocked⟩)
      (by rw [hreg]) hwork' (by rw [hreg]; exact hfit)
    refine wp_imp hupdate fun r s₁ h₁ => ?_
    rcases h₁ with ⟨rfl, himage, hcrc⟩ | ⟨rfl, rfl⟩
    · refine ⟨rfl, ?_, ?_⟩
      · simpa [loadedBuffer, activeImage, image] using himage
      · simpa [loadedBuffer] using hcrc
    have hpendingBuffer : loadedBuffer (s.setReg t { s.registry t with loadPending := true }) t
        .infoTableLocked = b := by
      rw [loadedBuffer, if_pos rfl, hwork', Option.getD_some]
    rw [hpendingBuffer]
    exact ⟨rfl, by simp [image], rfl⟩
  · simp only [honce, Bool.false_eq_true, if_false, notifyTblUsersOfUpdate, modifyReg, wp_bind,
      wp_modify, wp_pure]
    refine ⟨rfl, ?_, ?_⟩
    · simp [loadedBuffer, activeBuffer, image]
    · simp [loadedBuffer, activeBuffer]

/-- The end of a load that went wrong leaves the contents alone. -/
theorem finishLoad_failed (hbad : status.isGood = false)
    (hlip : (s.registry t).doubleBuffered = false → (s.registry t).tableLoadedOnce = true →
      InRange cfg (s.registry t).loadInProgress) :
    Completes (finishLoad cfg t status)
      (fun r s' => r = status ∧ activeImage s' t = activeImage s t) s := by
  unfold finishLoad
  simp only [Completes, wp_bind, wp_get, hbad, Bool.not_false, if_true, onlyIf, modifyReg, wp_ite,
    wp_modify, wp_pure, modifyBuff]
  split
  · rename_i hshared
    simp only [Bool.and_eq_true, Bool.not_eq_eq_eq_not, Bool.not_true] at hshared
    refine loadBuffIndex_ok (.inl (hlip hshared.1 hshared.2)) fun i _ _ => ⟨trivial, ?_⟩
    simp [activeImage, activeBuffer, image]
  · refine ⟨trivial, ?_⟩
    simp [activeImage, activeBuffer, image]

end Contents

end CfsEds.Tbl
