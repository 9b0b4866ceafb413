import CfsEds.Tbl.Contents

/-!
# Loads of files and the EDS decoding

`CFE_TBL_LoadFromFileAndDecode` reads a file into a scratch buffer and unpacks it from
there into the working buffer. `FaithfulLoad` is what that is for: a load that returns
success has put the decoding of the file over the previous contents in place, with its CRC,
and a file that cannot be decoded is refused. The code unpacks whole files only, does not
look at whether unpacking worked, and computes the CRC over the native size of the type;
`FaithfulWhen` is when this makes no difference.
-/

namespace CfsEds.Tbl

open CfsEds.Lib.Faults List

section Loads

variable {cfg : TblConfig} {eds : EdsLib} {s s₁ : TblState} {t : Nat} {work : BufRef}

/-- The first load of an application works on the active buffer, any later one does not. -/
theorem Working.once_cases (hwork : Working cfg s t true (.ok work) s₁) (huse : UseInv s)
    (hb : workingBuffer cfg s t true = some work)
    (hlip : (s.registry t).loadInProgress = none) :
    ((s.registry t).tableLoadedOnce = true ∧ (s₁.registry t).workBuffer t = some work ∧
      work ≠ activeBuffer s t) ∨
    ((s.registry t).tableLoadedOnce = false ∧ work = activeBuffer s t ∧ s₁ = s) := by
  have htable := huse.table t
  rcases hwork.workBuffer huse with hbuffer | ⟨hsame, honce, -, -⟩
  · refine .inl ⟨?_, hbuffer, ?_⟩
    · by_contra honce
      -- nothing is taken for a first load
      cases hwork with
      | again hagain | againShared hagain => simp [hlip] at hagain
      | direct => simp [RegistryRec.workBuffer, hlip] at hbuffer
      | inactive _ _ _ _ hlater | shared _ _ _ _ hlater => simp [honce] at hlater
    · intro hactive
      cases hwork with
      | again hagain | againShared hagain => simp [hlip] at hagain
      | direct => simp [RegistryRec.workBuffer, hlip] at hbuffer
      | inactive =>
        have hindex := (BufRef.own.inj hactive).2
        omega
      | shared => cases hactive
  · refine .inr ⟨honce, ?_, hsame⟩
    simp only [workingBuffer, hlip, honce, Bool.not_false, Bool.and_self, if_true] at hb
    cases hb
    unfold activeBuffer
    cases hdouble : (s.registry t).doubleBuffered with
    | true => rfl
    | false => rw [htable.single hdouble]; rfl

/-- What is left alone until the working buffer has been filled. -/
theorem activeImage_filled {s₂ : TblState} (hwork : Working cfg s t true (.ok work) s₁)
    (hdata : Touched (insert work (freeBuffs s₁)) s₁ s₂) (hne : work ≠ activeBuffer s t) :
    activeImage s₂ t = activeImage s t := by
  obtain ⟨lip, hregistry⟩ := hwork.registry
  have hactive : activeBuffer s₂ t = activeBuffer s t := by
    simp [activeBuffer, hdata.registry, hregistry]
  have hframe : s₂.buffers (activeBuffer s t) = s₁.buffers (activeBuffer s t) := by
    refine hdata.frame _ ?_
    rintro (hmem | ⟨i, hshared, -⟩)
    · exact hne hmem.symm
    · cases hshared
  unfold activeImage image
  rw [hactive, hframe, hwork.bytes_frame hne.symm]
  simp [hdata.registry, hregistry]

/-- The active contents are still there if the working buffer has kept its image. -/
theorem activeImage_kept {s₂ : TblState} (hwork : Working cfg s t true (.ok work) s₁)
    (hdata : Touched (insert work (freeBuffs s₁)) s₁ s₂)
    (himage : image s₂ t work = activeImage s t) : activeImage s₂ t = activeImage s t := by
  by_cases hne : work = activeBuffer s t
  · obtain ⟨lip, hregistry⟩ := hwork.registry
    have hactive : activeBuffer s₂ t = work := by
      simp [hne, activeBuffer, hdata.registry, hregistry]
    rw [activeImage, hactive, himage]
  · exact activeImage_filled hwork hdata hne

variable {f : TableFile} {i : Nat} {std : FsHeader} {hdr : FileHdr} {info : TypeInfo}

/-- The working buffer of a load, taken but not yet filled. -/
structure Taken (cfg : TblConfig) (s : TblState) (t : Nat) (work : BufRef) (s₁ : TblState) :
    Prop where
  working : Working cfg s t true (.ok work) s₁
  buffer : workingBuffer cfg s t true = some work
  image_eq : image s₁ t work = activeImage s t
  crc_eq : (s₁.buffers work).crc = (s.buffers work).crc

/-- A load goes on with the working buffer it has taken, or there was none. -/
theorem loadTable_of_taken (huse : UseInv s) (hinv : SizeInv cfg s) (hsized : TableSized cfg s t)
    (hlip : (s.registry t).loadInProgress = none) {vf : Bytes → Int}
    {Q : Status → TblState → Prop}
    (hnone : workingBuffer cfg s t true = none → ∀ e, e.isGood = false → Q e s)
    (hgoes : ∀ work s₁, Taken cfg s t work s₁ → Completes (do
        let status ← loadData cfg eds (.file f) work t
        let status ← validateLoad vf work t status
        finishLoad cfg t status) Q s₁) :
    Completes (loadTable cfg eds (.file f) vf t) Q s := by
  unfold loadTable
  rw [Completes, wp_bind]
  refine wp_mono (wp_and (getWorkingBuffer_completes hinv hsized (huse.table t) true)
    (getWorkingBuffer_image hinv hsized (huse.table t) true hlip)) (fun r s₁ h₁ => ?_)
    (fun _ h => h.1)
  obtain ⟨⟨hwork, hr⟩, himage⟩ := h₁
  cases r with
  | error e =>
    cases hwork with
    | refused _ he => exact hnone hr.symm e he
  | ok work =>
    obtain ⟨himage, hcrc⟩ := himage work rfl
    exact hgoes work s₁ ⟨hwork, hr.symm, himage, hcrc⟩

/-- The same for a working buffer that is known. -/
theorem completes_of_working (huse : UseInv s) (hinv : SizeInv cfg s) (hsized : TableSized cfg s t)
    (hlip : (s.registry t).loadInProgress = none) {vf : Bytes → Int}
    {Q : Status → TblState → Prop} (hwork : workingBuffer cfg s t true = some work)
    (hgoes : ∀ s₁, Taken cfg s t work s₁ → Completes (do
        let status ← loadData cfg eds (.file f) work t
        let status ← validateLoad vf work t status
        finishLoad cfg t status) Q s₁) :
    Completes (loadTable cfg eds (.file f) vf t) Q s := by
  refine loadTable_of_taken huse hinv hsized hlip (fun hnone => ?_) fun work' s₁ htaken => ?_
  · rw [hwork] at hnone
    cases hnone
  · obtain rfl : work = work' := Option.some.inj (hwork.symm.trans htaken.buffer)
    exact hgoes s₁ htaken

namespace Taken

variable (h : Taken cfg s t work s₁)

include h

theorem name_eq : (s₁.registry t).name = (s.registry t).name := by
  obtain ⟨lip, hregistry⟩ := h.working.registry
  simp [hregistry]

theorem once_eq : (s₁.registry t).tableLoadedOnce = (s.registry t).tableLoadedOnce := by
  obtain ⟨lip, hregistry⟩ := h.working.registry
  simp [hregistry]

theorem length_work (huse : UseInv s) (hinv : SizeInv cfg s) (hsized : TableSized cfg s t) :
    (s₁.registry t).size ≤ (s₁.buffers work).bytes.length := by
  have hsizes := h.working.sameSizes
  rw [hsizes.size, hsizes.length]
  exact size_le_workingBuffer hinv hsized (huse.table t) h.buffer

/-- The scratch buffer is another one. -/
theorem ne_scratch (hlip : (s.registry t).loadInProgress = none)
    (hi : findFreeLoadBuff cfg s₁ = some i) : work ≠ .shared i := by
  rw [h.working.findFreeLoadBuff hlip] at hi
  have hne := find?_some hi
  simp only [Bool.and_eq_true, decide_eq_true_eq] at hne
  exact hne.2

end Taken

/-- A load that is refused leaves the active contents alone. -/
theorem loadTable_refused (huse : UseInv s) (hinv : SizeInv cfg s) (hsized : TableSized cfg s t)
    (hlip : (s.registry t).loadInProgress = none) (vf : Bytes → Int) (hsizes : eds.Sizes)
    (hfit : ∀ work i std hdr info, workingBuffer cfg s t true = some work →
      scratchBuffer cfg s work = some i →
      FileAccepted cfg eds (s.registry t).name f std hdr info →
      ¬Exceeds f hdr cfg.maxSnglTableSize)
    (hrefused : ∀ work i std hdr info, workingBuffer cfg s t true = some work →
      scratchBuffer cfg s work = some i →
      FileRead cfg eds (s.registry t).name f std hdr info →
      hdr.offset ≠ 0 ∧ (s.registry t).tableLoadedOnce = false) :
    Completes (loadTable cfg eds (.file f) vf t)
      (fun r s' => r.isGood = false ∧ activeImage s' t = activeImage s t) s := by
  refine loadTable_of_taken huse hinv hsized hlip (fun _ e he => ⟨he, rfl⟩) fun work s₁ htaken => ?_
  have hscratch := htaken.working.findFreeLoadBuff hlip
  have hlength := htaken.length_work huse hinv hsized
  have hfit₁ : ∀ i std hdr info, findFreeLoadBuff cfg s₁ = some i →
      FileAccepted cfg eds (s₁.registry t).name f std hdr info →
      ¬Exceeds f hdr (s₁.buffers (.shared i)).bytes.length := by
    intro i std hdr info hi hfile
    rw [hscratch] at hi
    rw [htaken.name_eq] at hfile
    rw [htaken.working.sameSizes.length, hinv.shared]
    exact hfit work i std hdr info htaken.buffer hi hfile
  have hloaded : Completes (loadData cfg eds (.file f) work t)
      (fun r s₂ => r.isGood = false ∧ image s₂ t work = image s₁ t work) s₁ := by
    by_cases hread : ∃ i std hdr info, findFreeLoadBuff cfg s₁ = some i ∧
        FileRead cfg eds (s₁.registry t).name f std hdr info
    · -- a first load that does not start at offset 0
      obtain ⟨i, std, hdr, info, hi, hfile⟩ := hread
      obtain ⟨hoffset, honce⟩ := hrefused work i std hdr info htaken.buffer (hscratch ▸ hi)
        (htaken.name_eq ▸ hfile)
      refine wp_imp (loadData_written hsizes hi (htaken.ne_scratch hlip hi) hfile
        (hfit₁ i std hdr info hi hfile.toFileAccepted) hlength) fun r s₂ h₂ => ?_
      obtain ⟨rfl, himage, -⟩ := h₂
      have hpart : ¬hdr.IsWhole info := fun hwhole => hoffset hwhole.1
      refine ⟨?_, ?_⟩
      · rw [readStatus, if_pos ⟨hoffset, by rw [htaken.once_eq, honce]⟩]
        rfl
      · rw [himage, writtenImage, if_neg hpart]
    · refine loadData_refused (fun i std hdr info hi hfile => ?_)
        (fun i hi => htaken.ne_scratch hlip hi) hfit₁
      exact hread ⟨i, std, hdr, info, hi, hfile⟩
  rw [Completes, wp_bind]
  refine wp_mono (wp_and hloaded (loadData_completes hfit₁)) (fun r s₂ h₂ => ?_) (fun _ h => h.1)
  obtain ⟨⟨hbad, himage⟩, hdata⟩ := h₂
  refine wp_seq (validateLoad_accepted (.inl hbad)) fun r' s₃ h₃ => ?_
  obtain ⟨hbad', hbuffers, hregistry, -⟩ := h₃
  rw [hbad] at hbad'
  have hkept : activeImage s₃ t = activeImage s t := by
    rw [← activeImage_kept htaken.working hdata (himage.trans htaken.image_eq)]
    unfold activeImage activeBuffer image
    rw [hbuffers, hregistry]
  refine wp_imp (finishLoad_failed hbad' ?_) fun r'' s₄ h₄ => ?_
  · rw [hregistry, hdata.registry]
    exact htaken.working.inRange hlip
  · obtain ⟨rfl, hactive⟩ := h₄
    exact ⟨hbad', hactive.trans hkept⟩

/-- The contents after a load that is not refused. -/
structure LoadEnd (cfg : TblConfig) (eds : EdsLib) (s : TblState) (t : Nat) (f : TableFile)
    (hdr : FileHdr) (info : TypeInfo) (vf : Bytes → Int) (work : BufRef) (status : Status)
    (s' : TblState) : Prop where
  rejected : Rejects s t vf (writtenImage eds (activeImage s t) f hdr info) →
    status.isGood = false ∧ activeImage s' t =
      if work = activeBuffer s t then List.replicate (s.registry t).size 0 else activeImage s t
  loaded : ¬Rejects s t vf (writtenImage eds (activeImage s t) f hdr info) →
    status.isGood = true ∧
    image s' t (loadedBuffer s' t status) = writtenImage eds (activeImage s t) f hdr info ∧
    (s'.buffers (loadedBuffer s' t status)).crc =
      writtenCrc cfg eds (activeImage s t) f hdr info (s.buffers work).crc

theorem loadTable_read (huse : UseInv s) (hinv : SizeInv cfg s) (hsized : TableSized cfg s t)
    (hlip : (s.registry t).loadInProgress = none) (vf : Bytes → Int) (hsizes : eds.Sizes)
    (hwork : workingBuffer cfg s t true = some work) (hi : scratchBuffer cfg s work = some i)
    (hfile : FileRead cfg eds (s.registry t).name f std hdr info)
    (hfit : ¬Exceeds f hdr cfg.maxSnglTableSize)
    (hoffset : hdr.offset = 0 ∨ (s.registry t).tableLoadedOnce = true) :
    Completes (loadTable cfg eds (.file f) vf t) (LoadEnd cfg eds s t f hdr info vf work) s := by
  refine completes_of_working huse hinv hsized hlip hwork fun s₁ htaken => ?_
  have hi₁ : findFreeLoadBuff cfg s₁ = some i := (htaken.working.findFreeLoadBuff hlip).trans hi
  have hlength := htaken.length_work huse hinv hsized
  have hfile₁ : FileRead cfg eds (s₁.registry t).name f std hdr info := by
    rw [htaken.name_eq]
    exact hfile
  have hfit₁ : ¬Exceeds f hdr (s₁.buffers (.shared i)).bytes.length := by
    rwa [htaken.working.sameSizes.length, hinv.shared]
  have hdata₁ : Completes (loadData cfg eds (.file f) work t)
      (fun _ s₂ => Touched (insert work (freeBuffs s₁)) s₁ s₂) s₁ := by
    refine loadData_completes fun j std' hdr' info' hj hfile' => ?_
    obtain rfl : i = j := Option.some.inj (hi₁.symm.trans hj)
    obtain ⟨rfl, -⟩ := hfile₁.toFileAccepted.unique hfile'
    exact hfit₁
  rw [Completes, wp_bind]
  refine wp_mono (wp_and (loadData_written hsizes hi₁ (htaken.ne_scratch hlip hi₁) hfile₁ hfit₁
    hlength) hdata₁) (fun r s₂ h₂ => ?_) (fun _ h => h.1)
  obtain ⟨⟨rfl, himage, hcrc⟩, hdata⟩ := h₂
  rw [htaken.image_eq] at himage hcrc
  rw [htaken.crc_eq] at hcrc
  have hgood : (readStatus hdr info (s₁.registry t).tableLoadedOnce).isGood = true := by
    rw [readStatus, if_neg, loadWarning_isGood]
    rintro ⟨hne, honce⟩
    rw [htaken.once_eq] at honce
    rcases hoffset with hzero | hlater
    · exact hne hzero
    · simp [honce] at hlater
  have hsame₂ : SameSizes cfg s s₂ := htaken.working.sameSizes.trans (.of_touched hdata)
  have hlength₂ : (s₂.registry t).size ≤ (s₂.buffers work).bytes.length := by
    rw [hdata.registry, hdata.length]
    exact hlength
  obtain ⟨lip, hregistry₁⟩ := htaken.working.registry
  have hrejects : Rejects s₂ t vf (image s₂ t work) ↔
      Rejects s t vf (writtenImage eds (activeImage s t) f hdr info) := by
    unfold Rejects
    rw [himage]
    simp [hdata.registry, hregistry₁]
  rw [wp_bind]
  by_cases hreject : Rejects s t vf (writtenImage eds (activeImage s t) f hdr info)
  · -- the image is cleared, and with it the active contents of a first load
    refine wp_imp (validateLoad_rejected hgood (hrejects.2 hreject) hlength₂) fun r s₃ h₃ => ?_
    obtain ⟨hbad, hcleared, hframe, hregistry₃⟩ := h₃
    refine wp_imp (finishLoad_failed hbad ?_) fun r' s₄ h₄ => ?_
    · rw [hregistry₃, hdata.registry]
      exact htaken.working.inRange hlip
    · obtain ⟨rfl, hactive⟩ := h₄
      refine ⟨fun _ => ⟨hbad, ?_⟩, fun haccepts => absurd hreject haccepts⟩
      have hbuffer : activeBuffer s₃ t = activeBuffer s t := by
        simp [activeBuffer, hregistry₃, hdata.registry, hregistry₁]
      rw [hactive]
      split
      · rename_i heq
        rw [activeImage, hbuffer, ← heq, hcleared, hsame₂.size]
      rename_i hne
      rw [← activeImage_filled htaken.working hdata hne]
      have hbuffer₂ : activeBuffer s₂ t = activeBuffer s t := by
        simp [activeBuffer, hdata.registry, hregistry₁]
      unfold activeImage image
      rw [hbuffer, hbuffer₂, hframe _ (Ne.symm hne), hregistry₃]
  · refine wp_imp (validateLoad_accepted (.inr fun h => hreject (hrejects.1 h))) fun r s₃ h₃ => ?_
    obtain ⟨hgood₃, hbuffers, hregistry₃, hhandles₃⟩ := h₃
    rw [hgood] at hgood₃
    have huse₁ : UseInv s₁ := (htaken.working.calm huse fun _ => True).1.inv
    have hregistry : s₃.registry = s₁.registry := hregistry₃.trans hdata.registry
    have hhandles : s₃.handles = s₁.handles := hhandles₃.trans hdata.handles
    have hsized₃ : TableSized cfg s₃ t := by
      refine hsized.same (hsame₂.trans ?_)
      exact .of_eq hregistry₃ hhandles₃ hbuffers
    have htable₃ : TableInv s₃.handles (s₃.registry t) := by
      rw [hregistry, hhandles]
      exact huse₁.table t
    have hbuffer : ((s₃.registry t).tableLoadedOnce = true ∧
          (s₃.registry t).workBuffer t = some work) ∨
        ((s₃.registry t).tableLoadedOnce = false ∧ work = activeBuffer s₃ t) := by
      rw [hregistry, htaken.once_eq]
      rcases htaken.working.once_cases huse htaken.buffer hlip with
        ⟨honce, hbuffer, -⟩ | ⟨honce, hactive, rfl⟩
      · exact .inl ⟨honce, hbuffer⟩
      · refine .inr ⟨honce, ?_⟩
        rw [hactive, activeBuffer, activeBuffer, hregistry]
    refine wp_imp (finishLoad_loaded hsized₃ htable₃ hgood₃ hbuffer ?_) fun r' s₄ h₄ => ?_
    · rw [hregistry₃, hbuffers]
      exact hlength₂
    · obtain ⟨hgood₄, himage₄, hcrc₄⟩ := h₄
      refine ⟨fun hrejected => absurd hrejected hreject, fun _ => ⟨hgood₄, ?_, ?_⟩⟩
      · rw [himage₄, ← himage]
        unfold image
        rw [hbuffers, hregistry₃]
      · rw [hcrc₄, hbuffers, hcrc]

/-! ## Faithful loads -/

/-- What a load of a file is for. If it returns success, the active contents (or, of a locked
table, the pending ones) are the decoding of the file over the previous contents, with its
CRC. If the file cannot be decoded, it returns an error and the active contents stay. -/
structure FaithfulLoad (cfg : TblConfig) (eds : EdsLib) (s : TblState) (t : Nat) (f : TableFile)
    (status : Status) (s' : TblState) : Prop where
  decoded : status.isGood = true → ∃ std hdr info,
    FileRead cfg eds (s.registry t).name f std hdr info ∧
    fileDecode eds (activeImage s t) f hdr info = (true, image s' t (loadedBuffer s' t status)) ∧
    (s'.buffers (loadedBuffer s' t status)).crc =
      cfg.calculateCRC (image s' t (loadedBuffer s' t status))
  refused : (∀ std hdr info, FileRead cfg eds (s.registry t).name f std hdr info →
      (fileDecode eds (activeImage s t) f hdr info).1 = false) →
    status.isGood = false ∧ activeImage s' t = activeImage s t

/-- When the load of a file is faithful, as far as the data are concerned. A file that is not
whole has to decode to what was there before, and the CRC that is kept with it has to be
right, since nothing is loaded; a whole file has to be decoded, and its CRC over the native
size of the type has to be that of the table. A rejected image does harm in the active
buffer only, which is cleared. -/
def FaithfulWhen (cfg : TblConfig) (eds : EdsLib) (s : TblState) (t : Nat) (f : TableFile)
    (vf : Bytes → Int) (work : BufRef) (hdr : FileHdr) (info : TypeInfo) : Prop :=
  let prev := activeImage s t
  let decoded := fileDecode eds prev f hdr info
  if Rejects s t vf (if hdr.IsWhole info then decoded.2 else prev) then
    decoded.1 = false → work = activeBuffer s t → prev = List.replicate (s.registry t).size 0
  else if hdr.IsWhole info then
    decoded.1 = true ∧
      cfg.calculateCRC (decoded.2.take info.bytes) = cfg.calculateCRC decoded.2
  else decoded = (true, prev) ∧ (s.buffers work).crc = cfg.calculateCRC prev

section LoadEnd

variable {vf : Bytes → Int} {status : Status} {s' : TblState}

/-- The headers of the file are the only ones it has. -/
theorem FileRead.unique {name : List Char} {std' : FsHeader} {hdr' : FileHdr} {info' : TypeInfo}
    (hfile : FileRead cfg eds name f std hdr info) (hfile' : FileRead cfg eds name f std' hdr' info') :
    hdr = hdr' ∧ info = info' :=
  hfile.toFileAccepted.unique hfile'.toFileAccepted

theorem LoadEnd.rejected_iff (h : LoadEnd cfg eds s t f hdr info vf work status s')
    (hfile : FileRead cfg eds (s.registry t).name f std hdr info)
    (hreject : Rejects s t vf (writtenImage eds (activeImage s t) f hdr info)) :
    FaithfulLoad cfg eds s t f status s' ↔
      ((fileDecode eds (activeImage s t) f hdr info).1 = false → work = activeBuffer s t →
        activeImage s t = List.replicate (s.registry t).size 0) := by
  obtain ⟨hbad, hactive⟩ := h.rejected hreject
  constructor
  · intro hfaithful hundecoded hwork
    have hkept := (hfaithful.refused fun std' hdr' info' hfile' => by
      obtain ⟨rfl, rfl⟩ := hfile.unique hfile'
      exact hundecoded).2
    rw [hactive, if_pos hwork] at hkept
    exact hkept.symm
  · intro hwhen
    refine ⟨fun hgood => by simp [hbad] at hgood, fun hundecoded => ⟨hbad, ?_⟩⟩
    rw [hactive]
    split
    · rename_i hwork
      exact (hwhen (hundecoded std hdr info hfile) hwork).symm
    · rfl

theorem LoadEnd.loaded_iff (h : LoadEnd cfg eds s t f hdr info vf work status s')
    (hfile : FileRead cfg eds (s.registry t).name f std hdr info)
    (haccept : ¬Rejects s t vf (writtenImage eds (activeImage s t) f hdr info)) :
    FaithfulLoad cfg eds s t f status s' ↔
      fileDecode eds (activeImage s t) f hdr info =
        (true, writtenImage eds (activeImage s t) f hdr info) ∧
      writtenCrc cfg eds (activeImage s t) f hdr info (s.buffers work).crc =
        cfg.calculateCRC (writtenImage eds (activeImage s t) f hdr info) := by
  obtain ⟨hgood, himage, hcrc⟩ := h.loaded haccept
  constructor
  · intro hfaithful
    obtain ⟨std', hdr', info', hfile', hdecoded, hcrc'⟩ := hfaithful.decoded hgood
    obtain ⟨rfl, rfl⟩ := hfile.unique hfile'
    rw [himage] at hdecoded hcrc'
    exact ⟨hdecoded, hcrc.symm.trans hcrc'⟩
  · rintro ⟨hdecoded, hcrc'⟩
    refine ⟨fun _ => ⟨std, hdr, info, hfile, ?_, ?_⟩, fun hundecoded => ?_⟩
    · rw [himage]
      exact hdecoded
    · rw [himage, hcrc]
      exact hcrc'
    · have hfailed := hundecoded std hdr info hfile
      rw [hdecoded] at hfailed
      cases hfailed

/-- What the load leaves behind is resolved by whether the file is whole. -/
theorem LoadEnd.faithful_iff (h : LoadEnd cfg eds s t f hdr info vf work status s')
    (hfile : FileRead cfg eds (s.registry t).name f std hdr info) :
    FaithfulLoad cfg eds s t f status s' ↔ FaithfulWhen cfg eds s t f vf work hdr info := by
  have hrejected := h.rejected_iff hfile
  have hloaded := h.loaded_iff hfile
  unfold FaithfulWhen
  by_cases hwhole : hdr.IsWhole info
  · simp only [writtenImage, if_pos hwhole] at hrejected hloaded ⊢
    split_ifs with hreject
    · exact hrejected hreject
    rw [hloaded hreject]
    constructor
    · rintro ⟨hdecoded, hcrc⟩
      have hok : (fileDecode eds (activeImage s t) f hdr info).1 = true := by rw [hdecoded]
      rw [writtenCrc, if_pos ⟨hwhole, hok⟩] at hcrc
      exact ⟨hok, hcrc⟩
    · rintro ⟨hok, hcrc⟩
      rw [writtenCrc, if_pos ⟨hwhole, hok⟩]
      exact ⟨Prod.ext hok rfl, hcrc⟩
  · simp only [writtenImage, if_neg hwhole] at hrejected hloaded ⊢
    split_ifs with hreject
    · exact hrejected hreject
    rw [hloaded hreject, writtenCrc, if_neg fun hboth => hwhole hboth.1]

end LoadEnd

/-- A call that is refused is faithful. -/
theorem faithfulLoad_refused {status : Status} {s' : TblState} (hbad : status.isGood = false)
    (hactive : activeImage s' t = activeImage s t) : FaithfulLoad cfg eds s t f status s' :=
  ⟨fun hgood => absurd hgood (by simp [hbad]), fun _ => ⟨hbad, hactive⟩⟩

theorem validateAccess_isGood {h app : Nat} (herr : validateAccess cfg s h app ≠ .success) :
    (validateAccess cfg s h app).isGood = false := by
  unfold validateAccess validateHandle checkAccessRights at herr ⊢
  -- every branch is success or an error
  split_ifs at herr ⊢ <;> first | rfl | exact absurd rfl herr

/-- Something that completes has an outcome. -/
theorem Completes.outcome {α : Type} {x : TblM α} {Q : α → TblState → Prop}
    (h : Completes x Q s) : ∃ a s', x.run s = .ok (a, s') ∧ Q a s' := by
  cases hx : x.run s with
  | ok r =>
    obtain ⟨a, s'⟩ := r
    exact ⟨a, s', rfl, wp_ok h hx⟩
  | error => exact (wp_error h hx).elim

/-- The call loads the file: it is allowed, it has its buffers and the headers are in order. -/
structure LoadsFile (cfg : TblConfig) (eds : EdsLib) (s : TblState) (app h : Nat) (f : TableFile)
    (work : BufRef) (i : Nat) (std : FsHeader) (hdr : FileHdr) (info : TypeInfo) : Prop where
  access : validateAccess cfg s h app = .success
  idle : (s.registry (s.handles h).regIndex).loadInProgress = none
  buffer : workingBuffer cfg s (s.handles h).regIndex true = some work
  scratch : scratchBuffer cfg s work = some i
  file : FileRead cfg eds (s.registry (s.handles h).regIndex).name f std hdr info
  offset : hdr.offset = 0 ∨ (s.registry (s.handles h).regIndex).tableLoadedOnce = true

section Calls

variable {app h : Nat}

/-- A call that is allowed is the load of its table. -/
theorem load_of_allowed {vf : Bytes → Int} {Q : Status → TblState → Prop}
    (hdump : (s.registry (s.handles h).regIndex).dumpOnly = false)
    (haccess : validateAccess cfg s h app = .success)
    (hlip : (s.registry (s.handles h).regIndex).loadInProgress = none)
    (hloads : Completes (loadTable cfg eds (.file f) vf (s.handles h).regIndex) Q s) :
    Completes (load cfg eds app h (.file f) vf) Q s := by
  unfold load
  simpa [Completes, wp_bind, wp_get, haccess, hdump, hlip] using hloads

theorem load_read (huse : UseInv s) (hinv : SizeInv cfg s) (hsizes : eds.Sizes)
    (hdump : (s.registry (s.handles h).regIndex).dumpOnly = false)
    (hfit : ¬AppOverrun cfg eds s app h f) (vf : Bytes → Int)
    (hload : LoadsFile cfg eds s app h f work i std hdr info) :
    Completes (load cfg eds app h (.file f) vf)
      (LoadEnd cfg eds s (s.handles h).regIndex f hdr info vf work) s := by
  have hsized := hinv.table _ (registered_of_validateAccess hload.access) hdump
  have hfits : ¬Exceeds f hdr cfg.maxSnglTableSize := fun hexceeds =>
    hfit ⟨hload.access, hdump, hload.idle, work, i, std, hdr, info, hload.buffer, hload.scratch,
      hload.file.toFileAccepted, hexceeds⟩
  exact load_of_allowed hdump hload.access hload.idle (loadTable_read huse hinv hsized hload.idle vf
    hsizes hload.buffer hload.scratch hload.file hfits hload.offset)

theorem load_refused (huse : UseInv s) (hinv : SizeInv cfg s) (hsizes : eds.Sizes)
    (hdump : (s.registry (s.handles h).regIndex).dumpOnly = false)
    (hfit : ¬AppOverrun cfg eds s app h f) (vf : Bytes → Int)
    (hrefused : ¬∃ work i std hdr info, LoadsFile cfg eds s app h f work i std hdr info) :
    Completes (load cfg eds app h (.file f) vf) (fun r s' => r.isGood = false ∧
        activeImage s' (s.handles h).regIndex = activeImage s (s.handles h).regIndex) s := by
  by_cases hcalled : validateAccess cfg s h app = .success ∧
      (s.registry (s.handles h).regIndex).loadInProgress = none
  · obtain ⟨haccess, hlip⟩ := hcalled
    have hsized := hinv.table _ (registered_of_validateAccess haccess) hdump
    refine load_of_allowed hdump haccess hlip (loadTable_refused huse hinv hsized hlip vf hsizes
      (fun work i std hdr info hwork hi hfile hexceeds => hfit
        ⟨haccess, hdump, hlip, work, i, std, hdr, info, hwork, hi, hfile, hexceeds⟩) ?_)
    intro work i std hdr info hwork hi hfile
    by_contra hoffset
    refine hrefused ⟨work, i, std, hdr, info, haccess, hlip, hwork, hi, hfile, ?_⟩
    by_cases hzero : hdr.offset = 0
    · exact .inl hzero
    · refine .inr ?_
      by_contra honce
      exact hoffset ⟨hzero, by simpa using honce⟩
  · unfold load
    simp only [Completes, wp_bind, wp_get]
    split
    · rename_i haccess
      exact ⟨validateAccess_isGood haccess, rfl⟩
    · rename_i haccess
      rw [if_neg (by simp [hdump]), if_pos fun hlip => hcalled ⟨not_not.1 haccess, hlip⟩]
      exact ⟨rfl, rfl⟩

end Calls

/-- The load of a file by an application is faithful exactly when its data are such that
what the code leaves out does not matter. -/
theorem load_faithful_iff (huse : UseInv s) (hinv : SizeInv cfg s) (hsizes : eds.Sizes)
    {app h : Nat} (hdump : (s.registry (s.handles h).regIndex).dumpOnly = false)
    (hfit : ¬AppOverrun cfg eds s app h f) (vf : Bytes → Int) :
    (∀ status s', (load cfg eds app h (.file f) vf).run s = .ok (status, s') →
      FaithfulLoad cfg eds s (s.handles h).regIndex f status s') ↔
    (validateAccess cfg s h app = .success →
      (s.registry (s.handles h).regIndex).loadInProgress = none →
      ∀ work i std hdr info, workingBuffer cfg s (s.handles h).regIndex true = some work →
        scratchBuffer cfg s work = some i →
        FileRead cfg eds (s.registry (s.handles h).regIndex).name f std hdr info →
        hdr.offset = 0 ∨ (s.registry (s.handles h).regIndex).tableLoadedOnce = true →
        FaithfulWhen cfg eds s (s.handles h).regIndex f vf work hdr info) := by
  constructor
  · intro hfaithful haccess hlip work i std hdr info hwork hi hfile hoffset
    obtain ⟨status, s', hrun, hend⟩ := (load_read huse hinv hsizes hdump hfit vf
      ⟨haccess, hlip, hwork, hi, hfile, hoffset⟩).outcome
    exact (hend.faithful_iff hfile).1 (hfaithful status s' hrun)
  · intro hwhen status s' hrun
    by_cases hloads : ∃ work i std hdr info, LoadsFile cfg eds s app h f work i std hdr info
    · obtain ⟨work, i, std, hdr, info, hload⟩ := hloads
      have hend := wp_ok (load_read huse hinv hsizes hdump hfit vf hload) hrun
      exact (hend.faithful_iff hload.file).2 (hwhen hload.access hload.idle work i std hdr info
        hload.buffer hload.scratch hload.file hload.offset)
    · obtain ⟨hbad, hactive⟩ := wp_ok (load_refused huse hinv hsizes hdump hfit vf hloads) hrun
      exact faithfulLoad_refused hbad hactive

/-- Whole files that can be decoded are loaded faithfully if the type is as long as the
table. -/
theorem faithfulWhen_whole (hsized : TableSized cfg s t)
    (htable : TableInv s.handles (s.registry t)) (vf : Bytes → Int) (hwhole : hdr.IsWhole info)
    (hdecoded : (fileDecode eds (activeImage s t) f hdr info).1 = true)
    (hbytes : (s.registry t).size ≤ info.bytes) :
    FaithfulWhen cfg eds s t f vf work hdr info := by
  have hlength : (fileDecode eds (activeImage s t) f hdr info).2.length ≤ info.bytes := by
    unfold fileDecode
    rw [eds.length_decode]
    have hactive := (own_length hsized htable).1
    simp only [activeImage, activeBuffer, image, length_take]
    omega
  unfold FaithfulWhen
  simp only [if_pos hwhole]
  split_ifs
  · intro hfailed
    simp [hdecoded] at hfailed
  · rw [take_of_length_le hlength]
    exact ⟨hdecoded, rfl⟩

end Loads

/-! ## Examples -/

/-- The state after a call that does not stop. -/
def after {α : Type} (x : TblM α) (s : TblState) : TblState :=
  match x.run s with
  | .ok (_, s') => s'
  | .error _ => s

/-- What a call returns. -/
def returned {α : Type} (x : TblM α) (s : TblState) : Option α :=
  match x.run s with
  | .ok (a, _) => some a
  | .error _ => none

theorem run_after {α : Type} {x : TblM α} {s : TblState} {a : α} (h : returned x s = some a) :
    x.run s = .ok (a, after x s) := by
  unfold returned at h
  unfold after
  split at h
  · rename_i a' s' hrun
    rw [hrun, Option.some.inj h]
  · cases h

theorem decode_smallEds (edsId : Nat) (object packed : Bytes) (bits : Nat) :
    smallEds.decode edsId object packed bits = if 2 ≤ object.length ∧ 2 ≤ packed.length then
        (true, byteOrder edsId (packed.take 2) ++ object.drop 2) else (false, object) := by
  by_cases hboth : 2 ≤ object.length ∧ 2 ≤ packed.length
  · have hunpack : smallEds.unpackPartialObject edsId object packed bits =
        ⟨true, edsId, byteOrder edsId (packed.take 2) ++ object.drop 2⟩ := if_pos hboth
    rw [EdsLib.decode, hunpack, if_pos hboth]
    rfl
  · have hunpack : smallEds.unpackPartialObject edsId object packed bits =
        ⟨false, edsId, object⟩ := if_neg hboth
    rw [EdsLib.decode, hunpack, if_neg hboth]
    rfl

theorem typeInfo_smallEds {edsId : Nat} {info : TypeInfo}
    (h : smallEds.getTypeInfo edsId = some info) : info = ⟨16, 2⟩ := by
  simp only [smallEds] at h
  split at h
  · exact (Option.some.inj h).symm
  · cases h

theorem sizes_smallEds : smallEds.Sizes := by
  constructor
  · intro edsId info h native packed packed' htake
    obtain rfl := typeInfo_smallEds h
    have htake : packed.take 2 = packed'.take 2 := htake
    have hlength : 2 ≤ packed.length ↔ 2 ≤ packed'.length := by
      have hmin := congrArg List.length htake
      simp only [length_take] at hmin
      omega
    rw [decode_smallEds, decode_smallEds, htake]
    simp only [hlength]
  · intro edsId info h native packed hok
    obtain rfl := typeInfo_smallEds h
    by_contra hshort
    rw [decode_smallEds, if_neg (fun hboth => hshort hboth.1)] at hok
    cases hok
  · intro edsId info h native hok
    obtain rfl := typeInfo_smallEds h
    have hnative : 2 ≤ native.length := of_decide_eq_true hok
    change (byteOrder edsId (native.take 2)).length = 2
    unfold byteOrder
    split
    · rw [length_reverse, length_take, Nat.min_eq_left hnative]
    · rw [length_take, Nat.min_eq_left hnative]

/-- A whole file is loaded faithfully. -/
theorem load_faithful_doubleTable : UseInv doubleTableState ∧ SizeInv smallTbl doubleTableState ∧
    smallEds.Sizes ∧ ∀ status s',
      (load smallTbl smallEds 1 0 (.file (tableFile 2 0 [3, 4])) fun _ => 0).run doubleTableState =
        .ok (status, s') →
      FaithfulLoad smallTbl smallEds doubleTableState 0 (tableFile 2 0 [3, 4]) status s' := by
  have huse := run_doubleTable.useInv
  have hinv := sizeInv_doubleTable
  have hindex : (doubleTableState.handles 0).regIndex = 0 := by decide +kernel
  have hdump : (doubleTableState.registry (doubleTableState.handles 0).regIndex).dumpOnly = false := by
    decide +kernel
  have hsize : (doubleTableState.registry 0).size = 2 := by decide +kernel
  have hfit : ¬AppOverrun smallTbl smallEds doubleTableState 1 0 (tableFile 2 0 [3, 4]) := by
    refine not_appOverrun fun std hdr hread => ?_
    obtain ⟨-, rfl⟩ := Prod.mk.inj (Except.ok.inj hread)
    refine ⟨by decide, fun info hinfo => ?_⟩
    obtain rfl := typeInfo_smallEds hinfo
    decide
  refine ⟨huse, hinv, sizes_smallEds, ?_⟩
  have hiff := load_faithful_iff huse hinv sizes_smallEds hdump hfit fun _ => 0
  refine hiff.2 fun _ _ work i std hdr info _ _ hfile _ => ?_
  obtain ⟨-, rfl⟩ := Prod.mk.inj (Except.ok.inj hfile.headers)
  obtain rfl := typeInfo_smallEds hfile.typeInfo
  refine faithfulWhen_whole ?_ (huse.table 0) _ (by decide) (by decide +kernel) hsize.le
  exact hinv.table 0 (.inl (by decide +kernel)) (by decide +kernel)

/-- A table of some bytes that has been loaded from memory. -/
def memoryTable (bytes : Bytes) : List Event :=
  [.register 1 ['T'] bytes.length ⟨true, false, false, false⟩ false true true,
    .load 1 0 (.address [] bytes) fun _ => 0]

/-- The state in which it has been loaded. -/
def memoryTableState (bytes : Bytes) : TblState :=
  stateAfter smallTbl smallEds (TblState.earlyInit smallTbl) (memoryTable bytes)

theorem run_memoryTable {bytes : Bytes}
    (h : faultAfter smallTbl smallEds (TblState.earlyInit smallTbl) (memoryTable bytes) = none) :
    Run smallTbl smallEds (memoryTable bytes) (memoryTableState bytes) :=
  Run.start.exec (exec_stateAfter h)

/-- Three loads that return success. The first file holds one byte of two and nothing is
loaded; the second cannot be decoded, as the table is too short for its type; the CRC after
the third is that of the two bytes of its type and not of the four of the table. -/
theorem load_not_faithful : (∀ bytes, bytes = [1, 2] ∨ bytes = [5] ∨ bytes = [1, 2, 7, 7] →
      Run smallTbl smallEds (memoryTable bytes) (memoryTableState bytes)) ∧
    (∃ s', (load smallTbl smallEds 1 0 (.file (tableFile 1 0 [3])) fun _ => 0).run
        (memoryTableState [1, 2]) = .ok (.success, s') ∧ activeImage s' 0 = [1, 2] ∧
      (fileDecode smallEds [1, 2] (tableFile 1 0 [3]) ⟨0, 1, ['A', '.', 'T'], 1⟩ ⟨16, 2⟩) =
        (true, [3, 2])) ∧
    (∃ s', (load smallTbl smallEds 1 0 (.file (tableFile 1 0 [3, 4])) fun _ => 0).run
        (memoryTableState [5]) = .ok (.success, s') ∧
      (fileDecode smallEds [5] (tableFile 1 0 [3, 4]) ⟨0, 2, ['A', '.', 'T'], 1⟩ ⟨16, 2⟩).1 =
        false) ∧
    ∃ s', (load smallTbl smallEds 1 0 (.file (tableFile 1 0 [3, 4])) fun _ => 0).run
        (memoryTableState [1, 2, 7, 7]) = .ok (.success, s') ∧ activeImage s' 0 = [3, 4, 7, 7] ∧
      (s'.buffers (activeBuffer s' 0)).crc = smallTbl.calculateCRC [3, 4] ∧
      smallTbl.calculateCRC [3, 4] ≠ smallTbl.calculateCRC [3, 4, 7, 7] := by
  refine ⟨?_, ⟨_, run_after (by decide +kernel), ?_, ?_⟩, ⟨_, run_after (by decide +kernel), ?_⟩,
    ⟨_, run_after (by decide +kernel), ?_, ?_, ?_⟩⟩
  · rintro bytes (rfl | rfl | rfl) <;> exact run_memoryTable (by decide +kernel)
  all_goals decide +kernel

end CfsEds.Tbl
