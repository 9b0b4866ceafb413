import CfsEds.Es.CdsRun

/-!
# The data of the critical data store

A handle reads what was last written to it, over any history of successful
registrations, writes and processor resets (`cds_history_reads_last_write`). The
history keeps a log: the size a handle was registered with, and the buffer of the
last successful write since. The invariant `HistoryInv` says that the block of a
handle holds the bytes of that buffer behind their CRC. Every step touches the
block of one handle only: `KeepsOthers` for a registration, `writeBlock_keeps` for a
write, and a reset touches descriptors only.

A resize that fails loses the data (`cds_resize_loses_data`), and
`cds_resize_atomic_iff` says exactly which resizes do.

A failed resize is also the only thing that spoils the ownership of blocks across
resets (`cds_run_shares_block_after_failed_resize`): in a run whose registrations
can all be served, the stored registry is current after every call, and every entry
in use has a block of its own (`cds_run_owned`).
-/

namespace CfsEds.Es

open CfsEds.Lib.Memory CfsEds.Lib.RefCount Function

variable {b : CdsBoot} {data : List (BitVec 8)} {fuel n : Nat}

section Blocks

variable {cfg : CdsConfig} {s s' : CdsState} {blocks : List Block} {free : Nat → List Nat}
  {handle size i : Nat}

/-! ## One block -/

/-- The block of entry `i` holds these data, behind their CRC. -/
def Holds (cfg : CdsConfig) (s : CdsState) (i : Nat) (data : List (BitVec 8)) : Prop :=
  readLE s.mem (s.record i).blockOffset blockHeaderSize = (cfg.calculateCRC data).toNat ∧
    readBytes s.mem ((s.record i).blockOffset + blockHeaderSize) data.length = data

/-- The bytes of the block of entry `i` are the same in both states. -/
def SameBytes (s s' : CdsState) (i : Nat) : Prop :=
  ∀ k, (s.record i).blockOffset ≤ k → k < (s.record i).blockOffset + (s.record i).blockSize →
    s'.mem k = s.mem k

theorem HasBlock.congr (h : HasBlock cfg s handle size i) (hrec : s'.record i = s.record i) :
    HasBlock cfg s' handle size i := by
  obtain ⟨hid, hblockID, hoff, hsize⟩ := h
  rw [← hrec] at hblockID hoff hsize
  exact ⟨hid, hblockID, hoff, hsize⟩

theorem Holds.congr (h : Holds cfg s i data) (hrec : s'.record i = s.record i)
    (hbytes : SameBytes s s' i) (hsize : (s.record i).blockSize = data.length + blockHeaderSize) :
    Holds cfg s' i data := by
  unfold Holds
  rw [hrec, readLE_congr _ _ fun k hk hk' => hbytes k hk (by omega),
    readBytes_congr fun k hk hk' => hbytes k (by omega) (by omega)]
  exact h

theorem cdsBlockRead_of_none (h : locateCDSBlockRecordByID cfg handle = none) :
    cdsBlockRead cfg s handle = (.resourceIdNotValid, none) := by
  unfold cdsBlockRead
  rw [h, Option.elim_none]

theorem cdsBlockRead_of_some (h : locateCDSBlockRecordByID cfg handle = some i) :
    cdsBlockRead cfg s handle = readRecord cfg s i handle := by
  unfold cdsBlockRead
  rw [h, Option.elim_some]

/-- A read depends on the record, the size that the pool knows and the bytes of the
block. -/
theorem CdsInv.cdsBlockRead_congr (h : CdsInv cfg s blocks free)
    (hblock : HasBlock cfg s handle size i) (hrec : s'.record i = s.record i)
    (hpool : genPoolGetBlockSize s'.poolState (s.record i).blockOffset =
      .ok (s.record i).blockSize) (hbytes : SameBytes s s' i) :
    cdsBlockRead cfg s' handle = cdsBlockRead cfg s handle := by
  rw [cdsBlockRead_of_some hblock.located, cdsBlockRead_of_some hblock.located]
  unfold readRecord
  simp only [hrec, hpool, h.genPoolGetBlockSize_eq hblock.inUse, h.dataOffset_eq hblock.inUse]
  split
  · rfl
  split
  · rfl
  · next hsize =>
    rw [readLE_congr _ _ fun k hk hk' => hbytes k hk (by omega),
      readBytes_congr fun k hk hk' => hbytes k (by omega) (by omega)]

/-- Reading a block that holds data. -/
theorem CdsInv.cdsBlockRead_of_holds (h : CdsInv cfg s blocks free)
    (hblock : HasBlock cfg s handle (data.length + blockHeaderSize) i) (hne : data ≠ [])
    (hdata : Holds cfg s i data) : cdsBlockRead cfg s handle = (.success, some data) := by
  have hpos := List.length_pos_iff.2 hne
  rw [cdsBlockRead_of_some hblock.located]
  unfold readRecord
  simp only [h.genPoolGetBlockSize_eq hblock.inUse, h.dataOffset_eq hblock.inUse]
  rw [if_neg (not_not.2 hblock.blockID), hblock.blockSize, if_neg (by omega), Nat.add_sub_cancel,
    hdata.1, hdata.2, if_neg (not_not.2 rfl)]

/-! ## Writes -/

theorem writeBlock_holds (cfg : CdsConfig) (s : CdsState) (i : Nat) (data : List (BitVec 8)) :
    Holds cfg (writeBlock cfg s i data) i data := by
  have hcrc := (cfg.calculateCRC data).isLt
  refine ⟨?_, readBytes_writeBytes _ _ _⟩
  show readLE (writeBytes _ _ data) (s.record i).blockOffset blockHeaderSize = _
  rw [readLE_congr _ _ fun k _ hk' => writeBytes_of_outside (.inl hk'), readLE_writeLE_of_lt hcrc]

/-- A write to one block leaves the others alone. -/
theorem CdsInv.writeBlock_keeps (h : CdsInv cfg s blocks free) (hin : InUse s.registry i)
    {data : List (BitVec 8)} (hsize : (s.record i).blockSize = data.length + blockHeaderSize) :
    KeepsOthers s (writeBlock cfg s i data) i := by
  refine fun j hji => ⟨rfl, fun hj k hk hk' => ?_⟩
  obtain ⟨b, hb, _, _, hoff, hrec⟩ := h.block hin
  obtain ⟨c, hc, _, _, hoff', hrec'⟩ := h.block hj
  have hne : b.offset ≠ c.offset := by
    rw [← hoff, ← hoff']
    exact fun heq => hji (h.owned.distinct i j hin hj heq).symm
  have hb' := (h.store.pool.stored b hb).size
  have hc' := (h.store.pool.stored c hc).size
  refine writeBlock_of_outside hsize ?_
  rcases chain_apart h.store.pool.chain hb hc with rfl | hlt | hlt
  · exact absurd rfl hne
  · omega
  · omega

theorem genPoolGetBlockSize_zero (ps : PoolState) :
    genPoolGetBlockSize ps 0 = .error .bufferNotInPool := by
  unfold genPoolGetBlockSize allocatedBlock
  rw [if_pos (.inr (by decide))]
  rfl

/-- What a read returns for an entry that is not the handle's or has no block. -/
theorem readRecord_no_block (h : ¬ ((s.record i).blockID = handle ∧ (s.record i).blockOffset ≠ 0)) :
    readRecord cfg s i handle = (if (s.record i).blockID = handle then .pool .bufferNotInPool
      else .resourceIdNotValid, none) := by
  unfold readRecord
  by_cases hmatch : (s.record i).blockID = handle
  · have hoff : (s.record i).blockOffset = 0 := by
      by_contra hne
      exact h ⟨hmatch, hne⟩
    rw [if_pos hmatch]
    simp only [hoff, genPoolGetBlockSize_zero]
    rw [if_neg (not_not.2 hmatch)]
  · rw [if_neg hmatch]
    exact if_pos hmatch

/-- A handle with a block can be written. -/
theorem CdsInv.write_success (h : CdsInv cfg s blocks free)
    (hblock : HasBlock cfg s handle (n + blockHeaderSize) i) (hpos : 0 < n) (dataToWrite : Mem) :
    (cdsBlockWrite cfg s handle dataToWrite).1 = .success := by
  unfold cdsBlockWrite
  rw [hblock.located, Option.elim_some]
  unfold writeRecord
  simp only [h.genPoolGetBlockSize_eq hblock.inUse]
  rw [if_neg (not_not.2 hblock.blockID), hblock.blockSize, if_neg (by omega)]

/-- What one handle reads does not change when another one is written. -/
theorem CdsInv.read_of_write_other (h : CdsInv cfg s blocks free) {other : Nat}
    (hne : other ≠ handle) (dataToWrite : Mem) :
    cdsBlockRead cfg (cdsBlockWrite cfg s handle dataToWrite).2 other =
      cdsBlockRead cfg s other := by
  have hinv := (h.write handle dataToWrite).1
  rcases h.write_outcome handle dataToWrite with ⟨_, hsame⟩ | ⟨i, n, _, hblock, hwrite⟩
  · rw [hsame]
  rw [hwrite] at hinv ⊢
  cases hid : locateCDSBlockRecordByID cfg other with
  | none => rw [cdsBlockRead_of_none hid, cdsBlockRead_of_none hid]
  | some j =>
    by_cases hhas : (s.record j).blockID = other ∧ (s.record j).blockOffset ≠ 0
    · have hother : HasBlock cfg s other (s.record j).blockSize j := ⟨hid, hhas.1, hhas.2, rfl⟩
      have hji : j ≠ i := by
        rintro rfl
        exact hne (hhas.1.symm.trans hblock.blockID)
      have hkeeps := @CdsInv.writeBlock_keeps _ _ _ _ _ h hblock.inUse (readBytes dataToWrite 0 n)
        (by rw [length_readBytes]; exact hblock.blockSize)
      exact h.cdsBlockRead_congr hother rfl (hinv.genPoolGetBlockSize_eq hother.inUse)
        ((hkeeps j hji).2 hother.inUse)
    · rw [cdsBlockRead_of_some hid, cdsBlockRead_of_some hid, readRecord_no_block hhas]
      exact readRecord_no_block hhas

/-- A read that succeeds has found the CRC of the bytes it returns in the header of
the block, whatever the storage holds. -/
theorem cdsBlockRead_success {data : Option (List (BitVec 8))}
    (h : cdsBlockRead cfg s handle = (.success, data)) :
    ∃ i, locateCDSBlockRecordByID cfg handle = some i ∧ (s.record i).blockID = handle ∧
      blockHeaderSize < (s.record i).blockSize ∧
      data = some (readBytes s.mem (sizeT ((s.record i).blockOffset + blockHeaderSize))
        ((s.record i).blockSize - blockHeaderSize)) ∧
      (cfg.calculateCRC (readBytes s.mem (sizeT ((s.record i).blockOffset + blockHeaderSize))
        ((s.record i).blockSize - blockHeaderSize))).toNat =
          readLE s.mem (s.record i).blockOffset blockHeaderSize := by
  cases hid : locateCDSBlockRecordByID cfg handle with
  | none =>
    rw [cdsBlockRead_of_none hid] at h
    exact absurd (congrArg Prod.fst h) (by simp)
  | some i =>
    rw [cdsBlockRead_of_some hid] at h
    unfold readRecord at h
    simp only at h
    split at h
    · exact absurd (congrArg Prod.fst h) (by simp)
    rename_i hmatch
    split at h
    · exact absurd (congrArg Prod.fst h) (by simp)
    split at h
    · exact absurd (congrArg Prod.fst h) (by simp)
    obtain ⟨hstatus, hdata⟩ := Prod.mk.inj h
    refine ⟨i, rfl, Decidable.not_not.1 hmatch, by omega, hdata.symm, ?_⟩
    by_contra hcrc
    rw [if_pos hcrc] at hstatus
    cases hstatus

/-! ## Resets -/

/-- A reset reads the registry back, and changes no byte of the block of an entry;
the pool still knows the block. -/
theorem CdsInv.reset_block (h : CdsInv cfg s blocks free)
    (hboot : cdsEarlyInit fuel cfg s.mem = some b) :
    b.state.registry = readRegistry cfg s.mem ∧
    readRegistry cfg b.state.mem = readRegistry cfg s.mem ∧
    ∀ i, InUse s.registry i → b.state.record i = s.record i ∧ SameBytes s b.state i ∧
      genPoolGetBlockSize b.state.poolState (s.record i).blockOffset =
        .ok (s.record i).blockSize := by
  obtain ⟨ps', free', hstore, hmem, hreg, _, hunique⟩ := h.store.restart
  obtain rfl := hunique fuel b hboot
  refine ⟨rfl, hreg, fun i hin => ⟨h.synced i hin, fun k hk hk' => hmem k fun c hc => ?_, ?_⟩⟩
  · obtain ⟨d, hd, _, _, hoff, hsize⟩ := h.block hin
    rw [hoff] at hk hk'
    rw [hsize] at hk'
    exact h.store.outside_descriptor hc hd hk hk'
  · obtain ⟨d, hd, hfree, hne, hoff, hsize⟩ := h.block hin
    rw [hoff, hsize]
    exact hstore.genPoolGetBlockSize_eq hd hfree hne

/-- A handle with a block reads the same after a reset. -/
theorem CdsInv.read_of_reset (h : CdsInv cfg s blocks free) (hblock : HasBlock cfg s handle size i)
    (hboot : cdsEarlyInit fuel cfg s.mem = some b) :
    cdsBlockRead cfg b.state handle = cdsBlockRead cfg s handle := by
  obtain ⟨_, _, hentry⟩ := h.reset_block hboot
  obtain ⟨hrec, hbytes, hpool⟩ := hentry i hblock.inUse
  exact h.cdsBlockRead_congr hblock hrec hpool hbytes

end Blocks

/-! ## Histories -/

/-- What the users of the store know: the size each handle was registered with, and
the buffer of the last successful write to it since. -/
structure CdsLog where
  size : Nat → Option Nat
  written : Nat → Option Mem

/-- A block of that size for the handle. -/
def CdsLog.registered (log : CdsLog) (handle userBlockSize : Nat) : CdsLog where
  size := Function.update log.size handle (some userBlockSize)
  written := Function.update log.written handle none

/-- A successful write. -/
def CdsLog.wrote (log : CdsLog) (handle : Nat) (dataToWrite : Mem) : CdsLog where
  size := log.size
  written := Function.update log.written handle (some dataToWrite)

section Log

variable {log : CdsLog} {handle other n : Nat} {buf : Mem}

@[simp] theorem CdsLog.registered_size : (log.registered handle n).size handle = some n :=
  update_self _ _ _

@[simp] theorem CdsLog.registered_written : (log.registered handle n).written handle = none :=
  update_self _ _ _

@[simp] theorem CdsLog.registered_size_of_ne (h : other ≠ handle) :
    (log.registered handle n).size other = log.size other :=
  update_of_ne h _ _

@[simp] theorem CdsLog.registered_written_of_ne (h : other ≠ handle) :
    (log.registered handle n).written other = log.written other :=
  update_of_ne h _ _

@[simp] theorem CdsLog.wrote_written : (log.wrote handle buf).written handle = some buf :=
  update_self _ _ _

@[simp] theorem CdsLog.wrote_written_of_ne (h : other ≠ handle) :
    (log.wrote handle buf).written other = log.written other :=
  update_of_ne h _ _

end Log

/-- A store that was made by a start-up, used by registrations that all succeeded
and by any writes, and possibly reset; with its log. -/
inductive CdsHistory (cfg : CdsConfig) : CdsState → CdsLog → Prop where
  | boot {fuel : Nat} {m : Mem} {s : CdsState} (hinvalid : validateCDS cfg m = .invalid)
      (h : cdsEarlyInit fuel cfg m = some ⟨.success, true, s⟩) :
      CdsHistory cfg s ⟨fun _ => none, fun _ => none⟩
  | register {s : CdsState} {log : CdsLog} (hist : CdsHistory cfg s log) (userBlockSize : Nat)
      (name : List (BitVec 8)) (criticalTbl : Bool) {id : Nat}
      (hok : (registerCDSEx cfg s userBlockSize name criticalTbl).1 = (.success, some id)) :
      CdsHistory cfg (registerCDSEx cfg s userBlockSize name criticalTbl).2
        (log.registered id userBlockSize)
  | registerAgain {s : CdsState} {log : CdsLog} (hist : CdsHistory cfg s log) (userBlockSize : Nat)
      (name : List (BitVec 8)) (criticalTbl : Bool)
      (hok : (registerCDSEx cfg s userBlockSize name criticalTbl).1.1 = .alreadyExists) :
      CdsHistory cfg (registerCDSEx cfg s userBlockSize name criticalTbl).2 log
  | write {s : CdsState} {log : CdsLog} (hist : CdsHistory cfg s log) (handle : Nat)
      (dataToWrite : Mem) :
      CdsHistory cfg (cdsBlockWrite cfg s handle dataToWrite).2
        (if (cdsBlockWrite cfg s handle dataToWrite).1 = .success then log.wrote handle dataToWrite
        else log)
  | reset {fuel : Nat} {s s' : CdsState} {log : CdsLog} (hist : CdsHistory cfg s log)
      (h : cdsEarlyInit fuel cfg s.mem = some ⟨.success, true, s'⟩) : CdsHistory cfg s' log

/-- The log describes the store. -/
structure HistoryInv (cfg : CdsConfig) (s : CdsState) (log : CdsLog) : Prop where
  inv : ∃ blocks free, CdsInv cfg s blocks free
  current : readRegistry cfg s.mem = s.registry
  entry : ∀ handle n, log.size handle = some n → 0 < n ∧
    ∃ i, HasBlock cfg s handle (n + blockHeaderSize) i ∧
      ∀ buf, log.written handle = some buf → Holds cfg s i (readBytes buf 0 n)
  logged : ∀ handle size i, HasBlock cfg s handle size i → ∃ n, log.size handle = some n
  written : ∀ handle buf, log.written handle = some buf → ∃ n, log.size handle = some n

section History

variable {cfg : CdsConfig} {s s' : CdsState} {log : CdsLog}

/-- An entry whose record and bytes are as before is as the log says. -/
theorem entry_congr {handle i : Nat} (hblock : HasBlock cfg s handle (n + blockHeaderSize) i)
    (hheld : ∀ buf, log.written handle = some buf → Holds cfg s i (readBytes buf 0 n))
    (hrec : s'.record i = s.record i) (hbytes : SameBytes s s' i) :
    HasBlock cfg s' handle (n + blockHeaderSize) i ∧
      ∀ buf, log.written handle = some buf → Holds cfg s' i (readBytes buf 0 n) :=
  ⟨hblock.congr hrec, fun buf hbuf => (hheld buf hbuf).congr hrec hbytes
    (by rw [length_readBytes]; exact hblock.blockSize)⟩

/-- A new store has no entry with a block. -/
theorem HistoryInv.boot {m : Mem} (hinvalid : validateCDS cfg m = .invalid)
    (h : cdsEarlyInit fuel cfg m = some ⟨.success, true, s⟩) :
    HistoryInv cfg s ⟨fun _ => none, fun _ => none⟩ := by
  obtain ⟨hinv, hcurrent⟩ := cdsEarlyInit_new hinvalid h
  refine ⟨⟨_, _, hinv⟩, hcurrent, fun _ _ hf => absurd hf (by simp),
    fun handle size i hblock => ?_, fun _ _ hf => absurd hf (by simp)⟩
  obtain ⟨b, hb, _⟩ := hinv.owned.backed i hblock.inUse
  cases hb

/-- A registration that makes a block. -/
theorem HistoryInv.register (h : HistoryInv cfg s log) {userBlockSize : Nat}
    {name : List (BitVec 8)} {criticalTbl : Bool} {id : Nat}
    (hok : (registerCDSEx cfg s userBlockSize name criticalTbl).1 = (.success, some id)) :
    HistoryInv cfg (registerCDSEx cfg s userBlockSize name criticalTbl).2
      (log.registered id userBlockSize) := by
  obtain ⟨blocks, free, hinv⟩ := h.inv
  have hreg := hinv.register userBlockSize name criticalTbl
  obtain ⟨i, id', hid', hblock, hcurrent, hkeeps, hsame⟩ := hreg.stored (congrArg Prod.fst hok)
  obtain rfl : id' = id := Option.some.inj (hid'.symm.trans (congrArg Prod.snd hok))
  refine ⟨hreg.inv, hcurrent, fun handle n hn => ?_, fun handle size j hj => ?_,
    fun handle buf hbuf => ?_⟩
  · by_cases hhandle : handle = id'
    · subst hhandle
      rw [CdsLog.registered_size] at hn
      obtain rfl := Option.some.inj hn
      refine ⟨registerCDSEx_size_pos (congrArg Prod.fst hok), i, hblock, fun buf hbuf => ?_⟩
      rw [CdsLog.registered_written] at hbuf
      cases hbuf
    rw [CdsLog.registered_size_of_ne hhandle] at hn
    rw [CdsLog.registered_written_of_ne hhandle]
    obtain ⟨hpos, j, hj, hheld⟩ := h.entry handle n hn
    have hji : j ≠ i := by
      rintro rfl
      exact hhandle (hj.blockID.symm.trans (hsame hj.inUse))
    exact ⟨hpos, j, entry_congr hj hheld (hkeeps j hji).1 ((hkeeps j hji).2 hj.inUse)⟩
  · by_cases hhandle : handle = id'
    · exact ⟨userBlockSize, by rw [hhandle, CdsLog.registered_size]⟩
    have hji : j ≠ i := by
      rintro rfl
      exact hhandle (hj.blockID.symm.trans hblock.blockID)
    obtain ⟨n, hn⟩ := h.logged handle size j (hj.congr (hkeeps j hji).1.symm)
    exact ⟨n, by rw [CdsLog.registered_size_of_ne hhandle, hn]⟩
  · by_cases hhandle : handle = id'
    · rw [hhandle, CdsLog.registered_written] at hbuf
      cases hbuf
    · rw [CdsLog.registered_written_of_ne hhandle] at hbuf
      rw [CdsLog.registered_size_of_ne hhandle]
      exact h.written handle buf hbuf

/-- A write, whether it succeeds or not. -/
theorem HistoryInv.write (h : HistoryInv cfg s log) (handle : Nat) (dataToWrite : Mem) :
    HistoryInv cfg (cdsBlockWrite cfg s handle dataToWrite).2
      (if (cdsBlockWrite cfg s handle dataToWrite).1 = .success then log.wrote handle dataToWrite
      else log) := by
  obtain ⟨blocks, free, hinv⟩ := h.inv
  have hinv' := (hinv.write handle dataToWrite).1
  rcases hinv.write_outcome handle dataToWrite with ⟨hstatus, hsame⟩ | ⟨i, n, hpos, hblock, hwrite⟩
  · rw [if_neg hstatus, hsame]
    exact h
  rw [hwrite] at hinv' ⊢
  simp only [if_true] at hinv' ⊢
  have hsize : (s.record i).blockSize = (readBytes dataToWrite 0 n).length + blockHeaderSize := by
    rw [length_readBytes]
    exact hblock.blockSize
  have hkeeps := hinv.writeBlock_keeps hblock.inUse hsize
  obtain ⟨n', hn'⟩ := h.logged handle _ i hblock
  refine ⟨⟨_, _, hinv'⟩, (hinv.readRegistry_writeBlock hblock.inUse hsize).trans h.current,
    fun other k hk => ?_, fun other k j hj => h.logged other k j (hj.congr rfl),
    fun other buf hbuf => ?_⟩
  · obtain ⟨hkpos, j, hj, hheld⟩ := h.entry other k hk
    by_cases hother : other = handle
    · subst hother
      obtain rfl : j = i := Option.some.inj (hj.located.symm.trans hblock.located)
      have hkn : k = n := Nat.add_right_cancel (hj.blockSize.symm.trans hblock.blockSize)
      refine ⟨hkpos, j, hj.congr rfl, fun buf hbuf => ?_⟩
      rw [CdsLog.wrote_written] at hbuf
      rw [← Option.some.inj hbuf, hkn]
      exact writeBlock_holds cfg s j _
    · have hji : j ≠ i := by
        rintro rfl
        exact hother (hj.blockID.symm.trans hblock.blockID)
      refine ⟨hkpos, j, ?_⟩
      rw [CdsLog.wrote_written_of_ne hother]
      exact entry_congr hj hheld rfl ((hkeeps j hji).2 hj.inUse)
  · by_cases hother : other = handle
    · exact ⟨n', by rw [hother]; exact hn'⟩
    · rw [CdsLog.wrote_written_of_ne hother] at hbuf
      exact h.written other buf hbuf

/-- A reset finds the registry that was in RAM, and the blocks as they were. -/
theorem HistoryInv.reset (h : HistoryInv cfg s log) (hboot : cdsEarlyInit fuel cfg s.mem = some b) :
    HistoryInv cfg b.state log := by
  obtain ⟨blocks, free, hinv⟩ := h.inv
  obtain ⟨⟨free', hinv'⟩, _⟩ := hinv.reset (.of_eq h.current) hboot
  obtain ⟨hreg, hmem, hentry⟩ := hinv.reset_block hboot
  have hreg' : b.state.registry = s.registry := hreg.trans h.current
  have hrec : ∀ i, b.state.record i = s.record i := fun i =>
    congrArg (fun reg => reg.getD i default) hreg'
  refine ⟨⟨_, _, hinv'⟩, hmem.trans hreg.symm, fun handle n hn => ?_,
    fun handle size i hblock => h.logged handle size i (hblock.congr (hrec i).symm), h.written⟩
  obtain ⟨hpos, i, hblock, hheld⟩ := h.entry handle n hn
  exact ⟨hpos, i, entry_congr hblock hheld (hrec i) (hentry i hblock.inUse).2.1⟩

theorem CdsHistory.historyInv (h : CdsHistory cfg s log) : HistoryInv cfg s log := by
  induction h with
  | boot hinvalid h => exact HistoryInv.boot hinvalid h
  | register hist userBlockSize name criticalTbl hok ih => exact ih.register hok
  | registerAgain hist userBlockSize name criticalTbl hok ih =>
    obtain ⟨blocks, free, hinv⟩ := ih.inv
    rw [(hinv.register userBlockSize name criticalTbl).unchanged hok]
    exact ih
  | write hist handle dataToWrite ih => exact ih.write handle dataToWrite
  | reset hist h ih => exact ih.reset h

/-- Data integrity of the critical data store, for every history of successful
registrations, writes and processor resets: a registered handle can be written; a
handle reads what was last written to it; a write does not change what any other
handle reads; whatever the storage holds, a read that succeeds returns bytes whose
CRC is in the header of the block; and a reset comes back with a store. -/
theorem cds_history_reads_last_write (cfg : CdsConfig) (s : CdsState) (log : CdsLog)
    (h : CdsHistory cfg s log) :
    (∀ handle n, log.size handle = some n → ∀ dataToWrite,
      (cdsBlockWrite cfg s handle dataToWrite).1 = .success) ∧
    (∀ handle buf, log.written handle = some buf → ∃ n, log.size handle = some n ∧
      cdsBlockRead cfg s handle = (.success, some (readBytes buf 0 n))) ∧
    (∀ handle other dataToWrite, other ≠ handle →
      cdsBlockRead cfg (cdsBlockWrite cfg s handle dataToWrite).2 other =
        cdsBlockRead cfg s other) ∧
    (∀ m handle data, cdsBlockRead cfg { s with mem := m } handle = (.success, data) →
      ∃ i, locateCDSBlockRecordByID cfg handle = some i ∧ (s.record i).blockID = handle ∧
        blockHeaderSize < (s.record i).blockSize ∧
        data = some (readBytes m (sizeT ((s.record i).blockOffset + blockHeaderSize))
          ((s.record i).blockSize - blockHeaderSize)) ∧
        (cfg.calculateCRC (readBytes m (sizeT ((s.record i).blockOffset + blockHeaderSize))
          ((s.record i).blockSize - blockHeaderSize))).toNat =
            readLE m (s.record i).blockOffset blockHeaderSize) ∧
    ∃ fuel s', cdsEarlyInit fuel cfg s.mem = some ⟨.success, true, s'⟩ := by
  have hhist := h.historyInv
  obtain ⟨blocks, free, hinv⟩ := hhist.inv
  refine ⟨fun handle n hn dataToWrite => ?_, fun handle buf hbuf => ?_,
    fun handle other dataToWrite hne => hinv.read_of_write_other hne dataToWrite,
    fun m handle data hread => cdsBlockRead_success hread, ?_⟩
  · obtain ⟨hpos, i, hblock, _⟩ := hhist.entry handle n hn
    exact hinv.write_success hblock hpos dataToWrite
  · obtain ⟨n, hn⟩ := hhist.written handle buf hbuf
    obtain ⟨hpos, i, hblock, hheld⟩ := hhist.entry handle n hn
    have hne : readBytes buf 0 n ≠ [] := by
      rw [← List.length_pos_iff, length_readBytes]
      exact hpos
    rw [← length_readBytes buf 0 n] at hblock
    exact ⟨n, hn, hinv.cdsBlockRead_of_holds hblock hne (hheld buf hbuf)⟩
  · obtain ⟨ps', _, _, _, _, ⟨fuel, hboot⟩, _⟩ := hinv.store.restart
    exact ⟨fuel, _, hboot⟩

/-- A block of four bytes is written, and read back after a reset. -/
theorem cds_history_reads_last_write_one_block : ∃ s log, CdsHistory smallCds s log ∧
      cdsBlockRead smallCds s (cdsBlockIdBase + 1) = (.success, some [7, 7, 7, 7]) := by
  have hboot : CdsHistory smallCds (bootState 600 smallCds fun _ => 0)
      ⟨fun _ => none, fun _ => none⟩ :=
    CdsHistory.boot (by decide +kernel) (cdsEarlyInit_bootState (by decide +kernel))
  have hreg := @CdsHistory.register _ _ _ hboot 4 [0x41] false (cdsBlockIdBase + 1)
    (by decide +kernel)
  have hwrite := hreg.write (cdsBlockIdBase + 1) fun _ => 7
  rw [if_pos (by decide +kernel)] at hwrite
  have hreset := hwrite.reset (@cdsEarlyInit_bootState _ 30 _ (by decide +kernel))
  obtain ⟨n, hn, hread⟩ := (cds_history_reads_last_write smallCds _ _ hreset).2.1
    (cdsBlockIdBase + 1) (fun _ => 7) CdsLog.wrote_written
  obtain rfl : 4 = n := Option.some.inj hn
  exact ⟨_, _, hreset, hread⟩

end History

/-! ## Failed resizes -/

/-- The pool can serve a block of the new size once the block of the old size is
back: there is a bucket for it, which is the bucket of the old block, or has a free
block, or has room for one behind the tail. -/
def ResizeFits (p : GenPoolRecord) (oldBlockSize newBlockSize : Nat) : Prop :=
  bucketFor p newBlockSize < p.numBuckets ∧ (bucketFor p newBlockSize = bucketFor p oldBlockSize ∨
    (p.bucket (bucketFor p newBlockSize)).firstOffset ≠ 0 ∨
    sizeT (nextBlockOffset p.alignMask p.tailPosition +
      (p.bucket (bucketFor p newBlockSize)).blockSize) ≤ p.poolMaxOffset)

/-- The answer of a registration is an error. -/
def Failed (status : CdsStatus) : Prop := status ≠ .success ∧ status ≠ .alreadyExists

/-- The handle reads these data, at once and after a processor reset. -/
structure ReadsBack (cfg : CdsConfig) (s : CdsState) (handle : Nat) (data : List (BitVec 8)) :
    Prop where
  now : cdsBlockRead cfg s handle = (.success, some data)
  restarts : ∃ fuel b, cdsEarlyInit fuel cfg s.mem = some b
  afterReset : ∀ fuel b, cdsEarlyInit fuel cfg s.mem = some b →
    cdsBlockRead cfg b.state handle = (.success, some data)

section Resize

variable {cfg : CdsConfig} {s : CdsState} {blocks : List Block} {free : Nat → List Nat}

/-- A resize succeeds if the pool can serve it; otherwise the entry has lost its
block. -/
theorem CdsInv.resize (h : CdsInv cfg s blocks free) {name : List (BitVec 8)} {handle i : Nat}
    (hname : locateCDSBlockRecordByName s name = some i)
    (hblock : HasBlock cfg s handle n i) {userBlockSize : Nat}
    (hsize : ¬ (userBlockSize = 0 ∨ userBlockSize > cdsAbsMaxBlockSize))
    (hdiff : userBlockSize + blockHeaderSize ≠ n) (criticalTbl : Bool) :
    (ResizeFits s.pool n (userBlockSize + blockHeaderSize) ∧
      (registerCDSEx cfg s userBlockSize name criticalTbl).1.1 = .success) ∨
    (¬ ResizeFits s.pool n (userBlockSize + blockHeaderSize) ∧
      Failed (registerCDSEx cfg s userBlockSize name criticalTbl).1.1 ∧
      ((registerCDSEx cfg s userBlockSize name criticalTbl).2.record i).blockOffset = 0) := by
  obtain ⟨b, hb, hfree, hne, hoff', hrec⟩ := h.block hblock.inUse
  have hrec' : b.size = n := hrec.symm.trans hblock.blockSize
  obtain ⟨hput, hstore⟩ := h.store.put hb hfree hne
  have hcan := h.store.pool.canGet_put hb hfree hne (userBlockSize + blockHeaderSize)
  rw [h.store.bucket b hb hfree, hrec'] at hcan
  have hmax : (genPoolPutBlock s.poolState b.offset).2.pool.poolMaxOffset < 2 ^ 32 := by
    have hmax := hstore.maxOffset_eq
    have htotal := cfg.totalSize_lt
    omega
  have hget := hstore.pool.get_isOk_iff hmax (userBlockSize + blockHeaderSize)
  have hlt := lt_of_isUsed hblock.inUse.1
  have hold : (s.record i).blockOffset ≠ 0 ∧
      userBlockSize + blockHeaderSize ≠ (s.record i).blockSize :=
    ⟨hblock.blockOffset, hblock.blockSize.symm ▸ hdiff⟩
  rcases hput' : genPoolPutBlock s.poolState b.offset with ⟨status, ps⟩
  rw [hput'] at hput hget hcan
  simp only at hput hget hcan
  obtain ⟨s₁, hrelease, hpool, hzero⟩ : ∃ s₁,
      releaseOldBlock s i (userBlockSize + blockHeaderSize) = (.ok (), s₁) ∧ s₁.poolState = ps ∧
        (s₁.record i).blockOffset = 0 := by
    unfold releaseOldBlock
    simp only [if_pos hold]
    rw [hoff', hput', hput]
    exact ⟨_, rfl, rfl, congrArg CdsRegRec.blockOffset (getD_modify_self (l := s.registry)
      (g := fun r : CdsRegRec => { r with blockOffset := 0, blockSize := 0 }) hlt)⟩
  rw [registerCDSEx_of_some hsize hname, (newBlockSize_eq hsize).1]
  unfold registerRecord
  simp only [hrelease]
  unfold allocateBlock
  simp only [if_pos hzero, hpool]
  cases hr : genPoolGetBlock ps (userBlockSize + blockHeaderSize) with
  | ok r => exact .inl ⟨hcan.1 (hget.1 ⟨r, hr⟩), rfl⟩
  | error =>
    refine .inr ⟨fun hfits => ?_, ⟨by simp, by simp⟩, hzero⟩
    obtain ⟨r, hr'⟩ := hget.2 (hcan.2 hfits)
    exact absurd (hr.symm.trans hr') (by simp)

/-- When a failed resize is harmless: for a handle that reads its data in any state
of a run whose resets all found a current registry, and a registration of its name
with another size, the data are still there after an error exactly if the size is
out of range, so that the call does nothing, or the pool can serve it, so that there
is no error. -/
theorem cds_resize_atomic_iff (cfg : CdsConfig) (s : CdsState)
    (hrun : CdsRun cfg AnyCall (RegistryCurrent cfg) s) (name : List (BitVec 8)) (i : Nat)
    (hname : locateCDSBlockRecordByName s name = some i) (data : List (BitVec 8))
    (hread : cdsBlockRead cfg s (s.record i).blockID = (.success, some data))
    (userBlockSize : Nat) (hdiff : userBlockSize ≠ data.length) (criticalTbl : Bool) :
    (Failed (registerCDSEx cfg s userBlockSize name criticalTbl).1.1 →
      ReadsBack cfg (registerCDSEx cfg s userBlockSize name criticalTbl).2 (s.record i).blockID
        data) ↔
    (userBlockSize = 0 ∨ userBlockSize > cdsAbsMaxBlockSize) ∨
      ResizeFits s.pool (data.length + blockHeaderSize) (userBlockSize + blockHeaderSize) := by
  obtain ⟨blocks, free, hinv⟩ := hrun.exists_cdsInv
  have hid : locateCDSBlockRecordByID cfg (s.record i).blockID = some i :=
    hinv.ids i (locateCDSBlockRecordByName_isUsed hname).2
  have hblock : HasBlock cfg s (s.record i).blockID (data.length + blockHeaderSize) i := by
    refine ⟨hid, rfl, fun h0 => ?_, ?_⟩
    · rw [cdsBlockRead_of_some hid, readRecord_no_block fun hne => hne.2 h0] at hread
      exact absurd (congrArg Prod.snd hread) (by simp)
    · obtain ⟨j, hj, _, hlt, hdata, _⟩ := cdsBlockRead_success hread
      obtain rfl : i = j := Option.some.inj (hid.symm.trans hj)
      rw [Option.some.inj hdata, length_readBytes]
      omega
  by_cases hsize : userBlockSize = 0 ∨ userBlockSize > cdsAbsMaxBlockSize
  · refine ⟨fun _ => .inl hsize, fun _ _ => ?_⟩
    have hsame : (registerCDSEx cfg s userBlockSize name criticalTbl).2 = s := by
      unfold registerCDSEx
      rw [if_pos hsize]
    rw [hsame]
    obtain ⟨ps', _, _, _, _, ⟨fuel, hboot⟩, _⟩ := hinv.store.restart
    exact ⟨hread, ⟨fuel, _, hboot⟩, fun fuel b hboot =>
      (hinv.read_of_reset hblock hboot).trans hread⟩
  rcases hinv.resize hname hblock hsize (by omega) criticalTbl with
    ⟨hfits, hok⟩ | ⟨hfits, hfailed, hlost⟩
  · exact ⟨fun _ => .inr hfits, fun _ hfailed => absurd hok hfailed.1⟩
  constructor
  · intro hback
    have hnow := (hback hfailed).now
    rw [cdsBlockRead_of_some hid, readRecord_no_block (fun hne => hne.2 hlost)] at hnow
    exact absurd (congrArg Prod.snd hnow) (by simp)
  · rintro (hbad | hfits')
    · exact absurd hbad hsize
    · exact absurd hfits' hfits

/-- A store with one block, of four bytes, that was written. -/
def oneBlock : CdsState :=
  (cdsBlockWrite smallCds
    (registerCDSEx smallCds (bootState 600 smallCds fun _ => 0) 4 [0x41] false).2
    (cdsBlockIdBase + 1) fun _ => 7).2

/-- It is reached under any condition that the one registration meets. -/
theorem oneBlock_run {Fits : CdsState → Nat → List (BitVec 8) → Prop} {Ok : CdsState → Prop}
    (hfits : Fits (bootState 600 smallCds fun _ => 0) 4 [0x41]) :
    CdsRun smallCds Fits Ok oneBlock :=
  ((CdsRun.boot (by decide +kernel) (cdsEarlyInit_bootState (by decide +kernel))).register 4 [0x41]
    false hfits).write (cdsBlockIdBase + 1) fun _ => 7

theorem oneBlock_read : cdsBlockRead smallCds oneBlock (oneBlock.record 1).blockID =
      (.success, some [7, 7, 7, 7]) := by
  decide +kernel

/-- A resize to zero bytes fails and leaves the data alone. -/
theorem cds_resize_atomic_iff_zero : Failed (registerCDSEx smallCds oneBlock 0 [0x41] false).1.1 ∧
      ReadsBack smallCds (registerCDSEx smallCds oneBlock 0 [0x41] false).2
        (oneBlock.record 1).blockID [7, 7, 7, 7] := by
  have hfailed : Failed (registerCDSEx smallCds oneBlock 0 [0x41] false).1.1 := by
    unfold registerCDSEx
    exact ⟨by simp, by simp⟩
  exact ⟨hfailed, (cds_resize_atomic_iff smallCds oneBlock (oneBlock_run trivial) [0x41] 1
    (by decide +kernel) [7, 7, 7, 7] oneBlock_read 0 (by decide) false).2 (.inl (.inl rfl))
    hfailed⟩

/-- A resize to 8000 bytes fails for want of room, and the four bytes are lost. -/
theorem cds_resize_loses_data : CdsRun smallCds AnyCall (RegistryCurrent smallCds) oneBlock ∧
      locateCDSBlockRecordByName oneBlock [0x41] = some 1 ∧
      cdsBlockRead smallCds oneBlock (oneBlock.record 1).blockID = (.success, some [7, 7, 7, 7]) ∧
      Failed (registerCDSEx smallCds oneBlock 8000 [0x41] false).1.1 ∧
      ¬ ReadsBack smallCds (registerCDSEx smallCds oneBlock 8000 [0x41] false).2
        (oneBlock.record 1).blockID [7, 7, 7, 7] := by
  have hstatus : (registerCDSEx smallCds oneBlock 8000 [0x41] false).1.1 =
      .pool .errMemBlockSize := by decide +kernel
  have hread : cdsBlockRead smallCds (registerCDSEx smallCds oneBlock 8000 [0x41] false).2
      (oneBlock.record 1).blockID = (.pool .bufferNotInPool, none) := by decide +kernel
  refine ⟨oneBlock_run trivial, by decide +kernel, oneBlock_read, ?_, fun hback => ?_⟩
  · rw [hstatus]
    exact ⟨by simp, by simp⟩
  · exact absurd (hread.symm.trans hback.now) (by simp)

/-! ## Ownership -/

/-- Every entry in use that has a block has one of its own, which the pool regards
as allocated with the recorded size. -/
structure CdsOwned (s : CdsState) : Prop where
  distinct : ∀ i j, InUse s.registry i → InUse s.registry j → i ≠ j →
    (s.record i).blockOffset ≠ (s.record j).blockOffset
  allocated : ∀ i, InUse s.registry i →
    genPoolGetBlockSize s.poolState (s.record i).blockOffset = .ok (s.record i).blockSize

/-- A registration can be served: it is of a new name, or its size is out of range,
or the size is the one the entry has, or the pool can serve the resize. -/
def ResizeServed (s : CdsState) (userBlockSize : Nat) (name : List (BitVec 8)) : Prop :=
  ∀ i, locateCDSBlockRecordByName s name = some i →
    (userBlockSize = 0 ∨ userBlockSize > cdsAbsMaxBlockSize) ∨
      userBlockSize + blockHeaderSize = (s.record i).blockSize ∨
      ResizeFits s.pool (s.record i).blockSize (userBlockSize + blockHeaderSize)

theorem resizeServed_of_none {name : List (BitVec 8)} {userBlockSize : Nat}
    (h : locateCDSBlockRecordByName s name = none) : ResizeServed s userBlockSize name := by
  intro i hi
  rw [h] at hi
  cases hi

/-- A registration that can be served keeps the stored registry current. -/
theorem CdsInv.register_current (h : CdsInv cfg s blocks free) {userBlockSize : Nat}
    {name : List (BitVec 8)} (criticalTbl : Bool) (hserved : ResizeServed s userBlockSize name)
    (hcurrent : RegistryCurrent cfg s) :
    RegistryCurrent cfg (registerCDSEx cfg s userBlockSize name criticalTbl).2 := by
  have hreg := h.register userBlockSize name criticalTbl
  by_cases hsize : userBlockSize = 0 ∨ userBlockSize > cdsAbsMaxBlockSize
  · unfold registerCDSEx
    rw [if_pos hsize]
    exact hcurrent
  by_cases hkept : ∀ i, locateCDSBlockRecordByName s name = some i →
      (s.record i).blockOffset = 0 ∨ userBlockSize + blockHeaderSize = (s.record i).blockSize
  · exact hreg.current hcurrent hkept
  -- the block of an entry is given back, and the pool serves another
  push Not at hkept
  obtain ⟨i, hname, hoff, hdiff⟩ := hkept
  have hused := (locateCDSBlockRecordByName_isUsed hname).2
  have hblock : HasBlock cfg s (s.record i).blockID (s.record i).blockSize i :=
    ⟨h.ids i hused, rfl, hoff, rfl⟩
  have hfits := ((hserved i hname).resolve_left hsize).resolve_left hdiff
  rcases h.resize hname hblock hsize hdiff criticalTbl with ⟨_, hok⟩ | ⟨hfits', _⟩
  · obtain ⟨_, _, _, _, hstored, _⟩ := hreg.stored hok
    exact .of_eq hstored
  · exact absurd hfits hfits'

/-- In a run whose registrations can all be served every reset finds a current
registry. -/
theorem CdsRun.current {Ok : CdsState → Prop} (h : CdsRun cfg ResizeServed Ok s) :
    CdsRun cfg ResizeServed (RegistryCurrent cfg) s ∧ RegistryCurrent cfg s := by
  induction h with
  | boot hinvalid h => exact ⟨.boot hinvalid h, .of_eq (cdsEarlyInit_new hinvalid h).2⟩
  | register _ userBlockSize name criticalTbl hserved ih =>
    obtain ⟨_, _, hinv⟩ := ih.1.exists_cdsInv
    exact ⟨ih.1.register userBlockSize name criticalTbl hserved,
      hinv.register_current criticalTbl hserved ih.2⟩
  | delete _ cdsName calledByTblServices appRegistered ih =>
    obtain ⟨_, _, hinv⟩ := ih.1.exists_cdsInv
    exact ⟨ih.1.delete cdsName calledByTblServices appRegistered,
      (hinv.delete cdsName calledByTblServices appRegistered).2 ih.2⟩
  | write _ handle dataToWrite ih =>
    obtain ⟨_, _, hinv⟩ := ih.1.exists_cdsInv
    exact ⟨ih.1.write handle dataToWrite, (hinv.write handle dataToWrite).2 ih.2⟩
  | reset _ _ h ih =>
    obtain ⟨_, _, hinv⟩ := ih.1.exists_cdsInv
    exact ⟨ih.1.reset ih.2 h, (hinv.reset ih.2 h).2⟩

/-- Ownership in the critical data store: in every run whose registrations can all
be served, with resets between any two calls, the stored registry is current, the
entries in use have allocated blocks of their own, of the recorded size, and a reset
comes back with a store. -/
theorem cds_run_owned (cfg : CdsConfig) (s : CdsState)
    (h : CdsRun cfg ResizeServed (fun _ => True) s) :
    RegistryCurrent cfg s ∧ CdsOwned s ∧
      ∃ fuel s', cdsEarlyInit fuel cfg s.mem = some ⟨.success, true, s'⟩ := by
  obtain ⟨hrun, hcurrent⟩ := h.current
  obtain ⟨blocks, free, hinv⟩ := hrun.exists_cdsInv
  obtain ⟨ps', _, _, _, _, ⟨fuel, hboot⟩, _⟩ := hinv.store.restart
  exact ⟨hcurrent, ⟨fun i j hi hj hij hoff => hij (hinv.owned.distinct i j hi hj hoff),
    fun i hi => hinv.genPoolGetBlockSize_eq hi⟩, fuel, _, hboot⟩

/-- A block for `A`, written; a reset; a resize of `A` to twelve bytes; and a block
for `B`. -/
def twoBlocks : CdsState :=
  (registerCDSEx smallCds
    (registerCDSEx smallCds (bootState 30 smallCds oneBlock.mem) 12 [0x41] false).2
    4 [0x42] false).2

/-- The entries for `A` and `B` have blocks of their own after a write, a reset and
a resize. -/
theorem cds_run_owned_two_blocks : InUse twoBlocks.registry 1 ∧ InUse twoBlocks.registry 2 ∧
    (twoBlocks.record 1).blockSize = 16 ∧ CdsOwned twoBlocks := by
  have hreset : CdsRun smallCds ResizeServed (fun _ => True)
      (bootState 30 smallCds oneBlock.mem) :=
    (oneBlock_run (resizeServed_of_none (by decide +kernel))).reset trivial
      (@cdsEarlyInit_bootState _ 30 _ (by decide +kernel))
  have hresize : ResizeServed (bootState 30 smallCds oneBlock.mem) 12 [0x41] := by
    intro i hi
    have hfound : locateCDSBlockRecordByName (bootState 30 smallCds oneBlock.mem) [0x41] =
      some 1 := by decide +kernel
    obtain rfl : 1 = i := Option.some.inj (hfound.symm.trans hi)
    unfold ResizeFits
    decide +kernel
  have hrun : CdsRun smallCds ResizeServed (fun _ => True) twoBlocks :=
    (hreset.register 12 [0x41] false hresize).register 4 [0x42] false
      (resizeServed_of_none (by decide +kernel))
  have hentries : InUse twoBlocks.registry 1 ∧ InUse twoBlocks.registry 2 ∧
      (twoBlocks.record 1).blockSize = 16 := by decide +kernel
  exact ⟨hentries.1, hentries.2.1, hentries.2.2, (cds_run_owned smallCds _ hrun).2.1⟩

/-- A block of four bytes for `A`, written, and a failed attempt to resize it. -/
def failedResize : CdsState := (registerCDSEx smallCds oneBlock 8000 [0x41] false).2

/-- A reset after it, and a block of four bytes for `B`. -/
def resetAfterFailedResize : CdsState :=
  (registerCDSEx smallCds (bootState 30 smallCds failedResize.mem) 4 [0x42] false).2

/-- After a failed resize of `A` and a reset, `A` and the new entry `B` have the
same block. -/
theorem cds_run_shares_block_after_failed_resize :
    ∃ s, CdsRun smallCds AnyCall (fun _ => True) s ∧ InUse s.registry 1 ∧ InUse s.registry 2 ∧
      (s.record 1).blockOffset = (s.record 2).blockOffset ∧ ¬ CdsOwned s := by
  have hresize : CdsRun smallCds AnyCall (fun _ => True) failedResize :=
    (oneBlock_run trivial).register 8000 [0x41] false trivial
  have hreset := hresize.reset trivial (@cdsEarlyInit_bootState _ 30 _ (by decide +kernel))
  have hrun : CdsRun smallCds AnyCall (fun _ => True) resetAfterFailedResize :=
    hreset.register 4 [0x42] false trivial
  have hshared : InUse resetAfterFailedResize.registry 1 ∧ InUse resetAfterFailedResize.registry 2 ∧
      (resetAfterFailedResize.record 1).blockOffset =
        (resetAfterFailedResize.record 2).blockOffset := by decide +kernel
  obtain ⟨hfirst, hsecond, hoff⟩ := hshared
  exact ⟨_, hrun, hfirst, hsecond, hoff, fun hown =>
    hown.distinct 1 2 hfirst hsecond (by decide) hoff⟩

end Resize

end CfsEds.Es
