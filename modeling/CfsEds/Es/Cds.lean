import CfsEds.Es.ResourceId

/-!
# The critical data store

`cfe_es_cds.c` and `cfe_es_cds_mempool.c`: named blocks of data that survive a
processor reset. The storage the PSP provides is laid out as a header (a
signature, the number of registry entries, the registry), a memory pool and a
trailing signature. In RAM there are a copy of the registry and the pool record;
a reset loses both, and `cdsEarlyInit` recovers them from the storage.

The three are not written together. The pool operations write descriptors at
once, while the registry is written by `updateCDSRegistry` only at the end of a
call that succeeded.

PSP reads and writes are taken to succeed, so the access cache is not modelled and
the storage is byte memory; the mutex makes every call atomic. The configuration
constants, the size reported by the PSP and the CRC function are parameters
(`CdsConfig`). Log messages are left out.
-/

namespace CfsEds.Es

open CfsEds.Lib.Loop CfsEds.Lib.Memory

/-- `CFE_ES_CDSBLOCKID_BASE`: the mark bit, and object type `OS_OBJECT_TYPE_USER + 5`. -/
def cdsBlockIdBase : Nat := 0x02150000

/-! ## Configuration and layout -/

/-- The size of the signature fields, `CFE_ES_CDS_SIGNATURE_LEN`. -/
def signatureLen : Nat := 8

/-- `CFE_ES_CDS_SIGNATURE_BEGIN`: `_CDSBeg_` -/
def signatureBegin : List (BitVec 8) := [0x5f, 0x43, 0x44, 0x53, 0x42, 0x65, 0x67, 0x5f]

/-- `CFE_ES_CDS_SIGNATURE_END`: `_CDSEnd_` -/
def signatureEnd : List (BitVec 8) := [0x5f, 0x43, 0x44, 0x53, 0x45, 0x6e, 0x64, 0x5f]

/-- `sizeof(CFE_ES_CDS_BlockHeader_t)` -/
def blockHeaderSize : Nat := 4

/-- `CDS_ABS_MAX_BLOCK_SIZE` -/
def cdsAbsMaxBlockSize : Nat := 2 ^ 30 - blockHeaderSize

/-- `CFE_ES_CDS_NUM_BLOCK_SIZES` -/
def cdsNumBlockSizes : Nat := 17

/-- `CDS_RESERVE_SPACE`: a size rounded up to whole words. -/
def cdsReserveSpace (size : Nat) : Nat := (size + 3) / 4 * 4

/-- `CDS_SIG_BEGIN_OFFSET` -/
def cdsSigBeginOffset : Nat := 0

/-- `CDS_REG_SIZE_OFFSET` -/
def cdsRegSizeOffset : Nat := cdsSigBeginOffset + cdsReserveSpace signatureLen

/-- `CDS_REG_OFFSET` -/
def cdsRegOffset : Nat := cdsRegSizeOffset + cdsReserveSpace 4

/-- `sizeof(CFE_ES_CDS_PersistentTrailer_t)` -/
def cdsTrailerSize : Nat := cdsReserveSpace signatureLen

/-- The constants the store is built with, within the limits of `cfe_es_verify.h`
and of the types they are kept in. -/
structure CdsConfig where
  /-- `CFE_PLATFORM_ES_CDS_MAX_NUM_ENTRIES` -/
  maxNumEntries : Nat
  /-- `CFE_MISSION_ES_CDS_MAX_FULL_NAME_LEN` -/
  maxFullNameLen : Nat
  /-- `OS_MAX_API_NAME` -/
  maxApiName : Nat
  /-- `CFE_ES_CDSMemPoolDefSize` -/
  memPoolDefSize : List Nat
  /-- what `CFE_PSP_GetCDSSize` reports -/
  platformSize : Nat
  /-- `CFE_ES_CalculateCRC` with seed 0 and the default type -/
  calculateCRC : List (BitVec 8) → BitVec 32
  hentries : 8 ≤ maxNumEntries ∧ maxNumEntries ≤ resourceIdMax
  hname : maxApiName ≤ maxFullNameLen ∧ 0 < maxFullNameLen ∧ maxFullNameLen < 2 ^ 32
  hsizes : memPoolDefSize.length = cdsNumBlockSizes
  hblocks : ∀ b ∈ memPoolDefSize, b < 2 ^ 32
  hplatform : platformSize < 2 ^ 32

/-- The loop of `CFE_ES_GenPoolCalcMinSize`. -/
def minBlockSize : List Nat → Nat
  | [] => 0
  | b :: rest => rest.foldl (fun least size => if size < least then size else least) b

/-- `CFE_ES_GenPoolCalcMinSize` -/
def genPoolCalcMinSize (blockSizeList : List Nat) (numBlocks : Nat) : Nat :=
  sizeT (numBlocks * sizeT (minBlockSize blockSizeList + descriptorSize))

namespace CdsConfig

variable (cfg : CdsConfig)

/-- `sizeof(CFE_ES_CDS_RegRec_t)`: an ID and its padding, two `size_t`, the name
and a `bool`, padded to a multiple of eight. -/
def regRecSize : Nat := (24 + cfg.maxFullNameLen + 1 + 7) / 8 * 8

/-- `CDS_POOL_OFFSET`, the size of `CFE_ES_CDS_PersistentHeader_t`. -/
def poolOffset : Nat := cdsRegOffset + cdsReserveSpace (cfg.maxNumEntries * cfg.regRecSize)

/-- `CDS_RESERVED_MIN_SIZE` -/
def reservedMinSize : Nat := cfg.poolOffset + cdsTrailerSize

/-- `TotalSize`: the size reported, truncated to whole words. -/
def totalSize : Nat := cfg.platformSize &&& 0xfffffffc

/-- `MinRequiredSize` -/
def minRequiredSize : Nat :=
  sizeT (cfg.reservedMinSize + genPoolCalcMinSize cfg.memPoolDefSize cfg.maxNumEntries)

/-- `DataSize` -/
def dataSize : Nat := sizeT (cfg.totalSize + 2 ^ 64 - cfg.reservedMinSize)

theorem poolOffset_lt : cfg.poolOffset < 2 ^ 60 := by
  have hn := cfg.hentries.2
  have hlen := cfg.hname.2.2
  have hrec : cfg.regRecSize ≤ 2 ^ 33 := by
    unfold regRecSize
    omega
  have hmul : cfg.maxNumEntries * cfg.regRecSize ≤ resourceIdMax * 2 ^ 33 := Nat.mul_le_mul hn hrec
  unfold poolOffset cdsReserveSpace cdsRegOffset cdsRegSizeOffset cdsSigBeginOffset cdsReserveSpace
    signatureLen
  unfold resourceIdMax at hmul
  omega

/-- The arguments `CFE_ES_CreateCDSPool` passes on. -/
def poolParams : PoolParams where
  startOffset := cfg.poolOffset
  poolSize := cfg.dataSize
  alignSize := 4
  blockSizeList := cfg.memPoolDefSize
  hstart := by
    have h := cfg.poolOffset_lt
    omega
  hsize := Nat.mod_lt _ (by decide)
  halign := four_lt
  hblocks := fun b hb => by
    have h := cfg.hblocks b hb
    omega
  hcount := by
    rw [cfg.hsizes]
    decide

end CdsConfig

/-! ## State -/

/-- The status codes of these files. -/
inductive CdsStatus where
  | success
  | alreadyExists
  | invalid
  | invalidSize
  | blockCrcErr
  | noResourceIdsAvailable
  | wrongTypeErr
  | ownerActiveErr
  | nameNotFound
  | resourceIdNotValid
  | pool (e : PoolError)
  deriving DecidableEq, Repr

/-- `CFE_ES_CDS_RegRec_t` -/
structure CdsRegRec where
  blockID : Nat
  blockOffset : Nat
  blockSize : Nat
  /-- the whole array, including what follows the terminator -/
  name : List (BitVec 8)
  table : Bool
  deriving DecidableEq

instance : Inhabited CdsRegRec := ⟨⟨resourceIdUndefined, 0, 0, [], false⟩⟩

/-- `CFE_ES_CDS_Instance_t` without cache and mutex, and the storage. -/
structure CdsState where
  pool : GenPoolRecord
  lastCDSBlockId : Nat
  registry : List CdsRegRec
  mem : Mem

/-- The pool with its storage. -/
def CdsState.poolState (s : CdsState) : PoolState := ⟨s.pool, s.mem⟩

/-- The state after an operation of the pool. -/
def CdsState.withPool (s : CdsState) (ps : PoolState) : CdsState :=
  { s with pool := ps.pool, mem := ps.mem }

/-- `Registry[i]` -/
def CdsState.record (s : CdsState) (i : Nat) : CdsRegRec := s.registry.getD i default

/-- An update of `Registry[i]` in place. -/
def CdsState.modifyRecord (s : CdsState) (i : Nat) (f : CdsRegRec → CdsRegRec) : CdsState :=
  { s with registry := s.registry.modify i f }

/-- `CFE_ES_CDSBlockRecordIsUsed` -/
def CdsRegRec.isUsed (r : CdsRegRec) : Bool := r.blockID ≠ resourceIdUndefined

/-- A zeroed registry record. -/
def blankRecord (cfg : CdsConfig) : CdsRegRec :=
  ⟨resourceIdUndefined, 0, 0, List.replicate cfg.maxFullNameLen 0, false⟩

/-! ## The registry in storage -/

/-- A registry record read from storage. -/
def readRegRec (cfg : CdsConfig) (m : Mem) (off : Nat) : CdsRegRec where
  blockID := readLE m off 4
  blockOffset := readLE m (off + 8) 8
  blockSize := readLE m (off + 16) 8
  name := readBytes m (off + 24) cfg.maxFullNameLen
  table := m (off + 24 + cfg.maxFullNameLen) ≠ 0

/-- A registry record written to storage. -/
def writeRegRec (cfg : CdsConfig) (m : Mem) (off : Nat) (r : CdsRegRec) : Mem :=
  writeLE (writeBytes (writeLE (writeLE (writeLE m off 4 r.blockID) (off + 8) 8 r.blockOffset)
    (off + 16) 8 r.blockSize) (off + 24) r.name) (off + 24 + cfg.maxFullNameLen) 1 r.table.toNat

/-- The registry array read from storage. -/
def readRegistry (cfg : CdsConfig) (m : Mem) : List CdsRegRec :=
  (List.range cfg.maxNumEntries).map fun i => readRegRec cfg m (cdsRegOffset + i * cfg.regRecSize)

/-- An array of registry records written to storage. -/
def writeRegRecs (cfg : CdsConfig) : Mem → Nat → List CdsRegRec → Mem
  | m, _, [] => m
  | m, off, r :: rest => writeRegRecs cfg (writeRegRec cfg m off r) (off + cfg.regRecSize) rest

/-- `CFE_ES_UpdateCDSRegistry` -/
def updateCDSRegistry (cfg : CdsConfig) (s : CdsState) : CdsState :=
  { s with mem := writeRegRecs cfg s.mem cdsRegOffset s.registry }

/-! ## Lookup -/

/-- A C string: the bytes before the terminator. -/
def cString (l : List (BitVec 8)) : List (BitVec 8) := l.takeWhile (· ≠ 0)

/-- `CFE_ES_CDSHandle_ToIndex` and `CFE_ES_LocateCDSBlockRecordByID` -/
def locateCDSBlockRecordByID (cfg : CdsConfig) (blockID : Nat) : Option Nat :=
  resourceIdToIndex blockID cdsBlockIdBase cfg.maxNumEntries

/-- `CFE_ES_LocateCDSBlockRecordByName` -/
def locateCDSBlockRecordByName (s : CdsState) (cdsName : List (BitVec 8)) : Option Nat :=
  s.registry.findIdx? fun r => r.isUsed && cString cdsName == cString r.name

/-- `CFE_ES_CheckCDSHandleSlotUsed` -/
def checkCDSHandleSlotUsed (cfg : CdsConfig) (s : CdsState) (checkId : Nat) : Bool :=
  (locateCDSBlockRecordByID cfg checkId).elim true fun i => (s.record i).isUsed

/-! ## Registration -/

/-- The `strncpy` of a name into a record. -/
def copyName (cfg : CdsConfig) (name : List (BitVec 8)) : List (BitVec 8) :=
  let copied := (cString name).take (cfg.maxFullNameLen - 1)
  copied ++ List.replicate (cfg.maxFullNameLen - copied.length) 0

/-- The first pool operation of `CFE_ES_RegisterCDSEx`: when the size changes, the
old block is given back. -/
def releaseOldBlock (s : CdsState) (i newBlockSize : Nat) : Except PoolError Unit × CdsState :=
  let r := s.record i
  if r.blockOffset ≠ 0 ∧ newBlockSize ≠ r.blockSize then
    match genPoolPutBlock s.poolState r.blockOffset with
    | (.ok _, ps) =>
      (.ok (), (s.withPool ps).modifyRecord i fun r => { r with blockOffset := 0, blockSize := 0 })
    | (.error e, ps) => (.error e, s.withPool ps)
  else (.ok (), s)

/-- The second one: a record without a block gets one. The result is
`IsNewOffset`. -/
def allocateBlock (s : CdsState) (i newBlockSize : Nat) : Except PoolError Bool × CdsState :=
  if (s.record i).blockOffset = 0 then
    match genPoolGetBlock s.poolState newBlockSize with
    | .ok (blockOffset, ps) =>
      (.ok true, (s.withPool ps).modifyRecord i fun r =>
        { r with blockOffset := blockOffset, blockSize := newBlockSize })
    | .error e => (.error e, s)
  else (.ok false, s)

/-- `CFE_ES_RegisterCDSEx` from the point where the record is known. -/
def registerRecord (cfg : CdsConfig) (s : CdsState) (i pendingBlockId : Nat) (isNewEntry : Bool)
    (newBlockSize : Nat) (name : List (BitVec 8)) (criticalTbl : Bool) : CdsStatus × CdsState :=
  match releaseOldBlock s i newBlockSize with
  | (.error e, s) => (.pool e, s)
  | (.ok _, s) =>
    match allocateBlock s i newBlockSize with
    -- the record has lost its block, and the registry in storage still shows it
    | (.error e, s) => (.pool e, s)
    | (.ok isNewOffset, s) =>
      let s := if isNewEntry then
          s.modifyRecord i fun r =>
            { r with table := criticalTbl, name := copyName cfg name, blockID := pendingBlockId }
        else s
      let s := if isNewOffset || isNewEntry then updateCDSRegistry cfg s else s
      (if isNewOffset then .success else .alreadyExists, s)

/-- `CFE_ES_RegisterCDSEx` for a name that is not registered, with the ID that the
scan for a free slot has found. -/
def registerNewEntry (cfg : CdsConfig) (s : CdsState) (pendingBlockId newBlockSize : Nat)
    (name : List (BitVec 8)) (criticalTbl : Bool) : (CdsStatus × Option Nat) × CdsState :=
  (locateCDSBlockRecordByID cfg pendingBlockId).elim
    ((.noResourceIdsAvailable, some resourceIdUndefined), s) fun i =>
      let s := { s.modifyRecord i fun _ => blankRecord cfg with lastCDSBlockId := pendingBlockId }
      let r := registerRecord cfg s i pendingBlockId true newBlockSize name criticalTbl
      ((r.1, some pendingBlockId), r.2)

/-- `CFE_ES_RegisterCDSEx`, with the handle it stores. -/
def registerCDSEx (cfg : CdsConfig) (s : CdsState) (userBlockSize : Nat) (name : List (BitVec 8))
    (criticalTbl : Bool) : (CdsStatus × Option Nat) × CdsState :=
  if userBlockSize = 0 ∨ userBlockSize > cdsAbsMaxBlockSize then ((.invalidSize, none), s)
  else
    let newBlockSize := sizeT (userBlockSize + blockHeaderSize)
    match locateCDSBlockRecordByName s name with
    | some i =>
      let pendingBlockId := (s.record i).blockID
      let r := registerRecord cfg s i pendingBlockId false newBlockSize name criticalTbl
      ((r.1, some pendingBlockId), r.2)
    | none =>
      registerNewEntry cfg s (resourceIdFindNext s.lastCDSBlockId cfg.maxNumEntries
        (checkCDSHandleSlotUsed cfg s)) newBlockSize name criticalTbl

/-! ## Deletion, writing and reading -/

/-- The owner's name: the part of the name before the dot. -/
def ownerName (cfg : CdsConfig) (name : List (BitVec 8)) : List (BitVec 8) :=
  cString ((name.take (cfg.maxApiName - 1)).takeWhile (· ≠ 0x2e))

/-- `CFE_ES_DeleteCDS`; `appRegistered` tells which names `CFE_ES_GetAppIDByName`
finds. -/
def deleteCDS (cfg : CdsConfig) (s : CdsState) (cdsName : List (BitVec 8))
    (calledByTblServices : Bool) (appRegistered : List (BitVec 8) → Bool) :
    CdsStatus × CdsState :=
  match locateCDSBlockRecordByName s cdsName with
  | none => (.nameNotFound, s)
  | some i =>
    let r := s.record i
    if r.table ≠ calledByTblServices then (.wrongTypeErr, s)
    else if appRegistered (ownerName cfg r.name) then (.ownerActiveErr, s)
    else
      match genPoolPutBlock s.poolState r.blockOffset with
      | (.error e, ps) => (.pool e, s.withPool ps)
      | (.ok _, ps) =>
        (.success, updateCDSRegistry cfg ((s.withPool ps).modifyRecord i fun r =>
          { r with blockID := resourceIdUndefined }))

/-- `CFE_ES_CDSBlockWrite` on the record that its handle locates. -/
def writeRecord (cfg : CdsConfig) (s : CdsState) (i handle : Nat) (dataToWrite : Mem) :
    CdsStatus × CdsState :=
  let r := s.record i
  if r.blockID ≠ handle then (.resourceIdNotValid, s)
  else
    match genPoolGetBlockSize s.poolState r.blockOffset with
    | .error e => (.pool e, s)
    | .ok blockSize =>
      if blockSize ≤ blockHeaderSize ∨ blockSize ≠ r.blockSize then (.invalidSize, s)
      else
        let userDataSize := r.blockSize - blockHeaderSize
        let userDataOffset := sizeT (r.blockOffset + blockHeaderSize)
        let data := readBytes dataToWrite 0 userDataSize
        let mem := writeLE s.mem r.blockOffset blockHeaderSize (cfg.calculateCRC data).toNat
        (.success, { s with mem := writeBytes mem userDataOffset data })

/-- `CFE_ES_CDSBlockWrite` -/
def cdsBlockWrite (cfg : CdsConfig) (s : CdsState) (handle : Nat) (dataToWrite : Mem) :
    CdsStatus × CdsState :=
  (locateCDSBlockRecordByID cfg handle).elim (.resourceIdNotValid, s) fun i =>
    writeRecord cfg s i handle dataToWrite

/-- `CFE_ES_CDSBlockRead` on the record that its handle locates. -/
def readRecord (cfg : CdsConfig) (s : CdsState) (i handle : Nat) :
    CdsStatus × Option (List (BitVec 8)) :=
  let r := s.record i
  if r.blockID ≠ handle then (.resourceIdNotValid, none)
  else
    match genPoolGetBlockSize s.poolState r.blockOffset with
    | .error e => (.pool e, none)
    | .ok blockSize =>
      if blockSize ≤ blockHeaderSize ∨ blockSize ≠ r.blockSize then (.invalidSize, none)
      else
        let userDataSize := r.blockSize - blockHeaderSize
        let userDataOffset := sizeT (r.blockOffset + blockHeaderSize)
        let crc := readLE s.mem r.blockOffset blockHeaderSize
        let data := readBytes s.mem userDataOffset userDataSize
        (if (cfg.calculateCRC data).toNat ≠ crc then .blockCrcErr else .success, some data)

/-- `CFE_ES_CDSBlockRead`, with what it stores in the caller's buffer. -/
def cdsBlockRead (cfg : CdsConfig) (s : CdsState) (handle : Nat) :
    CdsStatus × Option (List (BitVec 8)) :=
  (locateCDSBlockRecordByID cfg handle).elim (.resourceIdNotValid, none) fun i =>
    readRecord cfg s i handle

/-! ## Start-up -/

/-- `CFE_ES_ValidateCDS`: both signatures are there. -/
def validateCDS (cfg : CdsConfig) (m : Mem) : CdsStatus :=
  if readBytes m cdsSigBeginOffset signatureLen ≠ signatureBegin then .invalid
  else if readBytes m (cfg.totalSize - cdsTrailerSize) signatureLen ≠ signatureEnd then .invalid
  else .success

/-- The fields of the cache that the loop of `CFE_ES_ClearCDS` uses, and the storage. -/
structure ClearState where
  offset : Nat
  size : Nat
  mem : Mem

/-- One block of zeros. -/
def clearBody (totalSize : Nat) (st : ClearState) : ClearState :=
  let remainSize := totalSize - st.offset
  let size := if remainSize < 16 then remainSize else st.size
  ⟨sizeT (st.offset + size), size, writeBytes st.mem st.offset (List.replicate size 0)⟩

/-- `CFE_ES_ClearCDS` -/
def clearCDS (fuel : Nat) (cfg : CdsConfig) (m : Mem) : Option Mem :=
  (whileFuel (fun st : ClearState => decide (st.offset < cfg.totalSize))
    (clearBody cfg.totalSize) fuel ⟨0, 16, m⟩).map ClearState.mem

/-- `CFE_ES_InitCDSSignatures` -/
def initCDSSignatures (cfg : CdsConfig) (m : Mem) : Mem :=
  writeBytes (writeBytes m 0 signatureBegin) (cfg.totalSize - cdsTrailerSize) signatureEnd

/-- `CFE_ES_CreateCDSPool` -/
def createCDSPool (fuel : Nat) (cfg : CdsConfig) : Option (Except CdsStatus GenPoolRecord) :=
  if cfg.dataSize < genPoolCalcMinSize cfg.memPoolDefSize 1 then some (.error .invalidSize)
  else (genPoolInitialize fuel cfg.poolParams).map fun r => r.mapError CdsStatus.pool

/-- `CFE_ES_InitCDSRegistry` -/
def initCDSRegistry (cfg : CdsConfig) (s : CdsState) : CdsState :=
  updateCDSRegistry cfg
    { s with
      mem := writeLE s.mem cdsRegSizeOffset 4 cfg.maxNumEntries
      registry := List.replicate cfg.maxNumEntries (blankRecord cfg) }

/-- `CFE_ES_RebuildCDSPool` -/
def rebuildCDSPool (fuel : Nat) (cfg : CdsConfig) (s : CdsState) : Option (CdsStatus × CdsState) :=
  (createCDSPool fuel cfg).bind fun r =>
    match r with
    | .error e => some (e, s)
    | .ok pool => (genPoolRebuild fuel ⟨pool, s.mem⟩).map fun ps => (.success, s.withPool ps)

/-- `CFE_ES_RebuildCDS` -/
def rebuildCDS (fuel : Nat) (cfg : CdsConfig) (s : CdsState) : Option (CdsStatus × CdsState) :=
  if readLE s.mem cdsRegSizeOffset 4 ≠ cfg.maxNumEntries then some (.invalid, s)
  else rebuildCDSPool fuel cfg { s with registry := readRegistry cfg s.mem }

/-- The part of `CFE_ES_CDS_EarlyInit` that makes a new store. -/
def createCDS (fuel : Nat) (cfg : CdsConfig) (s : CdsState) : Option (CdsStatus × CdsState) :=
  (clearCDS fuel cfg s.mem).bind fun m =>
    let s := { s with mem := initCDSSignatures cfg m }
    (createCDSPool fuel cfg).map fun r =>
      match r with
      | .error e => (e, s)
      | .ok pool => (.success, initCDSRegistry cfg { s with pool := pool })

/-- The RAM variables when the processor starts. -/
def startState (cfg : CdsConfig) (m : Mem) : CdsState where
  pool := ⟨0, 0, 0, 0, 0, 0, []⟩
  lastCDSBlockId := cdsBlockIdBase
  registry := List.replicate cfg.maxNumEntries (blankRecord cfg)
  mem := m

/-- What start-up leaves: its status, `CDSIsAvailable` and the state. -/
structure CdsBoot where
  status : CdsStatus
  cdsIsAvailable : Bool
  state : CdsState

/-- `CFE_ES_CDS_EarlyInit` on the storage `m`; `none` when one of its loops has not
ended on this fuel. -/
def cdsEarlyInit (fuel : Nat) (cfg : CdsConfig) (m : Mem) : Option CdsBoot :=
  let s := startState cfg m
  if cfg.totalSize < cfg.minRequiredSize then some ⟨.success, false, s⟩
  else
    let checked := if validateCDS cfg m = .success then rebuildCDS fuel cfg s
      else some (validateCDS cfg m, s)
    let final := checked.bind fun r => if r.1 = .invalid then createCDS fuel cfg r.2 else some r
    final.map fun r => ⟨r.1, r.1 = .success, r.2⟩

end CfsEds.Es
