import CfsEds.Tbl.Tables

/-!
# Table services: the functions

`cfe_tbl_internal.c`, `cfe_tbl_api.c` and `cfe_tbl_task_cmds.c`. A ground load goes
through `loadCmd`, `validateCmd`, `activateCmd` and the owner's next `manage`; an
application loads with `load`, which validates and updates in one call. A dump is
packed into a shared load buffer by `dumpCmd` and written to a file by the next
`housekeepingCmd`.

Validation functions are code of the applications: their results come from outside,
as a function of the image that may be another one at every call. `DumpControlIndex`
is never assigned, so the branch of `CFE_TBL_Manage` that dumps to a buffer is never
taken and is left out.
-/

namespace CfsEds.Tbl

open List

variable (cfg : TblConfig) (eds : EdsLib)

/-! ## Looking things up -/

/-- `CFE_TBL_FindTableInRegistry` -/
def findTableInRegistry (s : TblState) (name : List Char) : Option Nat :=
  (List.range cfg.maxNumTables).find? fun i =>
    (s.registry i).ownerAppId.isSome && (s.registry i).name == name

/-- `CFE_TBL_FindFreeRegistryEntry` -/
def findFreeRegistryEntry (s : TblState) : Option Nat :=
  (List.range cfg.maxNumTables).find? fun i =>
    (s.registry i).ownerAppId.isNone && (s.registry i).accessList.isEmpty

/-- `CFE_TBL_FindFreeHandle` -/
def findFreeHandle (s : TblState) : Option Nat :=
  (List.range cfg.maxNumHandles).find? fun h => !(s.handles h).usedFlag

/-- The first shared load buffer that is not taken. -/
def findFreeLoadBuff (s : TblState) : Option Nat :=
  (List.range cfg.maxSimultaneousLoads).find? fun i => !(s.buffers (.shared i)).taken

/-- The first free dump control block. -/
def findFreeDump (s : TblState) : Option Nat :=
  (List.range cfg.maxSimultaneousLoads).find? fun d => (s.dumpControlBlocks d).state == .free

/-- The first validation result in a given state. -/
def findValidation (s : TblState) (state : ValidationState) : Option Nat :=
  (List.range cfg.maxNumValidations).find? fun v => (s.validationResults v).state == state

/-- `CFE_TBL_ValidateHandle` -/
def validateHandle (s : TblState) (h : Nat) : Status :=
  if cfg.maxNumHandles ≤ h then .errInvalidHandle
  else if !(s.handles h).usedFlag then .errInvalidHandle
  else .success

/-- `CFE_TBL_CheckAccessRights` -/
def checkAccessRights (s : TblState) (h app : Nat) : Status :=
  if (s.handles h).appId = some app then .success
  else if app = cfg.tableTaskAppId then .success
  else .errNoAccess

/-- `CFE_TBL_ValidateAccess` -/
def validateAccess (s : TblState) (h app : Nat) : Status :=
  if validateHandle cfg s h = .success then checkAccessRights cfg s h app
  else validateHandle cfg s h

/-- `CFE_TBL_GetNextNotification` -/
def getNextNotification (s : TblState) (h : Nat) : Status :=
  if !(s.registry (s.handles h).regIndex).tableLoadedOnce then .errNeverLoaded
  else if (s.handles h).updated then .infoUpdated
  else .success

/-- `CFE_TBL_FormTableName` -/
def formTableName (name : List Char) (app : Nat) : List Char := cfg.appName app ++ '.' :: name

/-! ## Registering and sharing -/

/-- `TblOptionFlags` -/
structure TblOptions where
  dblBuffer : Bool
  dumpOnly : Bool
  usrDefAddr : Bool
  critical : Bool

/-- The checks `CFE_TBL_Register` makes on its arguments. Those on the options come after
those on the size. -/
def registerStatus (name : List Char) (size : Nat) (opts : TblOptions) : Status :=
  if cfg.maxNameLength < name.length ∨ name.length = 0 then .errInvalidName
  else if opts.usrDefAddr ∧ (opts.dblBuffer ∨ !opts.dumpOnly ∨ opts.critical) then
    .errInvalidOptions
  else if !opts.usrDefAddr ∧ opts.dumpOnly ∧ (opts.dblBuffer ∨ opts.critical) then
    .errInvalidOptions
  else if size = 0 then .errInvalidSize
  else if cfg.maxSnglTableSize < size ∧ !opts.dblBuffer then .errInvalidSize
  else if cfg.maxDblTableSize < size ∧ opts.dblBuffer then .errInvalidSize
  else .success

/-- A buffer fresh from the memory pool, zeroed. -/
@[simp] def freshBuffer (size : Nat) : LoadBuff := { LoadBuff.zero with bytes := List.replicate size 0 }

/-- The buffers of a new table, as far as the memory pool has room for them. -/
def newBuffers (size : Nat) (opts : TblOptions) (firstAlloc secondAlloc : Bool) :
    Nat → LoadBuff
  | 0 => if !opts.usrDefAddr && firstAlloc then freshBuffer size else LoadBuff.zero
  | 1 => if opts.dblBuffer && firstAlloc && secondAlloc then freshBuffer size else LoadBuff.zero
  | _ => LoadBuff.zero

/-- The registry record `CFE_TBL_Register` fills in when the buffers are there. -/
def newRecord (app h : Nat) (name : List Char) (size : Nat) (opts : TblOptions) (func : Bool) :
    RegistryRec :=
  { RegistryRec.init with
    ownerAppId := some app
    size := size
    validationFunc := func
    accessList := [h]
    tableLoadedOnce := opts.dumpOnly && !opts.usrDefAddr
    dumpOnly := opts.dumpOnly
    doubleBuffered := opts.dblBuffer
    userDefAddr := opts.usrDefAddr
    name := name }

/-- The handle of an application on a table. `BufferIndex` is left as it was. -/
@[simp] def newHandle (d : AccessDescriptor) (app t : Nat) (updated : Bool) : AccessDescriptor :=
  { d with appId := some app, regIndex := t, usedFlag := true, lockFlag := false, updated := updated }

/-- A registry record is overwritten, with its buffers. -/
def initRecord (t : Nat) (r : RegistryRec) (bufs : Nat → LoadBuff) : TblM Unit := do
  modifyReg t fun _ => r
  modify fun s =>
    { s with
      buffers
        | .own t' k => if t' = t then bufs k else s.buffers (.own t' k)
        | .shared i => s.buffers (.shared i) }

/-- A registry entry and a handle were found free. -/
def registerNew (app : Nat) (name : List Char) (size : Nat) (opts : TblOptions) (func : Bool)
    (firstAlloc secondAlloc : Bool) (t h : Nat) : TblM Status :=
  if !opts.usrDefAddr && !firstAlloc then do
    initRecord t RegistryRec.init (newBuffers size opts firstAlloc secondAlloc)
    pure .poolError
  else if opts.dblBuffer && !secondAlloc then do
    initRecord t { RegistryRec.init with doubleBuffered := true }
      (newBuffers size opts firstAlloc secondAlloc)
    pure .poolError
  else do
    initRecord t (newRecord app h name size opts func) (newBuffers size opts true true)
    modifyHandle h fun d => newHandle d app t false
    pure .success

/-- `CFE_TBL_Register`; the last two arguments say whether the memory pool has room. -/
def register (app : Nat) (name : List Char) (size : Nat) (opts : TblOptions) (func : Bool)
    (firstAlloc secondAlloc : Bool) : TblM Status := do
  let s ← get
  if registerStatus cfg name size opts ≠ .success then pure (registerStatus cfg name size opts)
  else
    match findTableInRegistry cfg s (formTableName cfg name app), findFreeHandle cfg s with
    | some t, handle =>
      if (s.registry t).ownerAppId = some app ∧ (s.registry t).size = size then
        pure .warnDuplicate
      else if handle = none then pure .errHandlesFull
      else if (s.registry t).ownerAppId = some app then pure .errDuplicateDiffSize
      else pure .errDuplicateNotOwned
    | none, none => pure .errHandlesFull
    | none, some h =>
      match findFreeRegistryEntry cfg s with
      | none => pure .errRegistryFull
      | some t =>
        registerNew app (formTableName cfg name app) size opts func firstAlloc secondAlloc t h

/-- `CFE_TBL_Share` -/
def share (app : Nat) (name : List Char) : TblM Status := do
  let s ← get
  match findTableInRegistry cfg s name with
  | none => pure .errInvalidName
  | some t =>
    match findFreeHandle cfg s with
    | none => pure .errHandlesFull
    | some h => do
      modifyHandle h fun d => newHandle d app t (s.registry t).tableLoadedOnce
      modifyReg t fun r => { r with accessList := h :: r.accessList }
      pure .success

/-- The last part of `CFE_TBL_RemoveAccessLink`: nobody uses the table any more. A shared
load buffer is only given back for a single buffered table. -/
def freeBuffers (t : Nat) : TblM Unit := do
  modifyBuff (.own t 0) fun v => { v with bytes := [] }
  let s ← get
  if (s.registry t).doubleBuffered then
    modifyBuff (.own t 1) fun v => { v with bytes := [] }
  else
    match (s.registry t).loadInProgress with
    | none => pure ()
    | some i => do
      let i ← loadBuffIndex cfg (some i)
      modifyBuff (.shared i) fun v => { v with taken := false }
      modifyReg t fun r => { r with loadInProgress := none }

/-- `CFE_TBL_RemoveAccessLink` -/
def removeAccessLink (h : Nat) : TblM Unit := do
  let s ← get
  let t := (s.handles h).regIndex
  modifyReg t fun r => { r with accessList := r.accessList.erase h }
  modifyHandle h fun d => { d with usedFlag := false }
  let s ← get
  onlyIf ((s.registry t).accessList.isEmpty && !(s.registry t).userDefAddr) (freeBuffers cfg t)

/-- The table is given up by its owner; it stays until its last user is gone. -/
def disown (app t : Nat) : TblM Unit := do
  let s ← get
  onlyIf ((s.registry t).ownerAppId == some app)
    (modifyReg t fun r => { r with ownerAppId := none, name := [] })

/-- `CFE_TBL_Unregister` -/
def unregister (app h : Nat) : TblM Status := do
  let s ← get
  if validateAccess cfg s h app ≠ .success then pure (validateAccess cfg s h app)
  else do
    disown app (s.handles h).regIndex
    removeAccessLink cfg h
    pure .success

/-- The dump requests for tables of an application are dropped. -/
def dropDump (app d : Nat) : TblM Unit := do
  let s ← get
  let c := s.dumpControlBlocks d
  onlyIf (c.state != .free && (s.registry c.regIndex).ownerAppId == some app)
    (modify fun s => s.setDump d { c with state := .free })

/-- A handle is taken away from an application. -/
def dropHandle (app h : Nat) : TblM Unit := do
  let s ← get
  onlyIf ((s.handles h).appId == some app && (s.handles h).usedFlag) (do
    disown app (s.handles h).regIndex
    removeAccessLink cfg h
    modifyHandle h fun d => { d with appId := none })

/-- `CFE_TBL_CleanUpApp` -/
def cleanUpApp (app : Nat) : TblM Unit := do
  forM (List.range cfg.maxSimultaneousLoads) (dropDump app)
  forM (List.range cfg.maxNumHandles) (dropHandle cfg app)

/-! ## Addresses -/

/-- `CFE_TBL_GetAddress`: the status and the buffer the address is of. -/
def getAddress (app h : Nat) : TblM (Status × Option BufRef) := do
  let s ← get
  if validateAccess cfg s h app ≠ .success then pure (validateAccess cfg s h app, none)
  else
    let t := (s.handles h).regIndex
    if (s.registry t).ownerAppId = none then pure (.errUnregistered, none)
    else do
      modifyHandle h fun d =>
        { d with
          lockFlag := true, bufferIndex := (s.registry t).activeBufferIndex, updated := false }
      pure (getNextNotification s h, some (.own t (s.registry t).activeBufferIndex))

/-- `CFE_TBL_ReleaseAddress` -/
def releaseAddress (app h : Nat) : TblM Status := do
  let s ← get
  if validateAccess cfg s h app ≠ .success then pure (validateAccess cfg s h app)
  else do
    modifyHandle h fun d => { d with lockFlag := false }
    pure (getNextNotification s h)

/-! ## Working buffers -/

/-- The active contents are copied into a working buffer, for loads that only bring a
part of the table. -/
def copyActive (t : Nat) (b : BufRef) : TblM Unit := do
  let s ← get
  let r := s.registry t
  if b = .own t r.activeBufferIndex then pure ()
  else writeBytes b 0 ((s.buffers (.own t r.activeBufferIndex)).bytes.take r.size)

/-- Some user of the table holds an address in `Buffers[k]`. -/
def bufferLocked (s : TblState) (t k : Nat) : Bool :=
  (s.registry t).accessList.any fun h => (s.handles h).bufferIndex == k && (s.handles h).lockFlag

/-- `CFE_TBL_GetWorkingBuffer` -/
def getWorkingBuffer (t : Nat) (calledByApp : Bool) : TblM (Except Status BufRef) := do
  let s ← get
  let r := s.registry t
  match r.loadInProgress with
  | some i =>
    if r.doubleBuffered then pure (.ok (.own t (1 - r.activeBufferIndex)))
    else do
      let i ← loadBuffIndex cfg (some i)
      pure (.ok (.shared i))
  | none =>
    -- the first load by an application goes straight to the active buffer
    if !r.tableLoadedOnce && calledByApp then
      pure (.ok (.own t (if r.doubleBuffered then r.activeBufferIndex else 0)))
    else if r.doubleBuffered then
      if bufferLocked s t (1 - r.activeBufferIndex) then pure (.error .errNoBufferAvail)
      else do
        modifyReg t fun r => { r with loadInProgress := some (1 - r.activeBufferIndex) }
        copyActive t (.own t (1 - r.activeBufferIndex))
        pure (.ok (.own t (1 - r.activeBufferIndex)))
    else
      match findFreeLoadBuff cfg s with
      | none => pure (.error .errNoBufferAvail)
      | some i => do
        modifyBuff (.shared i) fun v => { v with taken := true }
        modifyReg t fun r => { r with loadInProgress := some i }
        copyActive t (.shared i)
        pure (.ok (.shared i))

/-! ## Loading from a file -/

/-- `EdsPackedTableSize` -/
def TypeInfo.packedSize (info : TypeInfo) : Nat := (info.bits + 7) / 8

/-- The warning for a file that does not bring the whole table. -/
def loadWarning (hdr : FileHdr) (packedSize : Nat) : Status :=
  if hdr.offset ≠ 0 then .warnPartialLoad
  else if hdr.numBytes.toNat < packedSize then .warnShortFile
  else .success

/-- The second half of `CFE_TBL_LoadFromFile`: the headers are good, and the data are
read into the buffer. -/
def readTableData (f : TableFile) (std : FsHeader) (hdr : FileHdr) (info : TypeInfo)
    (b : BufRef) : TblM Status := do
  writeBytes b hdr.offset.toNat (f.read hdr.numBytes)
  if !f.complete hdr.numBytes then pure .errLoadIncomplete
  else if f.hasExtraByte hdr.numBytes then pure .errFileTooLarge
  else do
    modifyBuff b fun v =>
      { v with
        dataSource := f.name
        fileCreateTimeSecs := std.timeSeconds
        fileCreateTimeSubSecs := std.timeSubSeconds
        crc := cfg.calculateCRC (v.bytes.take info.packedSize)
        edsContentId := hdr.edsId }
    pure (loadWarning hdr info.packedSize)

/-- `CFE_TBL_LoadFromFile`. The sum of offset and size is a sum of 32-bit numbers. -/
def loadFromFile (f : TableFile) (b : BufRef) (t : Nat) : TblM Status := do
  let s ← get
  if cfg.maxPathLen - 1 < f.name.length then pure .errFilenameTooLong
  else if !f.opens then pure .errAccess
  else
    match readHeaders f with
    | .error e => pure e
    | .ok (std, hdr) =>
      match eds.getTypeInfo hdr.edsId with
      | none => pure .externalResourceFail
      | some info =>
        if (s.registry t).name ≠ hdr.tableName then pure .errFileForWrongTable
        else if info.packedSize < (hdr.offset + hdr.numBytes).toNat then pure .errFileTooLarge
        else readTableData cfg f std hdr info b

/-- `CFE_TBL_DecodeFromMemory`: the packed bytes are unpacked over the contents of a
buffer of the table. -/
def decodeFromMemory (packed : Bytes) (edsId : Nat) (b : BufRef) (t : Nat) : TblM Status := do
  match eds.getTypeInfo edsId with
  | none => pure .externalResourceFail
  | some info => do
    let s ← get
    let native := (s.buffers b).bytes.take (s.registry t).size
    let unpacked := eds.unpackPartialObject edsId native packed info.bits
    modifyBuff b fun v => { v with edsContentId := if unpacked.ok then unpacked.edsId else edsId }
    writeBytes b 0 unpacked.native
    if !unpacked.ok then pure .externalResourceFail
    else do
      let verified := eds.verifyUnpackedObject unpacked.edsId unpacked.native packed
      writeBytes b 0 verified.2
      if !verified.1 then pure .externalResourceFail
      else do
        modifyBuff b fun v => { v with crc := cfg.calculateCRC (v.bytes.take info.bytes) }
        pure .success

/-- `CFE_TBL_EncodeFromMemory`: the native contents of a buffer are packed into another. -/
def encodeFromMemory (dest : BufRef) (source : LoadBuff) (t : Nat) : TblM Status := do
  match eds.getTypeInfo source.edsContentId with
  | none => pure .externalResourceFail
  | some info => do
    let s ← get
    let packed := eds.packCompleteObject source.edsContentId
      (source.bytes.take (s.registry t).size) info.bits
    writeBytes dest 0 packed.2
    pure (if packed.1 then .success else .externalResourceFail)

/-- The file is read into the scratch buffer and unpacked from there. What
`CFE_TBL_DecodeFromMemory` returns is not looked at, and it is not called after a
warning. -/
def loadScratch (f : TableFile) (work : BufRef) (t i : Nat) : TblM Status := do
  let status ← loadFromFile cfg eds f (.shared i) t
  let s ← get
  let scratch := s.buffers (.shared i)
  onlyIf (status == .success) (do
    let _ ← decodeFromMemory cfg eds scratch.bytes scratch.edsContentId work t
    pure ())
  modifyBuff work fun v =>
    { v with
      dataSource := f.name
      fileCreateTimeSecs := scratch.fileCreateTimeSecs
      fileCreateTimeSubSecs := scratch.fileCreateTimeSubSecs }
  pure status

/-- `CFE_TBL_LoadFromFileAndDecode` -/
def loadFromFileAndDecode (f : TableFile) (work : BufRef) (t : Nat) : TblM Status := do
  let s ← get
  match findFreeLoadBuff cfg s with
  | none => pure .errNoBufferAvail
  | some i => do
    modifyBuff (.shared i) fun v => { v with taken := true }
    let status ← loadScratch cfg eds f work t i
    modifyBuff (.shared i) fun v => { v with taken := false }
    pure status

/-! ## Updating -/

/-- `CFE_TBL_NotifyTblUsersOfUpdate` -/
def notifyTblUsersOfUpdate (t : Nat) : TblM Unit := do
  modifyReg t fun r => { r with loadInProgress := none, loadPending := false, tableLoadedOnce := true }
  modify fun s =>
    { s with
      handles := fun h =>
        if h ∈ (s.registry t).accessList then { s.handles h with updated := true }
        else s.handles h }

/-- A double buffered table is updated by a swap of its buffers. -/
def swapBuffers (t k : Nat) : TblM Unit := do
  let s ← get
  modifyReg t fun r => { r with activeBufferIndex := k }
  note (.activated t (.own t k) ((s.buffers (.own t k)).bytes.take (s.registry t).size)
    (s.registry t).validationFunc)
  notifyTblUsersOfUpdate t

/-- A single buffered table is updated by a copy from the working buffer, which becomes
free. -/
def copyLoaded (t i : Nat) : TblM Unit := do
  let s ← get
  let work := s.buffers (.shared i)
  writeBytes (.own t 0) 0 (work.bytes.take (s.registry t).size)
  modifyBuff (.own t 0) fun v =>
    { v with
      dataSource := work.dataSource
      fileCreateTimeSecs := work.fileCreateTimeSecs
      fileCreateTimeSubSecs := work.fileCreateTimeSubSecs
      crc := work.crc }
  note (.activated t (.shared i) (work.bytes.take (s.registry t).size)
    (s.registry t).validationFunc)
  modifyBuff (.shared i) fun v => { v with taken := false }
  notifyTblUsersOfUpdate t

/-- `CFE_TBL_UpdateInternal` -/
def updateInternal (t : Nat) : TblM Status := do
  let s ← get
  let r := s.registry t
  match r.loadInProgress with
  | none => pure .infoNoUpdatePending
  | some k =>
    if !r.loadPending then pure .infoNoUpdatePending
    else if r.doubleBuffered then do
      swapBuffers t k
      pure .success
    else if r.accessList.any fun h => (s.handles h).lockFlag then pure .infoTableLocked
    else do
      let i ← loadBuffIndex cfg (some k)
      copyLoaded t i
      pure .success

/-- `CFE_TBL_Update` -/
def update (app h : Nat) : TblM Status := do
  let s ← get
  if validateAccess cfg s h app ≠ .success then pure (validateAccess cfg s h app)
  else updateInternal cfg (s.handles h).regIndex

/-! ## Loads by an application -/

/-- Where `CFE_TBL_Load` takes the data from: a file, or memory, with the text that names
the address. -/
inductive Source where
  | file (f : TableFile)
  | address (text : List Char) (data : Bytes)
  | illegal (data : Bytes)

/-- The bytes `SrcDataPtr` points to; for a file, its name. -/
def Source.bytes : Source → Bytes
  | .file f => f.name.map fun c => BitVec.ofNat 8 c.toNat
  | .address _ data => data
  | .illegal data => data

/-- The text that names the address, or the name of the file. -/
def Source.text : Source → List Char
  | .file f => f.name
  | .address text _ => text
  | .illegal _ => []

/-- The working buffer is filled. -/
def loadData (src : Source) (work : BufRef) (t : Nat) : TblM Status :=
  match src with
  | .file f => do
    let status ← loadFromFileAndDecode cfg eds f work t
    let s ← get
    pure (if status = .warnPartialLoad ∧ !(s.registry t).tableLoadedOnce then .errPartialLoad
      else status)
  | .address text data => do
    let s ← get
    writeBytes work 0 (data.take (s.registry t).size)
    modifyBuff work fun v =>
      { v with
        dataSource := text
        fileCreateTimeSecs := 0
        fileCreateTimeSubSecs := 0
        crc := cfg.calculateCRC (v.bytes.take (s.registry t).size) }
    pure .success
  | .illegal _ => pure .errIllegalSrcType

/-- The new contents are validated, and cleared when they are not valid. -/
def validateLoad (vf : Bytes → Int) (work : BufRef) (t : Nat) (status : Status) : TblM Status := do
  let s ← get
  let r := s.registry t
  if status.isGood && r.validationFunc then do
    let image := (s.buffers work).bytes.take r.size
    note (.validation work image (vf image))
    if vf image = 0 then pure .success
    else do
      writeBytes work 0 (List.replicate r.size 0)
      pure (.invalid (if 0 < vf image then -1 else vf image))
  else pure status

/-- The end of `CFE_TBL_Load`: the working buffer is given up, or the table updated. -/
def finishLoad (t : Nat) (status : Status) : TblM Status := do
  let s ← get
  let r := s.registry t
  if !status.isGood then do
    onlyIf (!r.doubleBuffered && r.tableLoadedOnce) (do
      let i ← loadBuffIndex cfg r.loadInProgress
      modifyBuff (.shared i) fun v => { v with taken := false })
    modifyReg t fun r => { r with loadInProgress := none }
    pure status
  else if r.tableLoadedOnce then do
    modifyReg t fun r => { r with loadPending := true }
    updateInternal cfg t
  else do
    notifyTblUsersOfUpdate t
    pure .success

/-- `CFE_TBL_Load` of a dump only table, which is allowed once, to give its address. -/
def loadUserDefined (src : Source) (t : Nat) : TblM Status := do
  let s ← get
  if !(s.registry t).userDefAddr || (s.registry t).tableLoadedOnce then pure .errDumpOnly
  else do
    modifyReg t fun r => { r with tableLoadedOnce := true }
    modifyBuff (.own t 0) fun v =>
      { v with
        bytes := src.bytes
        dataSource := src.text
        fileCreateTimeSecs := 0
        fileCreateTimeSubSecs := 0 }
    pure .success

/-- The part of `CFE_TBL_Load` that loads a table. -/
def loadTable (src : Source) (vf : Bytes → Int) (t : Nat) : TblM Status := do
  match ← getWorkingBuffer cfg t true with
  | .error e => pure e
  | .ok work => do
    let status ← loadData cfg eds src work t
    let status ← validateLoad vf work t status
    finishLoad cfg t status

/-- `CFE_TBL_Load` -/
def load (app h : Nat) (src : Source) (vf : Bytes → Int) : TblM Status := do
  let s ← get
  let t := (s.handles h).regIndex
  if validateAccess cfg s h app ≠ .success then pure (validateAccess cfg s h app)
  else if (s.registry t).dumpOnly then loadUserDefined src t
  else if (s.registry t).loadInProgress ≠ none then pure .errLoadInProgress
  else loadTable cfg eds src vf t

/-! ## Validation -/

/-- The validation function of a table is called on a buffer. -/
def callValidation (vf : Bytes → Int) (t : Nat) (b : BufRef) : TblM Int := do
  let s ← get
  if !(s.registry t).validationFunc then throw .nullFunction
  else do
    let image := (s.buffers b).bytes.take (s.registry t).size
    note (.validation b image (vf image))
    pure (vf image)

/-- The result is kept for the table services task. -/
def validationDone (v : Nat) (result : Int) : TblM Unit :=
  modify fun s => s.setValidation v { s.validationResults v with result := result, state := .performed }

/-- The inactive buffer of a table: its own, or the shared one of the load. -/
def inactiveBuffer (t : Nat) : TblM BufRef := do
  let s ← get
  if (s.registry t).doubleBuffered then pure (.own t (1 - (s.registry t).activeBufferIndex))
  else do
    let i ← loadBuffIndex cfg (s.registry t).loadInProgress
    pure (.shared i)

/-- The validation of the inactive buffer. -/
def validateInactive (vf : Bytes → Int) (t v : Nat) : TblM Status := do
  let b ← inactiveBuffer cfg t
  let result ← callValidation vf t b
  onlyIf (result == 0) (modifyBuff b fun v => { v with validated := true })
  validationDone v result
  modifyReg t fun r => { r with validateInactiveIndex := none }
  pure .success

/-- The validation of the active buffer. -/
def validateActive (vf : Bytes → Int) (t v : Nat) : TblM Status := do
  let s ← get
  let r := s.registry t
  let result ← callValidation vf t (.own t (if r.doubleBuffered then r.activeBufferIndex else 0))
  validationDone v result
  modifyReg t fun r => { r with validateActiveIndex := none }
  pure .success

/-- `CFE_TBL_Validate` -/
def validate (app h : Nat) (vf : Bytes → Int) : TblM Status := do
  let s ← get
  let t := (s.handles h).regIndex
  if validateAccess cfg s h app ≠ .success then pure (validateAccess cfg s h app)
  else
    match (s.registry t).validateInactiveIndex, (s.registry t).validateActiveIndex with
    | some v, _ => validateInactive cfg vf t v
    | none, some v => validateActive vf t v
    | none, none => pure .infoNoValidationPending

/-- `CFE_TBL_GetStatus` -/
def getStatus (s : TblState) (app h : Nat) : Status :=
  let r := s.registry (s.handles h).regIndex
  if validateAccess cfg s h app ≠ .success then validateAccess cfg s h app
  else if r.loadPending then .infoUpdatePending
  else if r.validateActiveIndex ≠ none ∨ r.validateInactiveIndex ≠ none then
    .infoValidationPending
  else .success

/-- The loop of `CFE_TBL_Manage`; `vf n` is the validation function as it answers with `n`
passes left. -/
def manageLoop (app h : Nat) (vf : Nat → Bytes → Int) : Nat → TblM Status
  | 0 => throw .outOfFuel
  | n + 1 => do
    let s ← get
    if getStatus cfg s app h = .infoValidationPending then do
      let status ← validate cfg app h (vf n)
      if status ≠ .success then pure status else manageLoop app h vf n
    else if getStatus cfg s app h = .infoUpdatePending then do
      let status ← update cfg app h
      pure (if status = .success then .infoUpdated else status)
    else pure (getStatus cfg s app h)

/-- `CFE_TBL_Manage`. There are at most two validations to do. -/
def manage (app h : Nat) (vf : Nat → Bytes → Int) : TblM Status := manageLoop cfg app h vf 3

/-! ## Ground commands -/

/-- The part of `CFE_TBL_LoadCmd` that reads the file into the working buffer. An
incomplete load leaves the flags of the buffer alone. -/
def readIntoBuffer (f : TableFile) (std : FsHeader) (hdr : FileHdr) (t : Nat) (b : BufRef) :
    TblM CmdProcRet := do
  writeBytes b hdr.offset.toNat (f.read hdr.numBytes)
  if !f.complete hdr.numBytes then pure .incErrCtr
  else if f.hasExtraByte hdr.numBytes then pure .incErrCtr
  else do
    let s ← get
    modifyBuff b fun v =>
      { v with
        dataSource := f.name
        fileCreateTimeSecs := std.timeSeconds
        fileCreateTimeSubSecs := std.timeSubSeconds
        crc := cfg.calculateCRC (v.bytes.take (s.registry t).size)
        validated := !(s.registry t).validationFunc }
    pure .incCmdCtr

/-- The tests `CFE_TBL_LoadCmd` makes on a header. The sum is a sum of 32-bit numbers. -/
def loadAccepted (r : RegistryRec) (hdr : FileHdr) : Bool :=
  (r.tableLoadedOnce || hdr.offset == 0) && decide (0 < hdr.numBytes.toNat) &&
    decide ((hdr.numBytes + hdr.offset).toNat ≤ r.size)

/-- `CFE_TBL_LoadCmd` -/
def loadCmd (f : TableFile) : TblM CmdProcRet := do
  let s ← get
  if !f.opens then pure .incErrCtr
  else
    match readHeaders f with
    | .error _ => pure .incErrCtr
    | .ok (std, hdr) =>
      match findTableInRegistry cfg s hdr.tableName with
      | none => pure .incErrCtr
      | some t =>
        if (s.registry t).dumpOnly || (s.registry t).loadPending then pure .incErrCtr
        else if !loadAccepted (s.registry t) hdr then pure .incErrCtr
        else do
          match ← getWorkingBuffer cfg t false with
          | .error _ => pure .incErrCtr
          | .ok b => readIntoBuffer cfg f std hdr t b

/-- The buffer a ground command means. A single buffered table whose address an
application defined has no inactive buffer to dump. -/
def selectBuffer (t : Nat) (sel : BufferSelect) (forDump : Bool) : TblM (Option BufRef) := do
  let s ← get
  let r := s.registry t
  match sel with
  | .active => pure (some (.own t r.activeBufferIndex))
  | .inactive =>
    if !r.doubleBuffered && (r.loadInProgress == none || (forDump && r.userDefAddr)) then pure none
    else do
      let b ← inactiveBuffer cfg t
      pure (some b)
  | .illegal => pure none

/-- The part of `CFE_TBL_DumpCmd` that packs the table, with a shared load buffer and a
dump control block found free. -/
def dumpInto (t : Nat) (source : BufRef) (tableName dumpFilename : List Char) (now : Nat × Nat)
    (i d : Nat) : TblM CmdProcRet := do
  let s ← get
  modifyBuff (.shared i) fun v => { v with taken := true, dataSource := dumpFilename }
  modify fun s => s.setDump d
    { state := (s.dumpControlBlocks d).state
      size := (s.registry t).size
      dumpBuffer := i
      regIndex := t
      tableName := tableName }
  let status ← encodeFromMemory eds (.shared i) (s.buffers source) t
  if status ≠ .success then do
    modifyBuff (.shared i) fun v => { v with taken := false }
    pure (.status status)
  else do
    modifyBuff (.shared i) fun v =>
      { v with
        edsContentId := (s.buffers source).edsContentId
        fileCreateTimeSecs := now.1
        fileCreateTimeSubSecs := now.2 }
    modify fun s => s.setDump d { s.dumpControlBlocks d with state := .performed }
    pure .incCmdCtr

/-- `CFE_TBL_DumpCmd` -/
def dumpCmd (tableName : List Char) (sel : BufferSelect) (dumpFilename : List Char)
    (now : Nat × Nat) : TblM CmdProcRet := do
  let s ← get
  match findTableInRegistry cfg s tableName with
  | none => pure .incErrCtr
  | some t => do
    match ← selectBuffer cfg t sel true with
    | none => pure .incErrCtr
    | some source =>
      if (s.buffers source).bytes = [] then pure .incErrCtr
      else
        match findFreeLoadBuff cfg s, findFreeDump cfg s with
        | some i, some d => dumpInto eds t source tableName dumpFilename now i d
        | _, _ => pure .incErrCtr

/-- `CFE_TBL_ValidateCmd` -/
def validateCmd (tableName : List Char) (sel : BufferSelect) : TblM CmdProcRet := do
  let s ← get
  match findTableInRegistry cfg s tableName with
  | none => pure .incErrCtr
  | some t => do
    match ← selectBuffer cfg t sel false with
    | none => pure .incErrCtr
    | some b =>
      if (s.buffers b).bytes = [] then pure .incErrCtr
      else
        match findValidation cfg s .free with
        | none => pure .incErrCtr
        | some v => do
          modify fun s => s.setValidation v
            { state := if (s.registry t).validationFunc then .pending else .performed
              result := 0
              crcOfTable := cfg.calculateCRC ((s.buffers b).bytes.take (s.registry t).size)
              activeBuffer := sel == .active
              tableName := tableName }
          onlyIf (s.registry t).validationFunc (modifyReg t fun r =>
            if sel = .active then { r with validateActiveIndex := some v }
            else { r with validateInactiveIndex := some v })
          pure .incCmdCtr

/-- `CFE_TBL_ActivateCmd` -/
def activateCmd (tableName : List Char) : TblM CmdProcRet := do
  let s ← get
  match findTableInRegistry cfg s tableName with
  | none => pure .incErrCtr
  | some t =>
    if (s.registry t).dumpOnly || (s.registry t).loadInProgress == none then pure .incErrCtr
    else do
      let b ← inactiveBuffer cfg t
      if (s.buffers b).validated then do
        modifyReg t fun r => { r with loadPending := true }
        pure .incCmdCtr
      else pure .incErrCtr

/-- `CFE_TBL_AbortLoad` -/
def abortLoad (t : Nat) : TblM Unit := do
  let s ← get
  onlyIf (!(s.registry t).doubleBuffered) (do
    let i ← loadBuffIndex cfg (s.registry t).loadInProgress
    modifyBuff (.shared i) fun v => { v with taken := false })
  modifyReg t fun r => { r with loadInProgress := none, loadPending := false }

/-- `CFE_TBL_AbortLoadCmd` -/
def abortLoadCmd (tableName : List Char) : TblM CmdProcRet := do
  let s ← get
  match findTableInRegistry cfg s tableName with
  | none => pure .incErrCtr
  | some t =>
    if (s.registry t).loadInProgress != none && !(s.registry t).dumpOnly then do
      abortLoad cfg t
      pure .incCmdCtr
    else pure .incErrCtr

/-- The part of `CFE_TBL_GetHkData` that reports one validation and frees its block. -/
def reportValidation : TblM Unit := do
  let s ← get
  match findValidation cfg s .performed with
  | none => pure ()
  | some v => modify fun s => s.setValidation v ⟨.free, 0, 0, false, []⟩

/-- A dump whose file has been written is closed. The buffer that is freed is the one of
`LoadInProgress`, not that of the dump. -/
def finishDump (d : Nat) : TblM Unit := do
  let s ← get
  let c := s.dumpControlBlocks d
  onlyIf (c.state == .performed) (do
    let i ← loadBuffIndex cfg (s.registry c.regIndex).loadInProgress
    modifyBuff (.shared i) fun v => { v with taken := false }
    modifyReg c.regIndex fun r => { r with loadInProgress := none }
    modify fun s => s.setDump d { c with state := .free })

/-- `CFE_TBL_HousekeepingCmd`, without the files it writes (`dumpToFile`). -/
def housekeepingCmd : TblM CmdProcRet := do
  reportValidation cfg
  forM (List.range cfg.maxSimultaneousLoads) (finishDump cfg)
  pure .dontIncCtr

/-! ## Runs -/

/-- What can happen: calls of applications, ground commands, a housekeeping cycle and the
clean-up of an application. -/
inductive Event where
  | register (app : Nat) (name : List Char) (size : Nat) (opts : TblOptions) (func : Bool)
      (firstAlloc secondAlloc : Bool)
  | share (app : Nat) (name : List Char)
  | unregister (app h : Nat)
  | load (app h : Nat) (src : Source) (vf : Bytes → Int)
  | update (app h : Nat)
  | getAddress (app h : Nat)
  | releaseAddress (app h : Nat)
  | validate (app h : Nat) (vf : Bytes → Int)
  | manage (app h : Nat) (vf : Nat → Bytes → Int)
  | loadCmd (f : TableFile)
  | dumpCmd (tableName : List Char) (sel : BufferSelect) (dumpFilename : List Char)
      (now : Nat × Nat)
  | validateCmd (tableName : List Char) (sel : BufferSelect)
  | activateCmd (tableName : List Char)
  | abortLoadCmd (tableName : List Char)
  | housekeepingCmd
  | cleanUpApp (app : Nat)

/-- What an event does, without what it returns. -/
def Event.run : Event → TblM Unit
  | .register app name size opts func a b => do
    let _ ← Tbl.register cfg app name size opts func a b
  | .share app name => do let _ ← Tbl.share cfg app name
  | .unregister app h => do let _ ← Tbl.unregister cfg app h
  | .load app h src vf => do let _ ← Tbl.load cfg eds app h src vf
  | .update app h => do let _ ← Tbl.update cfg app h
  | .getAddress app h => do let _ ← Tbl.getAddress cfg app h
  | .releaseAddress app h => do let _ ← Tbl.releaseAddress cfg app h
  | .validate app h vf => do let _ ← Tbl.validate cfg app h vf
  | .manage app h vf => do let _ ← Tbl.manage cfg app h vf
  | .loadCmd f => do let _ ← Tbl.loadCmd cfg f
  | .dumpCmd tableName sel dumpFilename now => do
    let _ ← Tbl.dumpCmd cfg eds tableName sel dumpFilename now
  | .validateCmd tableName sel => do let _ ← Tbl.validateCmd cfg tableName sel
  | .activateCmd tableName => do let _ ← Tbl.activateCmd cfg tableName
  | .abortLoadCmd tableName => do let _ ← Tbl.abortLoadCmd cfg tableName
  | .housekeepingCmd => do let _ ← Tbl.housekeepingCmd cfg
  | .cleanUpApp app => Tbl.cleanUpApp cfg app

/-- Whole calls, one after the other, from start-up on. Most calls take no lock, so this is an
assumption: no call of table services begins in one task while another task is in one. -/
inductive Run : List Event → TblState → Prop where
  | start : Run [] (TblState.earlyInit cfg)
  | next {es : List Event} {s s' : TblState} {e : Event} (hrun : Run es s)
      (hstep : (e.run cfg eds).run s = .ok ((), s')) : Run (es ++ [e]) s'

/-- The state after some events, or the fault that ends them. -/
def exec (s : TblState) : List Event → Except Fault TblState
  | [] => .ok s
  | e :: es =>
    match (e.run cfg eds).run s with
    | .ok (_, s') => exec s' es
    | .error f => .error f

variable {cfg eds}

/-- What the events keep, step by step, holds after all of them. -/
theorem exec_append {P : List Event → TblState → Prop} {es es' : List Event} {s s' : TblState}
    (hnext : ∀ e ∈ es', ∀ {es s s'}, P es s → (e.run cfg eds).run s = .ok ((), s') →
      P (es ++ [e]) s')
    (hstart : P es s) (h : exec cfg eds s es' = .ok s') : P (es ++ es') s' := by
  induction es' generalizing es s with
  | nil =>
    obtain rfl : s = s' := Except.ok.inj h
    rwa [append_nil]
  | cons e es' ih =>
    unfold Tbl.exec at h
    split at h
    · rename_i s₁ hstep
      rw [← singleton_append, ← append_assoc]
      refine ih (fun e' he' => hnext e' (mem_cons_of_mem e he')) ?_ h
      exact hnext e mem_cons_self hstart hstep
    · cases h

theorem Run.exec {es es' : List Event} {s s' : TblState} (hrun : Run cfg eds es s)
    (h : exec cfg eds s es' = .ok s') : Run cfg eds (es ++ es') s' :=
  exec_append (fun _ _ => Run.next) hrun h

variable (cfg eds)

/-- The state after some events that end without a fault. -/
def stateAfter (s : TblState) (es : List Event) : TblState :=
  match exec cfg eds s es with
  | .ok s' => s'
  | .error _ => s

/-- The fault that some events end in. -/
def faultAfter (s : TblState) (es : List Event) : Option Fault :=
  match exec cfg eds s es with
  | .ok _ => none
  | .error f => some f

variable {cfg eds}

theorem exec_stateAfter {s : TblState} {es : List Event} (h : faultAfter cfg eds s es = none) :
    exec cfg eds s es = .ok (stateAfter cfg eds s es) := by
  unfold faultAfter at h
  unfold stateAfter
  split at h
  · rename_i s' hexec
    rw [hexec]
  · cases h

theorem exec_faultAfter {s : TblState} {es : List Event} {f : Fault}
    (h : faultAfter cfg eds s es = some f) : exec cfg eds s es = .error f := by
  unfold faultAfter at h
  split at h
  · cases h
  · rename_i f' hexec
    rw [hexec, Option.some.inj h]

/-! ## A small system -/

/-- A system with two tables of at most four bytes. -/
def smallTbl : TblConfig where
  maxNumTables := 2
  maxNumHandles := 3
  maxSimultaneousLoads := 2
  maxNumValidations := 2
  maxSnglTableSize := 4
  maxDblTableSize := 4
  maxNameLength := 4
  maxPathLen := 8
  tableTaskAppId := 0
  appName := fun _ => ['A']
  calculateCRC := fun bytes => BitVec.ofNat 32 (bytes.map BitVec.toNat).sum

/-- The order of the bytes of a type of the small database. -/
def byteOrder (edsId : Nat) (bytes : Bytes) : Bytes := if edsId = 2 then bytes.reverse else bytes

/-- A database with two types of 16 bits: type 1 is packed in the byte order of the host,
type 2 in the other one. -/
def smallEds : EdsLib where
  getTypeInfo id := if id = 1 ∨ id = 2 then some ⟨16, 2⟩ else none
  unpackPartialObject id object packed _ :=
    if 2 ≤ object.length ∧ 2 ≤ packed.length then
      ⟨true, id, byteOrder id (packed.take 2) ++ object.drop 2⟩
    else ⟨false, id, object⟩
  verifyUnpackedObject _ object _ := (true, object)
  packCompleteObject id object _ := (decide (2 ≤ object.length), byteOrder id (object.take 2))
  length_unpack id object packed bits := by
    split
    · rename_i h
      have horder : ∀ bytes, (byteOrder id bytes).length = bytes.length := by
        intro bytes
        unfold byteOrder
        split
        · exact List.length_reverse
        · rfl
      simp only [List.length_append, horder, List.length_take, List.length_drop]
      omega
    · rfl
  length_verify _ _ _ := rfl

/-- A file for table `A.T` with data for the bytes from `offset` on. -/
def tableFile (edsId : Nat) (offset : BitVec 32) (data : Bytes) : TableFile where
  name := ['f']
  opens := true
  fsHeader := some ⟨fileContentId, subTypeTblImg, 0, 0⟩
  tblHeader := some ⟨offset, BitVec.ofNat 32 data.length, ['A', '.', 'T'], edsId⟩
  data := data
  readFails := false
  extraReadFails := false

end CfsEds.Tbl
