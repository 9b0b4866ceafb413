import CfsEds.Lib.Faults
import Mathlib.Data.BitVec
import Mathlib.Logic.Function.Basic

/-!
# Table services: data and buffers

`cfe_tbl_task.h`: the table registry, the access descriptors (handles), the load
buffers shared by the single buffered tables, the validation results and the dump
control blocks. A table has one buffer of its own, or two if it is double
buffered; loads go to a *working buffer*, which is the table's inactive buffer or
one of the shared ones.

All the bytes that table services write into a buffer go through `writeBytes`,
which stops with a fault when they do not fit. `LoadBuffs` is indexed by
`LoadInProgress` through `loadBuffIndex`, which stops with a fault when the index
is outside of the array.

The linked list of access descriptors of a table is a list of handles. A null
`BufferPtr` is an empty buffer. What the EDS library does to a buffer is given by
`EdsLib`. Mutexes are taken to succeed; critical tables (copies in the critical data
store), telemetry, events and notification messages are left out.
-/

namespace CfsEds.Tbl

open CfsEds.Lib.Faults Function

/-- Strings of bytes. -/
abbrev Bytes := List (BitVec 8)

/-! ## The EDS library -/

/-- `EdsLib_DataTypeDB_TypeInfo_t`: the sizes of the packed and the native form. -/
structure TypeInfo where
  bits : Nat
  bytes : Nat

/-- What `EdsLib_DataTypeDB_UnpackPartialObject` leaves behind. -/
structure Unpacked where
  ok : Bool
  edsId : Nat
  native : Bytes

/-- The EDS library with a database. Unpacking and verifying work in place on the
native object they are given and check its size first, so they do not change how
long it is. -/
structure EdsLib where
  /-- `EdsLib_DataTypeDB_GetTypeInfo` -/
  getTypeInfo : Nat → Option TypeInfo
  /-- `EdsLib_DataTypeDB_UnpackPartialObject` of a type, over a native object, from
  packed data of a number of bits -/
  unpackPartialObject : Nat → Bytes → Bytes → Nat → Unpacked
  /-- `EdsLib_DataTypeDB_VerifyUnpackedObject` with `RECOMPUTE_LENGTH`: the native object
  and the packed one it came from -/
  verifyUnpackedObject : Nat → Bytes → Bytes → Bool × Bytes
  /-- `EdsLib_DataTypeDB_PackCompleteObject` of a native object into a number of bits -/
  packCompleteObject : Nat → Bytes → Nat → Bool × Bytes
  length_unpack : ∀ edsId native packed bits,
    (unpackPartialObject edsId native packed bits).native.length = native.length
  length_verify : ∀ edsId native packed,
    (verifyUnpackedObject edsId native packed).2.length = native.length

/-! ## Configuration and status codes -/

/-- The constants table services are built with, and the two functions of executive
services they use. -/
structure TblConfig where
  /-- `CFE_PLATFORM_TBL_MAX_NUM_TABLES` -/
  maxNumTables : Nat
  /-- `CFE_PLATFORM_TBL_MAX_NUM_HANDLES` -/
  maxNumHandles : Nat
  /-- `CFE_PLATFORM_TBL_MAX_SIMULTANEOUS_LOADS` -/
  maxSimultaneousLoads : Nat
  /-- `CFE_PLATFORM_TBL_MAX_NUM_VALIDATIONS` -/
  maxNumValidations : Nat
  /-- `CFE_PLATFORM_TBL_MAX_SNGL_TABLE_SIZE`, also the size of the shared load buffers -/
  maxSnglTableSize : Nat
  /-- `CFE_PLATFORM_TBL_MAX_DBL_TABLE_SIZE` -/
  maxDblTableSize : Nat
  /-- `CFE_MISSION_TBL_MAX_NAME_LENGTH` -/
  maxNameLength : Nat
  /-- `OS_MAX_PATH_LEN` -/
  maxPathLen : Nat
  /-- `TableTaskAppId` -/
  tableTaskAppId : Nat
  /-- `CFE_ES_GetAppName` -/
  appName : Nat → List Char
  /-- `CFE_ES_CalculateCRC` with seed 0 and the default type -/
  calculateCRC : Bytes → BitVec 32

/-- The status codes of table services that the modelled functions return. -/
inductive Status where
  | success
  | infoUpdated
  | infoNoUpdatePending
  | infoTableLocked
  | infoUpdatePending
  | infoValidationPending
  | infoNoValidationPending
  | warnDuplicate
  | warnPartialLoad
  | warnShortFile
  | errInvalidHandle
  | errInvalidName
  | errInvalidSize
  | errInvalidOptions
  | errDuplicateDiffSize
  | errDuplicateNotOwned
  | errRegistryFull
  | errHandlesFull
  | errNoAccess
  | errUnregistered
  | errNeverLoaded
  | errNoBufferAvail
  | errDumpOnly
  | errLoadInProgress
  | errIllegalSrcType
  | errFilenameTooLong
  | errAccess
  | errNoStdHeader
  | errBadContentId
  | errBadSubtypeId
  | errNoTblHeader
  | errFileForWrongTable
  | errFileTooLarge
  | errLoadIncomplete
  | errPartialLoad
  | externalResourceFail
  /-- an error of `CFE_ES_GetPoolBuf` -/
  | poolError
  /-- a negative result of a validation function -/
  | invalid (result : Int)
deriving DecidableEq, Repr

/-- `Status >= CFE_SUCCESS`: success, information and warning codes. -/
def Status.isGood : Status → Bool
  | .success | .infoUpdated | .infoNoUpdatePending | .infoTableLocked | .infoUpdatePending
  | .infoValidationPending | .infoNoValidationPending | .warnDuplicate | .warnPartialLoad
  | .warnShortFile => true
  | _ => false

/-- `CFE_TBL_CmdProcRet_t`. A dump that cannot be encoded returns the status of the
encoder instead. -/
inductive CmdProcRet where
  | dontIncCtr
  | incErrCtr
  | incCmdCtr
  | status (code : Status)
deriving DecidableEq, Repr

/-- `CFE_TBL_BufferSelect_t`, with the values that name no buffer. -/
inductive BufferSelect where
  | inactive
  | active
  | illegal
deriving DecidableEq, Repr

/-! ## Records -/

/-- `CFE_TBL_LoadBuff_t`; `bytes` is what `BufferPtr` points to. -/
structure LoadBuff where
  bytes : Bytes
  fileCreateTimeSecs : Nat
  fileCreateTimeSubSecs : Nat
  crc : BitVec 32
  taken : Bool
  validated : Bool
  dataSource : List Char
  edsContentId : Nat

/-- A zeroed `CFE_TBL_LoadBuff_t`. -/
def LoadBuff.zero : LoadBuff := ⟨[], 0, 0, 0, false, false, [], 0⟩

/-- `CFE_TBL_AccessDescriptor_t` without its links. -/
structure AccessDescriptor where
  appId : Option Nat
  regIndex : Nat
  usedFlag : Bool
  lockFlag : Bool
  updated : Bool
  bufferIndex : Nat

/-- `CFE_TBL_RegistryRec_t` without its `Buffers`, which are kept in `TblState.buffers`. -/
structure RegistryRec where
  /-- `none` is `CFE_TBL_NOT_OWNED` -/
  ownerAppId : Option Nat
  size : Nat
  /-- `ValidationFuncPtr` is not null -/
  validationFunc : Bool
  /-- the handles on the list that starts at `HeadOfAccessList`, in its order; the links themselves,
  `PrevLink` and `NextLink`, are left out -/
  accessList : List Nat
  /-- `none` is `CFE_TBL_NO_LOAD_IN_PROGRESS`, which is -1 -/
  loadInProgress : Option Nat
  validateActiveIndex : Option Nat
  validateInactiveIndex : Option Nat
  tableLoadedOnce : Bool
  loadPending : Bool
  dumpOnly : Bool
  doubleBuffered : Bool
  userDefAddr : Bool
  activeBufferIndex : Nat
  name : List Char

/-- The record `CFE_TBL_InitRegistryRecord` leaves. -/
def RegistryRec.init : RegistryRec where
  ownerAppId := none
  size := 0
  validationFunc := false
  accessList := []
  loadInProgress := none
  validateActiveIndex := none
  validateInactiveIndex := none
  tableLoadedOnce := false
  loadPending := false
  dumpOnly := false
  doubleBuffered := false
  userDefAddr := false
  activeBufferIndex := 0
  name := []

/-- `CFE_TBL_ValidationState_t` -/
inductive ValidationState where
  | free
  | pending
  | performed
deriving DecidableEq, Repr

/-- `CFE_TBL_ValidationResult_t` -/
structure ValidationResult where
  state : ValidationState
  result : Int
  crcOfTable : BitVec 32
  activeBuffer : Bool
  tableName : List Char

/-- `CFE_TBL_DumpState_t`. `CFE_TBL_DUMP_PENDING` is never assigned. -/
inductive DumpState where
  | free
  | performed
deriving DecidableEq, Repr

/-- `CFE_TBL_DumpControl_t`; `DumpBufferPtr` points into `LoadBuffs` and `RegRecPtr` into
the registry. -/
structure DumpControl where
  state : DumpState
  size : Nat
  dumpBuffer : Nat
  regIndex : Nat
  tableName : List Char

/-- A buffer: `Buffers[k]` of a registry record or `LoadBuffs[i]`. -/
inductive BufRef where
  | own (t k : Nat)
  | shared (i : Nat)
deriving DecidableEq, Repr

/-- What table services did to the buffers, for the history of a run. -/
inductive Obs where
  /-- bytes were written into a buffer -/
  | wrote (b : BufRef)
  /-- the validation function was called on an image in a buffer -/
  | validation (b : BufRef) (image : Bytes) (result : Int)
  /-- an image in a buffer was made the active contents of a table, which has a validation
  function or not -/
  | activated (t : Nat) (b : BufRef) (image : Bytes) (checked : Bool)
deriving DecidableEq, Repr

/-- `CFE_TBL_Global`, with the history of what was done to the buffers, newest first. All
the buffers are in one place: those of the tables and `LoadBuffs`. -/
structure TblState where
  registry : Nat → RegistryRec
  handles : Nat → AccessDescriptor
  buffers : BufRef → LoadBuff
  validationResults : Nat → ValidationResult
  dumpControlBlocks : Nat → DumpControl
  history : List Obs

/-- `CFE_TBL_EarlyInit`, with the shared load buffers allocated. -/
def TblState.earlyInit (cfg : TblConfig) : TblState where
  registry := fun _ => RegistryRec.init
  handles := fun _ => ⟨none, 0, false, false, false, 0⟩
  buffers
    | .own _ _ => LoadBuff.zero
    | .shared _ => { LoadBuff.zero with bytes := List.replicate cfg.maxSnglTableSize 0 }
  validationResults := fun _ => ⟨.free, 0, 0, false, []⟩
  dumpControlBlocks := fun _ => ⟨.free, 0, 0, 0, []⟩
  history := []

/-! ## Parts of the state -/

namespace TblState

variable (s : TblState)

@[simps -fullyApplied]
def setReg (t : Nat) (r : RegistryRec) : TblState :=
  { s with registry := Function.update s.registry t r }

@[simps -fullyApplied]
def setHandle (h : Nat) (d : AccessDescriptor) : TblState :=
  { s with handles := Function.update s.handles h d }

@[simps -fullyApplied]
def setValidation (v : Nat) (r : ValidationResult) : TblState :=
  { s with validationResults := Function.update s.validationResults v r }

@[simps -fullyApplied]
def setDump (d : Nat) (c : DumpControl) : TblState :=
  { s with dumpControlBlocks := Function.update s.dumpControlBlocks d c }

@[simps -fullyApplied]
def setBuff (b : BufRef) (v : LoadBuff) : TblState :=
  { s with buffers := Function.update s.buffers b v }

@[simps -fullyApplied]
def note (o : Obs) : TblState := { s with history := o :: s.history }

theorem setBuff_setBuff (b : BufRef) (v w : LoadBuff) :
    (s.setBuff b v).setBuff b w = s.setBuff b w := by
  simp [setBuff]

theorem setDump_setDump (d : Nat) (c c' : DumpControl) :
    (s.setDump d c).setDump d c' = s.setDump d c' := by
  simp [setDump]

end TblState

/-- An update that keeps some part of what it replaces keeps that part everywhere. -/
theorem update_field {α β γ : Type} [DecidableEq α] {f : α → β} {a : α} {v : β} (g : β → γ)
    (h : g v = g (f a)) (b : α) : g (update f a v b) = g (f b) := by
  rw [apply_update (fun _ => g), h, update_eq_self]

/-! ## The monad of table services -/

/-- Accesses table services are not entitled to. -/
inductive Fault where
  /-- a write of some bytes at an offset that leaves the buffer -/
  | outOfBuffer (b : BufRef) (offset length : Nat)
  /-- `LoadBuffs` indexed with a `LoadInProgress` outside of the array -/
  | loadBuffs (index : Option Nat)
  /-- a call of a null validation function -/
  | nullFunction
  /-- the loop of `CFE_TBL_Manage` did not come to an end -/
  | outOfFuel
deriving DecidableEq, Repr

abbrev TblM := StateT TblState (Except Fault)

def modifyReg (t : Nat) (f : RegistryRec → RegistryRec) : TblM Unit :=
  modify fun s => s.setReg t (f (s.registry t))

def modifyHandle (h : Nat) (f : AccessDescriptor → AccessDescriptor) : TblM Unit :=
  modify fun s => s.setHandle h (f (s.handles h))

def modifyBuff (b : BufRef) (f : LoadBuff → LoadBuff) : TblM Unit :=
  modify fun s => s.setBuff b (f (s.buffers b))

def note (o : Obs) : TblM Unit := modify fun s => s.note o

/-- Does nothing unless the condition holds. -/
def onlyIf (c : Bool) (x : TblM Unit) : TblM Unit := if c then x else pure ()

/-- `bytes` with `data` in place of what is at `offset`. -/
def patch (bytes : Bytes) (offset : Nat) (data : Bytes) : Bytes :=
  bytes.take offset ++ data ++ bytes.drop (offset + data.length)

/-- `data` is stored into a buffer at `offset`. -/
def writeBytes (b : BufRef) (offset : Nat) (data : Bytes) : TblM Unit := do
  let s ← get
  if data = [] then pure ()
  else if offset + data.length ≤ (s.buffers b).bytes.length then do
    modifyBuff b fun v => { v with bytes := patch v.bytes offset data }
    note (.wrote b)
  else throw (.outOfBuffer b offset data.length)

/-- The index of `LoadBuffs[LoadInProgress]`. -/
def loadBuffIndex (cfg : TblConfig) (loadInProgress : Option Nat) : TblM Nat :=
  match loadInProgress with
  | some i => if i < cfg.maxSimultaneousLoads then pure i else throw (.loadBuffs (some i))
  | none => throw (.loadBuffs none)

/-! ## Table files -/

/-- `CFE_FS_FILE_CONTENT_ID` -/
def fileContentId : Nat := 0x63464531

/-- `CFE_FS_SubType_TBL_IMG` -/
def subTypeTblImg : Nat := 8

/-- `CFE_FS_Header_t` -/
structure FsHeader where
  contentType : Nat
  subType : Nat
  timeSeconds : Nat
  timeSubSeconds : Nat

/-- `CFE_TBL_File_Hdr_t`; `CFE_ES_MemOffset_t` is 32 bits wide. `edsId` is made of
`EdsAppId` and `EdsFormatId`. -/
structure FileHdr where
  offset : BitVec 32
  numBytes : BitVec 32
  tableName : List Char
  edsId : Nat

/-- A file, as far as it can be read: the headers, the data that follows them, and
whether reading goes wrong. -/
structure TableFile where
  name : List Char
  opens : Bool
  /-- `none` when `CFE_FS_ReadHeader` comes back short -/
  fsHeader : Option FsHeader
  /-- `none` when the table header cannot be read or unpacked -/
  tblHeader : Option FileHdr
  data : Bytes
  readFails : Bool
  extraReadFails : Bool

/-- `CFE_TBL_ReadHeaders` -/
def readHeaders (f : TableFile) : Except Status (FsHeader × FileHdr) :=
  match f.fsHeader with
  | none => .error .errNoStdHeader
  | some std =>
    if std.contentType ≠ fileContentId then .error .errBadContentId
    else if std.subType ≠ subTypeTblImg then .error .errBadSubtypeId
    else
      match f.tblHeader with
      | none => .error .errNoTblHeader
      | some hdr => .ok (std, hdr)

/-- `OS_read` of the table data: the bytes that arrive. -/
def TableFile.read (f : TableFile) (numBytes : BitVec 32) : Bytes :=
  if f.readFails then [] else f.data.take numBytes.toNat

/-- The number of bytes that were read, as the loads see it: `OS_read` returns an `int32`,
and an error or a count that is negative as one is taken as 0. -/
def TableFile.readCount (f : TableFile) (numBytes : BitVec 32) : Nat :=
  if 2 ^ 31 ≤ (f.read numBytes).length then 0 else (f.read numBytes).length

/-- As many bytes were read as were asked for. -/
def TableFile.complete (f : TableFile) (numBytes : BitVec 32) : Bool :=
  f.readCount numBytes == numBytes.toNat

/-- Another byte can be read after the table data. -/
def TableFile.hasExtraByte (f : TableFile) (numBytes : BitVec 32) : Bool :=
  !f.extraReadFails && numBytes.toNat < f.data.length

end CfsEds.Tbl
