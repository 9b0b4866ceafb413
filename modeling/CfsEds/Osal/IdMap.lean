import CfsEds.Lib.Faults
import Mathlib.Logic.Function.Basic
import Mathlib.Data.BitVec

/-!
# The OSAL object tables

`osapi-idmap.c`: every object of the operating system abstraction layer has a record in the
table of its type, and a task works on an object with a token for its record. To get one it
locks the table and converts that lock: in mode `GLOBAL` the table stays locked, in mode
`REFCOUNT` the record is counted as in use, in mode `EXCLUSIVE` its ID is overwritten, so
that nobody else finds it. While a record is in use by others the task waits for a while,
with the table unlocked.

The functions are programs over `OsState`, the tables and the locks that the calling task
holds. The locks are not recursive (`PTHREAD_MUTEX_NORMAL`): to lock a table twice is a
fault, as is unlocking it without a lock. What other tasks do to a table while the caller
waits is an argument (`Caller.others`). The parts that work on one table without touching
its lock are functions of their own, `convertPass` to `finishRecord`.
-/

namespace CfsEds.Osal

open CfsEds.Lib.Faults

/-! ## Object IDs -/

/-- `osal_id_t` -/
abbrev ObjId := BitVec 32

/-- `OS_OBJECT_ID_UNDEFINED` -/
def objectIdUndefined : ObjId := 0

/-- `OS_OBJECT_ID_RESERVED` -/
def objectIdReserved : ObjId := 0xFFFFFFFF

/-- `OS_OBJECT_INDEX_MASK` -/
def objectIndexMask : Nat := 0xFFFF

/-- `OS_OBJECT_TYPE_UNDEFINED` -/
def objectTypeUndefined : Nat := 0

/-- `OS_OBJECT_TYPE_USER` -/
def objectTypeUser : Nat := 0x10

/-- `OS_ObjectIdToSerialNumber_Impl` -/
def objectIdToSerialNumber (id : ObjId) : Nat := id.toNat % 2 ^ 16

/-- `OS_ObjectIdToType_Impl` -/
def objectIdToType (id : ObjId) : Nat := id.toNat / 2 ^ 16

/-- `OS_ObjectIdCompose_Impl` -/
def objectIdCompose (idtype idserial : Nat) : ObjId :=
  BitVec.ofNat 32 (idtype * 2 ^ 16 ||| idserial)

/-- `OS_ObjectIdIsValid` -/
def objectIdIsValid (id : ObjId) : Bool :=
  decide (objectTypeUndefined < objectIdToType id) && decide (objectIdToType id < objectTypeUser)

/-- `OS_ObjectIdDefined` -/
def objectIdDefined (id : ObjId) : Bool := id != objectIdUndefined

theorem objectIdDefined_of_isValid {id : ObjId} (h : objectIdIsValid id = true) :
    objectIdDefined id = true := by
  by_contra hundefined
  simp only [objectIdDefined, bne_iff_ne, ne_eq, not_not] at hundefined
  rw [hundefined] at h
  cases h

/-! ## Tables -/

/-- The numbers of objects of each type; a serial number has 16 bits. -/
structure OsConfig where
  maxTasks : Fin (2 ^ 16)
  maxQueues : Fin (2 ^ 16)
  maxCountSemaphores : Fin (2 ^ 16)
  maxBinSemaphores : Fin (2 ^ 16)
  maxMutexes : Fin (2 ^ 16)
  maxNumOpenFiles : Fin (2 ^ 16)
  maxNumOpenDirs : Fin (2 ^ 16)
  maxTimebases : Fin (2 ^ 16)
  maxTimers : Fin (2 ^ 16)
  maxModules : Fin (2 ^ 16)
  maxFileSystems : Fin (2 ^ 16)
  maxConsoles : Fin (2 ^ 16)

/-- `OS_GetMaxForObjectType` -/
def OsConfig.getMaxForObjectType (cfg : OsConfig) : Nat → Nat
  | 0x01 => cfg.maxTasks
  | 0x02 => cfg.maxQueues
  | 0x03 => cfg.maxCountSemaphores
  | 0x04 => cfg.maxBinSemaphores
  | 0x05 => cfg.maxMutexes
  | 0x06 => cfg.maxNumOpenFiles
  | 0x07 => cfg.maxNumOpenDirs
  | 0x08 => cfg.maxTimebases
  | 0x09 => cfg.maxTimers
  | 0x0A => cfg.maxModules
  | 0x0B => cfg.maxFileSystems
  | 0x0C => cfg.maxConsoles
  | _ => 0

/-- A type that has objects is one of those in the list. -/
theorem OsConfig.type_of_max {cfg : OsConfig} {ty : Nat} (h : cfg.getMaxForObjectType ty ≠ 0) :
    0 < ty ∧ ty < objectTypeUser ∧ cfg.getMaxForObjectType ty ≤ objectIndexMask := by
  unfold getMaxForObjectType at h ⊢
  unfold objectTypeUser objectIndexMask
  split at h
  all_goals first | exact absurd rfl h | (refine ⟨by omega, by omega, ?_⟩; omega)

/-- What the functions return. -/
inductive Status where
  | success
  | error
  | invalidId
  | incorrectObjState
  | objectInUse
  | nameNotFound
  | nameTaken
  | noFreeIds
  | notImplemented
  /-- any other code an event handler comes up with -/
  | user (code : Int)
  deriving DecidableEq

/-- `OS_lock_mode_t` -/
inductive LockMode where
  | none
  | global
  | refcount
  | exclusive
  | reserved
  deriving DecidableEq

/-- The modes in which a successful call leaves the table locked. -/
def LockMode.keepsLock : LockMode → Bool
  | .global => true
  | .reserved => true
  | _ => false

/-- `OS_object_token`; its lock key only serves debug messages. -/
structure Token where
  lockMode : LockMode
  objType : Nat
  objIdx : Nat
  objId : ObjId
  deriving DecidableEq

/-- A token that has been cleared. -/
def Token.zero : Token := ⟨.none, objectTypeUndefined, 0, objectIdUndefined⟩

/-- `OS_common_record` -/
structure Record where
  nameEntry : Option (List Char)
  activeId : ObjId
  creator : ObjId
  refcount : BitVec 16
  deriving DecidableEq

/-- The records of the objects of one type, and the last ID issued for it. -/
structure Table where
  records : Nat → Record
  lastIdIssued : ObjId

namespace Table

/-- A record is changed. -/
def modifyRecord (T : Table) (i : Nat) (f : Record → Record) : Table :=
  { T with records := Function.update T.records i (f (T.records i)) }

/-- The ID in a record is overwritten. -/
def setId (T : Table) (i : Nat) (id : ObjId) : Table :=
  T.modifyRecord i fun r => { r with activeId := id }

@[simp] theorem modifyRecord_self (T : Table) (i : Nat) (f : Record → Record) :
    (T.modifyRecord i f).records i = f (T.records i) := by
  simp [modifyRecord]

theorem modifyRecord_of_ne (T : Table) {i j : Nat} (f : Record → Record) (h : j ≠ i) :
    (T.modifyRecord i f).records j = T.records j := by
  simp [modifyRecord, h]

/-- What a change to a record leaves alone. -/
theorem modifyRecord_field {γ : Type} (g : Record → γ) {i : Nat} {f : Record → Record}
    (hf : ∀ r, g (f r) = g r) (T : Table) (j : Nat) :
    g ((T.modifyRecord i f).records j) = g (T.records j) := by
  by_cases hj : j = i
  · rw [hj, T.modifyRecord_self, hf]
  · rw [T.modifyRecord_of_ne _ hj]

@[simp] theorem setId_self (T : Table) (i : Nat) (id : ObjId) :
    (T.setId i id).records i = { T.records i with activeId := id } := by
  simp [setId]

theorem setId_of_ne (T : Table) {i j : Nat} (id : ObjId) (h : j ≠ i) :
    (T.setId i id).records j = T.records j :=
  T.modifyRecord_of_ne _ h

@[simp] theorem setId_setId (T : Table) (i : Nat) (id id' : ObjId) :
    (T.setId i id).setId i id' = T.setId i id' := by
  simp [setId, modifyRecord]

/-- The ID that a record has. -/
theorem setId_eq_self {T : Table} {i : Nat} {id : ObjId} (h : (T.records i).activeId = id) :
    T.setId i id = T := by
  subst h
  simp [setId, modifyRecord]

end Table

/-! ## Working on one table -/

/-- What a pass of the loop of `OS_ObjectIdConvertToken` comes to. -/
inductive Pass where
  | matched (expected : ObjId) (T : Table)
  | refused
  | contended (expected : ObjId) (T : Table)

/-- A pass of the loop of `OS_ObjectIdConvertToken`, with the ID that is expected in the
record. For exclusive use the ID is overwritten at once, and from then on that is the one to
expect. -/
def convertPass (token : Token) (expected : ObjId) (T : Table) : Pass :=
  let obj := T.records token.objIdx
  if obj.activeId = expected then
    if token.lockMode = .exclusive then
      if obj.refcount = 0 then .matched objectIdReserved (T.setId token.objIdx objectIdReserved)
      else .contended objectIdReserved (T.setId token.objIdx objectIdReserved)
    else .matched expected T
  else if token.lockMode = .none ∨ obj.activeId ≠ objectIdReserved then .refused
  else .contended expected T

/-- The ID that `OS_ObjectIdConvertToken` starts to look for. -/
def expectedId (token : Token) : ObjId :=
  if token.lockMode = .reserved then objectIdReserved else token.objId

/-- The record is in use by one more token. -/
def addReference (token : Token) (T : Table) : Table :=
  if token.lockMode = .none then T
  else T.modifyRecord token.objIdx fun obj => { obj with refcount := obj.refcount + 1 }

/-- When the conversion fails, an ID that was overwritten is put back. -/
def restoreId (token : Token) (expected : ObjId) (T : Table) : Table :=
  if token.lockMode = .exclusive ∧ expected = objectIdReserved then
    T.setId token.objIdx token.objId
  else T

/-- `OS_ObjectIdFindNextMatch`. The index counts on from the one in the token, which is
`0xFFFFFFFF` at first. -/
def findNextMatch (objCount : Nat) (matchFunc : Nat → Record → Bool) (T : Table)
    (token : Token) : Status × Token :=
  let start := (token.objIdx + 1) % 2 ^ 32
  match (List.range' start (objCount - start)).find? fun i =>
      objectIdDefined (T.records i).activeId && matchFunc i (T.records i) with
  | some i => (.success, { token with objIdx := i, objId := (T.records i).activeId })
  | none => (.nameNotFound, { token with objIdx := max start objCount, objId := objectIdUndefined })

/-- `OS_ObjectNameMatch` -/
def objectNameMatch (name : List Char) (_ : Nat) (obj : Record) : Bool := obj.nameEntry == some name

/-- An object has the name already; there is no such check without a name. -/
def nameIsTaken (objCount : Nat) (name : Option (List Char)) (T : Table) (token : Token) : Bool :=
  match name with
  | some name => (findNextMatch objCount (objectNameMatch name) T token).1 == .success
  | none => false

/-- The loop of `OS_ObjectIdFindNextFree`: the serial number and the index of a free record. -/
def findFreeLoop (maxId : Nat) (T : Table) : Nat → Nat → Option (Nat × Nat)
  | 0, _ => none
  | n + 1, serial =>
    let localId := (serial + 1) % maxId
    let serial' := if objectIndexMask ≤ serial + 1 then localId else serial + 1
    if objectIdDefined (T.records localId).activeId then findFreeLoop maxId T n serial'
    else some (serial', localId)

/-- `OS_ObjectIdFindNextFree`; `self` is the ID of the calling task. -/
def findNextFree (maxId : Nat) (self : ObjId) (T : Table) (token : Token) :
    Status × Token × Table :=
  match findFreeLoop maxId T maxId (objectIdToSerialNumber T.lastIdIssued) with
  | some (serial, localId) =>
    let objId := objectIdCompose token.objType serial
    (.success, { token with objIdx := localId, objId := objId },
      { records := Function.update T.records localId ⟨none, objId, self, 0⟩
        lastIdIssued := objId })
  | none =>
    (if maxId = 0 then .notImplemented else .noFreeIds,
      { token with objIdx := 2 ^ 32 - 1, objId := objectIdUndefined }, T)

/-- The changes `OS_ObjectIdTransactionFinish` makes to a record. -/
def finishRecord (token : Token) (finalId : Option ObjId) (T : Table) : Table :=
  T.modifyRecord token.objIdx fun obj =>
    { obj with
      refcount := if obj.refcount = 0 then 0 else obj.refcount - 1
      activeId :=
        match finalId with
        | some id => id
        | none => if token.lockMode = .exclusive then token.objId else obj.activeId }

/-! ## Locks -/

/-- What must not happen. -/
inductive Fault where
  /-- a task locks a table that it has locked -/
  | deadlock (objType : Nat)
  /-- a task unlocks a table that it has not locked -/
  | notLocked (objType : Nat)

/-- The tables of all types, which of their locks the caller holds, and how often it has
acquired and released one. -/
structure OsState where
  tables : Nat → Table
  held : Nat → Bool
  acquired : Nat
  released : Nat

/-- Programs that change the state and may stop with a fault. -/
abbrev OsM (α : Type) := StateT OsState (Except Fault) α

/-- `OS_SharedGlobalVars.GlobalState` -/
inductive GlobalState where
  | none
  | init
  | shutdown
  deriving DecidableEq

/-- `OS_Event_t`, as far as it comes from here. -/
inductive OsEvent where
  | resourceAllocated
  | resourceCreated
  | resourceDeleted

/-- What a call depends on besides the tables: the state of the system, who calls, what the
other tasks do to a table while the caller waits for the `n`th time, and the application's
event handler. -/
structure Caller where
  globalState : GlobalState
  self : ObjId
  others : Nat → Table → Table
  eventHandler : OsEvent → ObjId → Status

/-- The table of a type is replaced. -/
def setTable (ty : Nat) (T : Table) : OsM Unit :=
  modify fun s => { s with tables := Function.update s.tables ty T }

/-- `OS_Lock_Global` -/
def lockGlobal (token : Token) : OsM Unit := do
  let s ← get
  if token.objType < objectTypeUser ∧ token.lockMode ≠ .none then
    if s.held token.objType then throw (.deadlock token.objType)
    else modify fun s =>
      { s with
        held := Function.update s.held token.objType true
        acquired := s.acquired + 1 }
  else pure ()

/-- `OS_Unlock_Global` -/
def unlockGlobal (token : Token) : OsM Unit := do
  let s ← get
  if token.objType < objectTypeUser ∧ token.lockMode ≠ .none then
    if s.held token.objType then modify fun s =>
      { s with
        held := Function.update s.held token.objType false
        released := s.released + 1 }
    else throw (.notLocked token.objType)
  else pure ()

/-- `OS_WaitForStateChange`: the lock is released and acquired again, and in between other
tasks may change the table. -/
def waitForStateChange (c : Caller) (token : Token) (attempts : Nat) : OsM Unit := do
  unlockGlobal token
  modify fun s =>
    { s with
      tables := Function.update s.tables token.objType (c.others attempts (s.tables token.objType)) }
  lockGlobal token

/-! ## Transactions -/

variable (cfg : OsConfig) (c : Caller)

/-- `OS_ObjectIdTransactionInit` -/
def transactionInit (lockMode : LockMode) (idtype : Nat) : OsM (Status × Token) :=
  if c.globalState = .none then pure (.error, .zero)
  else if c.globalState = .shutdown ∧ lockMode ≠ .exclusive then pure (.incorrectObjState, .zero)
  else if cfg.getMaxForObjectType idtype = 0 then pure (.invalidId, .zero)
  else do
    let token : Token := ⟨lockMode, idtype, 2 ^ 32 - 1, objectIdUndefined⟩
    lockGlobal token
    pure (.success, token)

/-- `OS_ObjectIdTransactionCancel` -/
def transactionCancel (token : Token) : OsM Token := do
  unlockGlobal token
  pure { token with lockMode := .none }

/-- The loop of `OS_ObjectIdConvertToken`, with the number of passes that are left; five
are made at most, and there is no wait after the last. -/
def convertLoop (token : Token) : Nat → ObjId → OsM (Status × ObjId)
  | 0, expected => pure (.objectInUse, expected)
  | n + 1, expected => do
    let s ← get
    match convertPass token expected (s.tables token.objType) with
    | .matched expected' T => do
      setTable token.objType T
      pure (.success, expected')
    | .refused => pure (.invalidId, expected)
    | .contended expected' T => do
      setTable token.objType T
      if n ≠ 0 then waitForStateChange c token (5 - n) else pure ()
      convertLoop token n expected'

/-- `OS_ObjectIdConvertToken` -/
def convertToken (token : Token) : OsM Status :=
  if !objectIdIsValid token.objId then pure .incorrectObjState
  else do
    let (status, expected) ← convertLoop c token 5 (expectedId token)
    let s ← get
    if status = .success then do
      setTable token.objType (addReference token (s.tables token.objType))
      if token.lockMode = .refcount ∨ token.lockMode = .exclusive then unlockGlobal token else pure ()
    else setTable token.objType (restoreId token expected (s.tables token.objType))
    pure status

/-- `OS_ObjectIdToArrayIndex` -/
def objectIdToArrayIndex (idtype : Nat) (id : ObjId) : Option Nat :=
  if idtype ≠ objectTypeUndefined ∧ objectIdToType id ≠ idtype then none
  else if cfg.getMaxForObjectType (objectIdToType id) = 0 then none
  else some (objectIdToSerialNumber id % cfg.getMaxForObjectType (objectIdToType id))

/-- `OS_ObjectIdGetById` -/
def getById (lockMode : LockMode) (idtype : Nat) (id : ObjId) : OsM (Status × Token) := do
  let (status, token) ← transactionInit cfg c lockMode idtype
  if status ≠ .success then pure (status, token)
  else
    match objectIdToArrayIndex cfg idtype id with
    | none => do
      let token ← transactionCancel token
      pure (.invalidId, token)
    | some idx => do
      let token := { token with objIdx := idx, objId := id }
      let status ← convertToken c token
      if status ≠ .success then do
        let token ← transactionCancel token
        pure (status, token)
      else pure (status, token)

/-- `OS_ObjectIdGetBySearch`. What `OS_ObjectIdTransactionInit` returns is not looked at, and
a transaction whose conversion fails is not cancelled. -/
def getBySearch (lockMode : LockMode) (idtype : Nat) (matchFunc : Nat → Record → Bool) :
    OsM (Status × Token) := do
  let (_, token) ← transactionInit cfg c lockMode idtype
  let s ← get
  let (status, token) := findNextMatch (cfg.getMaxForObjectType token.objType) matchFunc
    (s.tables token.objType) token
  if status = .success then do
    let status ← convertToken c token
    pure (status, token)
  else do
    let token ← transactionCancel token
    pure (status, token)

/-- `OS_ObjectIdGetByName` -/
def getByName (lockMode : LockMode) (idtype : Nat) (name : List Char) : OsM (Status × Token) :=
  getBySearch cfg c lockMode idtype (objectNameMatch name)

/-- `OS_ObjectIdTransactionFinish` -/
def transactionFinish (token : Token) (finalId : Option ObjId) : OsM Token :=
  if token.lockMode = .none then pure token
  else do
    if token.lockMode = .exclusive ∨ token.lockMode = .refcount then lockGlobal token else pure ()
    modify fun s =>
      { s with
        tables := Function.update s.tables token.objType
          (finishRecord token finalId (s.tables token.objType)) }
    unlockGlobal token
    pure { token with lockMode := .none }

/-- `OS_ObjectIdRelease` -/
def release (token : Token) : OsM Token := transactionFinish token none

/-- `OS_ObjectIdFinalizeNew`. What the event handler returns is not looked at. -/
def finalizeNew (operationStatus : Status) (token : Token) : OsM Status := do
  let _ ← transactionFinish token
    (some (if operationStatus = .success then token.objId else objectIdUndefined))
  pure operationStatus

/-- `OS_ObjectIdFinalizeDelete` -/
def finalizeDelete (operationStatus : Status) (token : Token) : OsM Status := do
  let _ ← transactionFinish token
    (some (if operationStatus = .success then objectIdUndefined else token.objId))
  pure operationStatus

/-- The part of `OS_ObjectIdAllocateNew` after a record has been found free. -/
def allocateFound (token : Token) : OsM (Status × Token) := do
  let status := c.eventHandler .resourceAllocated token.objId
  let status ← if status = .success then convertToken c token else pure status
  if status ≠ .success then do
    let status ← finalizeNew status token
    pure (status, token)
  else pure (status, token)

/-- `OS_ObjectIdAllocateNew` with the table locked: a name that is in use is refused, and a
free record is looked for. -/
def allocateLocked (name : Option (List Char)) (token : Token) : OsM (Status × Token) := do
  let s ← get
  if nameIsTaken (cfg.getMaxForObjectType token.objType) name (s.tables token.objType) token then do
    let token ← transactionCancel token
    pure (.nameTaken, token)
  else
    match findNextFree (cfg.getMaxForObjectType token.objType) c.self (s.tables token.objType)
        token with
    | (.success, token, T) => do
      setTable token.objType T
      allocateFound c token
    | (status, token, _) => do
      let token ← transactionCancel token
      pure (status, token)

/-- `OS_ObjectIdAllocateNew` -/
def allocateNew (idtype : Nat) (name : Option (List Char)) : OsM (Status × Token) :=
  if c.globalState = .shutdown then pure (.incorrectObjState, .zero)
  else do
    let (status, token) ← transactionInit cfg c .exclusive idtype
    if status ≠ .success then pure (status, token) else allocateLocked cfg c name token

end CfsEds.Osal
