import CfsEds.Osal.LockBalance
import CfsEds.Lib.RefCount

/-!
# Tasks that share an object table

The functions of `osapi-idmap.c` as steps of tasks that work on the table of one type. What
a function does between taking the lock of the table and giving it back is one step, as
nobody else is let in; a task that waits in `OS_WaitForStateChange` is in phase `waiting`, and
its next pass is a step of its own (`wake`). A token in mode `GLOBAL` keeps the lock, so that
others are blocked until it is released. `OS_OBJECT_INIT` writes the name of a new object
without the lock (`initName`). Every token is counted as one task; a task that has
several tokens appears several times.

`OS_TaskExit` ends a task with a token in mode `GLOBAL`; tokens in mode `REFCOUNT` are never
taken for tasks.

`Reservations` is the invariant behind exclusive use: whoever has overwritten an ID, to use
the record or while waiting for it, is the only one, and the ID is `OS_OBJECT_ID_RESERVED`.
-/

namespace CfsEds.Osal

open CfsEds.Lib.RefCount List Function Option

variable {n : Nat} {expected' : ObjId} {finalId : Option ObjId}

/-- `OS_OBJECT_TYPE_OS_TASK` -/
def objectTypeTask : Nat := 1

/-- What a task is doing. -/
inductive Phase where
  | idle
  /-- in `OS_WaitForStateChange`, with the ID it expects, the passes it has left, and whether
  it came here through a search -/
  | waiting (token : Token) (expected : ObjId) (passes : Nat) (search : Bool)
  | holds (token : Token)
  /-- between `OS_ObjectIdAllocateNew` and `OS_ObjectIdFinalizeNew`, with the name that was
  looked for -/
  | creating (token : Token) (name : Option (List Char))
  /-- it has locked the table and does not give it back -/
  | stuck
  deriving DecidableEq

instance : Inhabited Phase := ⟨.idle⟩

namespace Phase

/-- The token that the task has. -/
def token? : Phase → Option Token
  | .holds token => some token
  | .creating token _ => some token
  | _ => none

/-- The number of tokens for a record. -/
def tokensOn (i : Nat) (p : Phase) : Nat :=
  match p.token? with
  | some token => if token.objIdx = i then 1 else 0
  | none => 0

/-- The task has exclusive use of a record. -/
def ExclusiveOn (i : Nat) (p : Phase) : Prop :=
  ∃ token, p.token? = some token ∧ token.lockMode = .exclusive ∧ token.objIdx = i

/-- The task has overwritten the ID of a record, for exclusive use of it or on the way there. -/
def Reserves (i : Nat) (p : Phase) : Prop :=
  p.ExclusiveOn i ∨ ∃ token passes search, p = .waiting token objectIdReserved passes search ∧
    token.lockMode = .exclusive ∧ token.objIdx = i

end Phase

/-- The tasks and the table of one type; `lock` is the task that keeps the table locked. -/
structure Sys where
  table : Table
  lock : Option Nat
  tasks : List Phase

namespace Sys

/-- What a task is doing. -/
def phase (s : Sys) (a : Nat) : Phase := s.tasks.getD a default

/-- The state after a step of a task. -/
def next (s : Sys) (a : Nat) (p : Phase) (T : Table) (lock : Option Nat) : Sys :=
  ⟨T, lock, s.tasks.modify a fun _ => p⟩

/-- The number of tokens for a record. -/
def tokens (s : Sys) (i : Nat) : Nat := tally (Phase.tokensOn i) s.tasks

/-- The ID in a record. -/
def activeId (s : Sys) (i : Nat) : ObjId := (s.table.records i).activeId

/-- All tables are cleared by `OS_ObjectIdInit`. -/
def init (n : Nat) : Sys :=
  ⟨⟨fun _ => ⟨none, objectIdUndefined, objectIdUndefined, 0⟩, objectIdUndefined⟩, none,
    List.replicate n .idle⟩

end Sys

/-- What comes of a step. -/
inductive Outcome where
  /-- the call returns with a token -/
  | token
  /-- the call returns an error -/
  | failed (status : Status)
  /-- the task waits for a change -/
  | waits
  /-- the call returns -/
  | done
  /-- the call does not return any more -/
  | blocked
  deriving DecidableEq

/-- The calls of the tasks. -/
inductive Event where
  | getById (a : Nat) (mode : LockMode) (id : ObjId)
  | getBySearch (a : Nat) (mode : LockMode) (matchFunc : Nat → Record → Bool)
  | wake (a : Nat)
  | release (a : Nat)
  | finalizeDelete (a : Nat) (status : Status)
  | allocateNew (a : Nat) (name : Option (List Char)) (self : ObjId)
      (handler : OsEvent → ObjId → Status)
  | initName (a : Nat) (name : List Char)
  | finalizeNew (a : Nat) (status : Status)

/-- The task of an event. -/
def Event.task : Event → Nat
  | .getById a _ _ => a
  | .getBySearch a _ _ => a
  | .wake a => a
  | .release a => a
  | .finalizeDelete a _ => a
  | .allocateNew a _ _ _ => a
  | .initName a _ => a
  | .finalizeNew a _ => a

section Steps

variable (cfg : OsConfig) (ty : Nat)

/-- A conversion that fails: the token is cancelled, but not after a search. -/
def giveUp (s : Sys) (a : Nat) (token : Token) (search : Bool) (status : Status) (expected : ObjId)
    (T : Table) : Outcome × Sys :=
  (.failed status, s.next a (if search then .stuck else .idle) (restoreId token expected T)
    (if search then some a else none))

/-- A pass of `OS_ObjectIdConvertToken`, with the passes left after it. -/
def attempt (s : Sys) (a : Nat) (token : Token) (search : Bool) (passes : Nat) (expected : ObjId) :
    Outcome × Sys :=
  match convertPass token expected s.table with
  | .matched _ T =>
    (.token, s.next a (.holds token) (addReference token T)
      (if token.lockMode.keepsLock then some a else none))
  | .refused => giveUp s a token search .invalidId expected s.table
  | .contended expected' T =>
    if passes = 0 then giveUp s a token search .objectInUse expected' T
    else (.waits, s.next a (.waiting token expected' passes search) T none)

/-- The modes that the calls ask for. -/
def modeUsed (mode : LockMode) : Bool :=
  mode == .global || mode == .exclusive || (mode == .refcount && ty != objectTypeTask)

/-- A token may be given back: its task has the lock, or can get it. -/
def mayFinish (s : Sys) (a : Nat) (token : Token) : Bool :=
  if token.lockMode.keepsLock then s.lock == some a else s.lock == none

/-- The end of `OS_ObjectIdAllocateNew`, when a free record has been found. A refusal by the
event handler leads to a lock of the table that is locked. -/
def allocateStep (s : Sys) (a : Nat) (name : Option (List Char)) (handler : OsEvent → ObjId → Status)
    (token : Token) (T : Table) : Outcome × Sys :=
  match handler .resourceAllocated token.objId, convertPass token (expectedId token) T with
  | .success, .matched _ T' =>
    (.token, s.next a (.creating token name) (addReference token T') none)
  | _, _ => (.blocked, s.next a .stuck T (some a))

/-- One step; `none` if the task cannot take it now. -/
def step (s : Sys) : Event → Option (Outcome × Sys)
  | .getById a mode id =>
    if s.lock = none ∧ a < s.tasks.length ∧ s.phase a = .idle ∧ modeUsed ty mode = true then
      match objectIdToArrayIndex cfg ty id with
      | none => some (.failed .invalidId, s)
      | some idx =>
        if objectIdIsValid id then some (attempt s a ⟨mode, ty, idx, id⟩ false 4 id)
        else some (.failed .incorrectObjState, s)
    else none
  | .getBySearch a mode matchFunc =>
    if s.lock = none ∧ a < s.tasks.length ∧ s.phase a = .idle ∧ modeUsed ty mode = true then
      match findNextMatch (cfg.getMaxForObjectType ty) matchFunc s.table (initToken mode ty) with
      | (.success, token) =>
        if objectIdIsValid token.objId then some (attempt s a token true 4 token.objId)
        else some (.failed .incorrectObjState, s.next a .stuck s.table (some a))
      | (status, _) => some (.failed status, s)
    else none
  | .wake a =>
    match s.phase a with
    | .waiting token expected (passes + 1) search =>
      if s.lock = none ∧ a < s.tasks.length then some (attempt s a token search passes expected)
      else none
    | _ => none
  | .release a =>
    match s.phase a with
    | .holds token =>
      if mayFinish s a token ∧ a < s.tasks.length then
        some (.done, s.next a .idle (finishRecord token none s.table) none)
      else none
    | _ => none
  | .finalizeDelete a status =>
    match s.phase a with
    | .holds token =>
      if mayFinish s a token ∧ a < s.tasks.length ∧
          (token.lockMode = .exclusive ∨ token.lockMode = .global ∧ ty = objectTypeTask) then
        some (.done, s.next a .idle (finishRecord token
          (some (if status = .success then objectIdUndefined else token.objId)) s.table) none)
      else none
    | _ => none
  | .allocateNew a name self handler =>
    if s.lock = none ∧ a < s.tasks.length ∧ s.phase a = .idle then
      if nameIsTaken (cfg.getMaxForObjectType ty) name s.table (initToken .exclusive ty) then
        some (.failed .nameTaken, s)
      else
        match findNextFree (cfg.getMaxForObjectType ty) self s.table (initToken .exclusive ty) with
        | (.success, token, T) => some (allocateStep s a name handler token T)
        | (status, _, _) => some (.failed status, s)
    else none
  | .initName a name =>
    match s.phase a with
    | .creating token _ =>
      some (.done, { s with table := s.table.modifyRecord token.objIdx fun obj =>
        { obj with nameEntry := some name } })
    | _ => none
  | .finalizeNew a status =>
    match s.phase a with
    | .creating token _ =>
      if s.lock = none ∧ a < s.tasks.length then
        some (.done, s.next a .idle (finishRecord token
          (some (if status = .success then token.objId else objectIdUndefined)) s.table) none)
      else none
    | _ => none

/-- Runs of `n` tasks from the cleared table on. -/
inductive Run (n : Nat) : List Event → Sys → Prop where
  | start : Run n [] (Sys.init n)
  | next {es : List Event} {e : Event} {s s' : Sys} {o : Outcome} (hrun : Run n es s)
      (hstep : step cfg ty s e = some (o, s')) : Run n (es ++ [e]) s'

/-- The state after some events, if they can happen one after the other. -/
def exec (s : Sys) : List Event → Option Sys
  | [] => some s
  | e :: es => (step cfg ty s e).bind fun r => exec r.2 es

variable {cfg ty}

theorem Run.exec {es es' : List Event} {s s' : Sys} (h : Run cfg ty n es s)
    (hexec : exec cfg ty s es' = some s') : Run cfg ty n (es ++ es') s' := by
  induction es' generalizing es s with
  | nil =>
    cases hexec
    rw [append_nil]
    exact h
  | cons e es' ih =>
    obtain ⟨⟨o, s₁⟩, hstep, hrest⟩ := bind_eq_some_iff.mp hexec
    rw [append_cons]
    exact ih (.next h hstep) hrest

end Steps

/-! ## What a step can do -/

section Moves

variable {cfg : OsConfig} {ty : Nat} {s s' : Sys} {e : Event} {a b : Nat} {o : Outcome}
  {token : Token} {expected : ObjId}

/-- A task is about to make a pass for a token: the first one, or one after a wait. -/
def Asks (cfg : OsConfig) (ty : Nat) (s : Sys) (a : Nat) (token : Token) (expected : ObjId)
    (search : Bool) : Prop :=
  (s.phase a = .idle ∧ expected = token.objId ∧ objectIdIsValid token.objId = true ∧
      modeUsed ty token.lockMode = true ∧
      (objectIdToArrayIndex cfg ty token.objId = some token.objIdx ∨
        s.activeId token.objIdx = token.objId)) ∨
    ∃ passes, s.phase a = .waiting token expected passes search

/-- A token that can be given back, and the ID that the record may be left with. -/
def Finishes (ty : Nat) (s : Sys) (a : Nat) (token : Token) (finalId : Option ObjId) : Prop :=
  (s.phase a = .holds token ∧ finalId = none) ∨
    (s.phase a = .holds token ∧ (finalId = some objectIdUndefined ∨ finalId = some token.objId) ∧
      (token.lockMode = .exclusive ∨ token.lockMode = .global ∧ ty = objectTypeTask)) ∨
    ((∃ name, s.phase a = .creating token name) ∧ s.lock = none ∧
      (finalId = some objectIdUndefined ∨ finalId = some token.objId))

/-- What a task can do to the state in a step. -/
inductive Move (cfg : OsConfig) (ty : Nat) (s : Sys) (e : Event) (a : Nat) : Outcome → Sys → Prop where
  | refused (status : Status) (hidle : s.phase a = .idle) : Move cfg ty s e a (.failed status) s
  | granted {token : Token} {expected expected' : ObjId} {T : Table} (search : Bool)
      (hfree : s.lock = none) (hasks : Asks cfg ty s a token expected search)
      (hpass : convertPass token expected s.table = .matched expected' T) :
      Move cfg ty s e a .token (s.next a (.holds token) (addReference token T)
        (if token.lockMode.keepsLock then some a else none))
  | waits {token : Token} {expected expected' : ObjId} {T : Table} (passes : Nat) (search : Bool)
      (hfree : s.lock = none) (hasks : Asks cfg ty s a token expected search)
      (hpass : convertPass token expected s.table = .contended expected' T) :
      Move cfg ty s e a .waits (s.next a (.waiting token expected' passes search) T none)
  | fails {token : Token} {expected expected' : ObjId} {T : Table} (status : Status)
      (search : Bool) (hfree : s.lock = none) (hasks : Asks cfg ty s a token expected search)
      (hpass : convertPass token expected s.table = .refused ∧ expected' = expected ∧ T = s.table ∨
        convertPass token expected s.table = .contended expected' T) :
      Move cfg ty s e a (.failed status) (giveUp s a token search status expected' T).2
  | leaks (status : Status) (hfree : s.lock = none) (hidle : s.phase a = .idle) :
      Move cfg ty s e a (.failed status) (s.next a .stuck s.table (some a))
  | finishes {token : Token} {finalId : Option ObjId}
      (hlock : s.lock = none ∨ s.lock = some a) (hfinishes : Finishes ty s a token finalId) :
      Move cfg ty s e a .done (s.next a .idle (finishRecord token finalId s.table) none)
  | creates {i : Nat} {objId self : ObjId} {handler : OsEvent → ObjId → Status}
      (name : Option (List Char)) (hevent : e = .allocateNew a name self handler)
      (hfree : s.lock = none) (hidle : s.phase a = .idle) (hi : i < cfg.getMaxForObjectType ty)
      (hundefined : objectIdDefined (s.activeId i) = false) (hvalid : objectIdIsValid objId = true)
      (hindex : objectIdToArrayIndex cfg ty objId = some i)
      (hname : nameIsTaken (cfg.getMaxForObjectType ty) name s.table (initToken .exclusive ty) =
        false) :
      Move cfg ty s e a .token (s.next a (.creating ⟨.exclusive, ty, i, objId⟩ name)
        ⟨Function.update s.table.records i ⟨none, objectIdReserved, self, 1⟩, objId⟩ none)
  | blocks {i : Nat} {objId self : ObjId} (hfree : s.lock = none) (hidle : s.phase a = .idle)
      (hi : i < cfg.getMaxForObjectType ty) (hundefined : objectIdDefined (s.activeId i) = false)
      (hvalid : objectIdIsValid objId = true)
      (hindex : objectIdToArrayIndex cfg ty objId = some i) :
      Move cfg ty s e a .blocked (s.next a .stuck
        ⟨Function.update s.table.records i ⟨none, objId, self, 0⟩, objId⟩ (some a))
  | names {token : Token} {check : Option (List Char)} (name : List Char)
      (hevent : e = .initName a name) (hcreating : s.phase a = .creating token check) :
      Move cfg ty s e a .done { s with table := s.table.modifyRecord token.objIdx fun obj =>
        { obj with nameEntry := some name } }

theorem attempt_moves (hfree : s.lock = none) {search : Bool} {passes : Nat}
    (hasks : Asks cfg ty s a token expected search) (h : attempt s a token search passes expected = (o, s')) :
    Move cfg ty s e a o s' := by
  unfold attempt at h
  cases hpass : convertPass token expected s.table with
  | matched =>
    rw [hpass] at h
    cases h
    exact .granted search hfree hasks hpass
  | refused =>
    rw [hpass] at h
    cases h
    exact .fails .invalidId search hfree hasks (.inl ⟨hpass, rfl, rfl⟩)
  | contended =>
    rw [hpass] at h
    dsimp only at h
    split at h
    · cases h
      exact .fails .objectInUse search hfree hasks (.inr hpass)
    · cases h
      exact .waits passes search hfree hasks hpass

theorem mayFinish_lock (h : mayFinish s a token = true) : s.lock = none ∨ s.lock = some a := by
  unfold mayFinish at h
  split at h
  · exact .inr (by simpa using h)
  · exact .inl (by simpa using h)

/-- A new record is converted for exclusive use at once. -/
theorem convertPass_new {T : Table} {i : Nat} {objId : ObjId}
    (hid : (T.records i).activeId = objId) (hcount : (T.records i).refcount = 0) :
    convertPass ⟨.exclusive, ty, i, objId⟩ objId T =
      .matched objectIdReserved (T.setId i objectIdReserved) := by
  simp [convertPass, hid, hcount]

theorem allocateStep_moves {i : Nat} {objId self : ObjId} {name : Option (List Char)}
    {handler : OsEvent → ObjId → Status} (hevent : e = .allocateNew a name self handler)
    (hfree : s.lock = none) (hidle : s.phase a = .idle) (hi : i < cfg.getMaxForObjectType ty)
    (hundefined : objectIdDefined (s.activeId i) = false)
    (hvalid : objectIdIsValid objId = true) (hindex : objectIdToArrayIndex cfg ty objId = some i)
    (hname : nameIsTaken (cfg.getMaxForObjectType ty) name s.table (initToken .exclusive ty) =
      false)
    (h : allocateStep s a name handler ⟨.exclusive, ty, i, objId⟩
      ⟨update s.table.records i ⟨none, objId, self, 0⟩, objId⟩ = (o, s')) :
    Move cfg ty s e a o s' := by
  have hnew : convertPass ⟨.exclusive, ty, i, objId⟩ objId
      ⟨update s.table.records i ⟨none, objId, self, 0⟩, objId⟩ = .matched objectIdReserved
          ⟨update s.table.records i ⟨none, objectIdReserved, self, 0⟩, objId⟩ := by
    rw [convertPass_new (by simp) (by simp)]
    simp [Table.setId, Table.modifyRecord]
  unfold allocateStep at h
  rw [show expectedId ⟨.exclusive, ty, i, objId⟩ = objId from rfl, hnew] at h
  cases hhandler : handler .resourceAllocated objId with
  | success =>
    rw [hhandler] at h
    have hmove := Move.creates name hevent hfree hidle hi hundefined hvalid hindex hname
    cases h
    simpa [addReference, Table.modifyRecord] using hmove
  | _ =>
    rw [hhandler] at h
    cases h
    exact .blocks hfree hidle hi hundefined hvalid hindex

theorem lt_length_of_phase (h : s.phase a ≠ .idle) : a < s.tasks.length := by
  by_contra hge
  exact h (getD_eq_default _ _ (by omega))

/-- Every step is one of the moves. -/
theorem step_moves (h : step cfg ty s e = some (o, s')) :
    e.task < s.tasks.length ∧ Move cfg ty s e e.task o s' := by
  cases e with
  | getById a mode id =>
    obtain ⟨⟨hfree, ha, hidle, hmode⟩, h⟩ := ite_none_right_eq_some.mp h
    refine ⟨ha, ?_⟩
    cases hidx : objectIdToArrayIndex cfg ty id with
    | none =>
      rw [hidx] at h
      cases h
      exact .refused _ hidle
    | some idx =>
      rw [hidx] at h
      dsimp only at h
      split at h
      · rename_i hvalid
        have hasks : Asks cfg ty s a ⟨mode, ty, idx, id⟩ id false :=
          .inl ⟨hidle, rfl, hvalid, hmode, .inl hidx⟩
        exact attempt_moves hfree hasks (Option.some.inj h)
      · cases h
        exact .refused _ hidle
  | getBySearch a mode matchFunc =>
    obtain ⟨⟨hfree, ha, hidle, hmode⟩, h⟩ := ite_none_right_eq_some.mp h
    refine ⟨ha, ?_⟩
    cases hfind : findNextMatch (cfg.getMaxForObjectType ty) matchFunc s.table
        (initToken mode ty) with
    | mk status token =>
      rw [hfind] at h
      cases status with
      | success =>
        have hfound := findNextMatch_success (congrArg Prod.fst hfind)
        rw [hfind] at hfound
        dsimp only at h
        split at h
        · rename_i hvalid
          have hmode' : modeUsed ty token.lockMode = true := by rw [hfound.1]; exact hmode
          have hasks : Asks cfg ty s a token token.objId true :=
            .inl ⟨hidle, rfl, hvalid, hmode', .inr hfound.2.2.1.symm⟩
          exact attempt_moves hfree hasks (Option.some.inj h)
        · cases h
          exact .leaks _ hfree hidle
      | _ =>
        cases h
        exact .refused _ hidle
  | wake a =>
    rw [step] at h
    split at h
    · rename_i token expected passes search hphase
      split_ifs at h with hguard
      have hasks : Asks cfg ty s a token expected search := .inr ⟨_, hphase⟩
      exact ⟨hguard.2, attempt_moves hguard.1 hasks (Option.some.inj h)⟩
    · cases h
  | release a =>
    rw [step] at h
    split at h
    · rename_i token hphase
      split_ifs at h with hguard
      cases h
      exact ⟨hguard.2, .finishes (mayFinish_lock hguard.1) (.inl ⟨hphase, rfl⟩)⟩
    · cases h
  | finalizeDelete a status =>
    rw [step] at h
    split at h
    · rename_i token hphase
      obtain ⟨hguard, h⟩ := ite_none_right_eq_some.mp h
      cases h
      refine ⟨hguard.2.1, .finishes (mayFinish_lock hguard.1)
        (.inr (.inl ⟨hphase, ?_, hguard.2.2⟩))⟩
      split
      · exact .inl rfl
      · exact .inr rfl
    · cases h
  | allocateNew a name self handler =>
    obtain ⟨⟨hfree, ha, hidle⟩, h⟩ := ite_none_right_eq_some.mp h
    refine ⟨ha, ?_⟩
    split at h
    · cases h
      exact .refused _ hidle
    rename_i hname
    cases hfind : findNextFree (cfg.getMaxForObjectType ty) self s.table
        (initToken .exclusive ty) with
    | mk status found =>
      rw [hfind] at h
      cases status with
      | success =>
        obtain ⟨serial, i, hi, hundefined, hvalid, hindex, rfl⟩ := findNextFree_issued hfind rfl
        exact allocateStep_moves rfl hfree hidle hi hundefined hvalid hindex
          (Bool.eq_false_of_not_eq_true hname) (Option.some.inj h)
      | _ =>
        cases h
        exact .refused _ hidle
  | initName a name =>
    rw [step] at h
    split at h
    · rename_i token check hphase
      cases h
      refine ⟨lt_length_of_phase ?_, .names name rfl hphase⟩
      intro hidle
      cases hphase.symm.trans hidle
    · cases h
  | finalizeNew a status =>
    rw [step] at h
    split at h
    · rename_i token name hphase
      obtain ⟨hguard, h⟩ := ite_none_right_eq_some.mp h
      cases h
      refine ⟨hguard.2, .finishes (.inl hguard.1) (.inr (.inr ⟨⟨_, hphase⟩, hguard.1, ?_⟩))⟩
      split
      · exact .inr rfl
      · exact .inl rfl
    · cases h

end Moves

/-! ## Reservations -/

/-- What is known about every token: its ID is that of an object and leads to its record. -/
structure Token.Usable (cfg : OsConfig) (ty : Nat) (token : Token) : Prop where
  valid : objectIdIsValid token.objId = true
  mode : modeUsed ty token.lockMode = true
  index : objectIdToArrayIndex cfg ty token.objId = some token.objIdx

/-- What is known about the token of a task. -/
def Phase.Proper (cfg : OsConfig) (ty : Nat) : Phase → Prop
  | .waiting token expected _ _ => token.Usable cfg ty ∧
      (expected = token.objId ∨ expected = objectIdReserved ∧ token.lockMode = .exclusive)
  | .holds token => token.Usable cfg ty
  | .creating token _ => token.Usable cfg ty ∧ token.lockMode = .exclusive
  | _ => True

/-- Whoever has overwritten an ID is the only one, and nobody writes to the record of a
token that keeps the table locked. Every ID is in the record that it leads to. -/
structure Reservations (cfg : OsConfig) (ty : Nat) (s : Sys) : Prop where
  reserved : ∀ a i, (s.phase a).Reserves i → s.activeId i = objectIdReserved
  unique : ∀ a b i, (s.phase a).Reserves i → (s.phase b).Reserves i → a = b
  proper : ∀ a, (s.phase a).Proper cfg ty
  locked : ∀ a token, s.phase a = .holds token → token.lockMode = .global →
    s.lock = some a ∧ s.activeId token.objIdx = token.objId
  placed : ∀ i, objectIdIsValid (s.activeId i) = true →
    objectIdToArrayIndex cfg ty (s.activeId i) = some i

section Reservations

variable {cfg : OsConfig} {ty : Nat} {s s' : Sys} {e : Event} {a b i : Nat} {o : Outcome}
  {token : Token} {expected : ObjId} {search : Bool} {p : Phase} {T : Table} {l : Option Nat}

theorem phase_next_self (ha : a < s.tasks.length) : (s.next a p T l).phase a = p :=
  getD_modify_self ha

theorem phase_next_of_ne (h : b ≠ a) : (s.next a p T l).phase b = s.phase b := getD_modify_of_ne h

theorem phase_init (n a : Nat) : (Sys.init n).phase a = .idle :=
  (getD_eq_getElem?_getD ..).trans (getElem?_getD_replicate_default_eq _ n a)

theorem ne_reserved_of_isValid {id : ObjId} (h : objectIdIsValid id = true) :
    id ≠ objectIdReserved := by
  rintro rfl
  cases h

theorem not_reserves_idle : ¬Phase.idle.Reserves i := by
  rintro (⟨token, h, -⟩ | ⟨token, passes, search, h, -⟩) <;> cases h

theorem not_reserves_stuck : ¬Phase.stuck.Reserves i := by
  rintro (⟨token, h, -⟩ | ⟨token, passes, search, h, -⟩) <;> cases h

theorem reserves_of_token (h : p.token? = some token) :
    p.Reserves i ↔ token.lockMode = .exclusive ∧ token.objIdx = i := by
  constructor
  · rintro (⟨token', h', hexclusive⟩ | ⟨token', passes, search, rfl, -⟩)
    · exact Option.some.inj (h'.symm.trans h) ▸ hexclusive
    · cases h
  · exact fun hexclusive => .inl ⟨token, h, hexclusive⟩

theorem reserves_holds :
    (Phase.holds token).Reserves i ↔ token.lockMode = .exclusive ∧ token.objIdx = i :=
  reserves_of_token rfl

theorem reserves_creating {name : Option (List Char)} :
    (Phase.creating token name).Reserves i ↔ token.lockMode = .exclusive ∧ token.objIdx = i :=
  reserves_of_token rfl

theorem reserves_waiting {passes : Nat} : (Phase.waiting token expected passes search).Reserves i ↔
      expected = objectIdReserved ∧ token.lockMode = .exclusive ∧ token.objIdx = i := by
  constructor
  · rintro (⟨token', h, -⟩ | ⟨token', passes', search', h, hexclusive⟩)
    · cases h
    · cases h
      exact ⟨rfl, hexclusive⟩
  · rintro ⟨rfl, h⟩
    exact .inr ⟨token, passes, search, rfl, h⟩

namespace Reservations

theorem init (n : Nat) : Reservations cfg ty (Sys.init n) := by
  have hidle := phase_init n
  refine ⟨?_, ?_, ?_, ?_, ?_⟩
  · intro a i h
    rw [hidle] at h
    exact absurd h not_reserves_idle
  · intro a b i h
    rw [hidle] at h
    exact absurd h not_reserves_idle
  · intro a
    rw [hidle]
    trivial
  · intro a token h
    rw [hidle] at h
    cases h
  · intro i h
    change objectIdIsValid objectIdUndefined = true at h
    cases h

/-- Nobody has overwritten an ID that is not the reserved one. -/
theorem none_of_ne (h : Reservations cfg ty s) (hid : s.activeId i ≠ objectIdReserved) (b : Nat) :
    ¬(s.phase b).Reserves i :=
  fun hb => hid (h.reserved b i hb)

/-- A step of the task `a` that concerns the record `i`. -/
theorem next (h : Reservations cfg ty s) (ha : a < s.tasks.length)
    (hlock : s.lock = none ∨ s.lock = some a) (i : Nat)
    (hsame : ∀ j, j ≠ i → (T.records j).activeId = s.activeId j)
    (hothers : (T.records i).activeId = s.activeId i ∨ ∀ b, b ≠ a → ¬(s.phase b).Reserves i)
    (hself : ∀ j, p.Reserves j → j = i ∧ (T.records i).activeId = objectIdReserved ∧
      ∀ b, b ≠ a → ¬(s.phase b).Reserves i)
    (hproper : p.Proper cfg ty)
    (hlocked : ∀ token, p = .holds token → token.lockMode = .global →
      l = some a ∧ (T.records token.objIdx).activeId = token.objId)
    (hplaced : objectIdIsValid (T.records i).activeId = true →
      objectIdToArrayIndex cfg ty (T.records i).activeId = some i) :
    Reservations cfg ty (s.next a p T l) := by
  refine ⟨?_, ?_, ?_, ?_, ?_⟩
  · intro b j hb
    by_cases hba : b = a
    · subst hba
      rw [phase_next_self ha] at hb
      obtain ⟨rfl, hid, -⟩ := hself j hb
      exact hid
    rw [phase_next_of_ne hba] at hb
    by_cases hji : j = i
    · subst hji
      rcases hothers with hid | hnone
      · exact hid.trans (h.reserved b j hb)
      · exact absurd hb (hnone b hba)
    · exact (hsame j hji).trans (h.reserved b j hb)
  · intro b c j hb hc
    by_cases hba : b = a
    · by_cases hca : c = a
      · rw [hba, hca]
      rw [hba, phase_next_self ha] at hb
      rw [phase_next_of_ne hca] at hc
      obtain ⟨rfl, -, hnone⟩ := hself j hb
      exact absurd hc (hnone c hca)
    rw [phase_next_of_ne hba] at hb
    by_cases hca : c = a
    · rw [hca, phase_next_self ha] at hc
      obtain ⟨rfl, -, hnone⟩ := hself j hc
      exact absurd hb (hnone b hba)
    · rw [phase_next_of_ne hca] at hc
      exact h.unique b c j hb hc
  · intro b
    by_cases hba : b = a
    · rw [hba, phase_next_self ha]
      exact hproper
    · rw [phase_next_of_ne hba]
      exact h.proper b
  · intro b token hb hglobal
    by_cases hba : b = a
    · rw [hba, phase_next_self ha] at hb
      rw [hba]
      exact hlocked token hb hglobal
    -- the lock would be that of another task
    rw [phase_next_of_ne hba] at hb
    have hheld := (h.locked b token hb hglobal).1
    rcases hlock with hfree | hmine
    · rw [hfree] at hheld
      cases hheld
    · rw [hmine] at hheld
      exact absurd (Option.some.inj hheld).symm hba
  · intro j
    by_cases hji : j = i
    · rw [hji]
      exact hplaced
    intro hvalid
    change objectIdIsValid (T.records j).activeId = true at hvalid
    change objectIdToArrayIndex cfg ty (T.records j).activeId = some j
    rw [hsame j hji] at hvalid ⊢
    exact h.placed j hvalid

end Reservations

/-- The passes that end the wait. -/
theorem convertPass_matched (h : convertPass token expected s.table = .matched expected' T) :
    s.activeId token.objIdx = expected ∧ (token.lockMode ≠ .exclusive ∧ T = s.table ∨
        token.lockMode = .exclusive ∧ (s.table.records token.objIdx).refcount = 0 ∧
          T = s.table.setId token.objIdx objectIdReserved) := by
  unfold convertPass at h
  dsimp only at h
  split at h
  · rename_i hid
    refine ⟨hid, ?_⟩
    split at h
    · rename_i hmode
      split at h
      · rename_i hcount
        cases h
        exact .inr ⟨hmode, hcount, rfl⟩
      · cases h
    · rename_i hmode
      cases h
      exact .inl ⟨hmode, rfl⟩
  · split at h <;> cases h

theorem activeId_addReference (token : Token) (T : Table) (j : Nat) :
    ((addReference token T).records j).activeId = (T.records j).activeId := by
  unfold addReference
  split
  · rfl
  · exact T.modifyRecord_field Record.activeId (fun _ => by rfl) j

namespace Reservations

section

variable (h : Reservations cfg ty s)
include h

/-- Before a pass the token is a usable one. -/
theorem asks (hasks : Asks cfg ty s a token expected search) : token.Usable cfg ty ∧
      (expected = token.objId ∨ expected = objectIdReserved ∧ token.lockMode = .exclusive ∧
        (s.phase a).Reserves token.objIdx) := by
  rcases hasks with ⟨-, hexpected, hvalid, hmode, hindex⟩ | ⟨passes, hphase⟩
  · refine ⟨⟨hvalid, hmode, ?_⟩, .inl hexpected⟩
    rcases hindex with hindex | hid
    · exact hindex
    · have hplaced := h.placed token.objIdx
      rw [hid] at hplaced
      exact hplaced hvalid
  have hproper := h.proper a
  rw [hphase] at hproper
  refine ⟨hproper.1, hproper.2.imp_right ?_⟩
  rintro ⟨hreserved, hmode⟩
  refine ⟨hreserved, hmode, ?_⟩
  rw [hphase, reserves_waiting]
  exact ⟨hreserved, hmode, rfl⟩

/-- If the ID is the one expected, no other task has overwritten it. -/
theorem asks_alone (hasks : Asks cfg ty s a token expected search)
    (hid : s.activeId token.objIdx = expected) (b : Nat) (hb : b ≠ a) :
    ¬(s.phase b).Reserves token.objIdx := by
  obtain ⟨husable, hexpected⟩ := h.asks hasks
  rcases hexpected with rfl | ⟨-, -, hmine⟩
  · refine h.none_of_ne ?_ b
    rw [hid]
    exact ne_reserved_of_isValid husable.valid
  · exact fun hreserves => hb (h.unique b a _ hreserves hmine)

/-- A task that gets its token. -/
theorem granted (ha : a < s.tasks.length) (hfree : s.lock = none)
    (hasks : Asks cfg ty s a token expected search)
    (hpass : convertPass token expected s.table = .matched expected' T) :
    Reservations cfg ty (s.next a (.holds token) (addReference token T)
      (if token.lockMode.keepsLock then some a else none)) := by
  obtain ⟨hid, hcase⟩ := convertPass_matched hpass
  obtain ⟨husable, hexpected⟩ := h.asks hasks
  have halone := h.asks_alone hasks hid
  rcases hcase with ⟨hshared, rfl⟩ | ⟨hexclusive, -, rfl⟩
  · -- the ID is that of the token, and stays
    have hidToken : s.activeId token.objIdx = token.objId := by
      rcases hexpected with rfl | ⟨-, hexclusive, -⟩
      · exact hid
      · exact absurd hexclusive hshared
    refine h.next ha (.inl hfree) token.objIdx ?_ (.inr halone) ?_ husable ?_ ?_
    · exact fun j _ => activeId_addReference token s.table j
    · intro j hj
      exact absurd (reserves_holds.mp hj).1 hshared
    · intro token' htoken hglobal
      cases htoken
      refine ⟨by rw [hglobal]; rfl, ?_⟩
      rw [activeId_addReference]
      exact hidToken
    · rw [activeId_addReference]
      exact h.placed token.objIdx
  · refine h.next ha (.inl hfree) token.objIdx ?_ (.inr halone) ?_ husable ?_ ?_
    · intro j hj
      rw [activeId_addReference, s.table.setId_of_ne _ hj]
      rfl
    · intro j hj
      refine ⟨(reserves_holds.mp hj).2.symm, ?_, halone⟩
      rw [activeId_addReference, s.table.setId_self]
    · intro token' htoken hglobal
      cases htoken
      rw [hexclusive] at hglobal
      cases hglobal
    · rw [activeId_addReference, s.table.setId_self]
      exact fun hvalid => absurd rfl (ne_reserved_of_isValid hvalid)

/-- A task that goes on waiting. -/
theorem waits (ha : a < s.tasks.length) (hfree : s.lock = none)
    (hasks : Asks cfg ty s a token expected search)
    (hpass : convertPass token expected s.table = .contended expected' T) (passes : Nat) :
    Reservations cfg ty (s.next a (.waiting token expected' passes search) T none) := by
  obtain ⟨husable, hexpected⟩ := h.asks hasks
  rcases convertPass_contended hpass with
    ⟨hexclusive, hid, -, rfl, rfl⟩ | ⟨hid, hne, rfl, rfl⟩
  · -- the ID is overwritten now, or has been before
    have halone := h.asks_alone hasks hid
    refine h.next ha (.inl hfree) token.objIdx ?_ (.inr halone) ?_
      ⟨husable, .inr ⟨rfl, hexclusive⟩⟩ nofun ?_
    · intro j hj
      rw [s.table.setId_of_ne _ hj]
      rfl
    · intro j hj
      refine ⟨(reserves_waiting.mp hj).2.2.symm, ?_, halone⟩
      rw [s.table.setId_self]
    · rw [s.table.setId_self]
      exact fun hvalid => absurd rfl (ne_reserved_of_isValid hvalid)
  · refine h.next ha (.inl hfree) token.objIdx (fun _ _ => rfl) (.inl rfl) ?_
      ⟨husable, .inl ?_⟩ nofun (h.placed token.objIdx)
    · intro j hj
      exact absurd (reserves_waiting.mp hj).1 hne
    · exact hexpected.resolve_right fun hreserved => hne hreserved.1

/-- What a failed attempt leaves of the table. If the ID of the token had been overwritten,
it is put back; otherwise nothing is changed. -/
theorem fails_table (hasks : Asks cfg ty s a token expected search)
    (hpass : convertPass token expected s.table = .refused ∧ expected' = expected ∧ T = s.table ∨
      convertPass token expected s.table = .contended expected' T) :
    (¬(s.phase a).Reserves token.objIdx ∧ restoreId token expected' T = s.table) ∨
      ((s.phase a).Reserves token.objIdx ∧
        restoreId token expected' T = s.table.setId token.objIdx token.objId) := by
  obtain ⟨husable, hexpected⟩ := h.asks hasks
  have hne := ne_reserved_of_isValid husable.valid
  rcases hexpected with rfl | ⟨rfl, hexclusive, hmine⟩
  · -- the ID had not been overwritten before this pass
    refine .inl ⟨?_, ?_⟩
    · rcases hasks with ⟨hidle, -⟩ | ⟨passes, hphase⟩
      · rw [hidle]
        exact not_reserves_idle
      · rw [hphase, reserves_waiting]
        exact fun hreserved => hne hreserved.1
    · rcases hpass with ⟨-, rfl, rfl⟩ | hpass
      · exact if_neg fun hreserved => hne hreserved.2
      rcases convertPass_contended hpass with
        ⟨hexclusive, hid, -, rfl, rfl⟩ | ⟨-, -, rfl, rfl⟩
      · rw [restoreId, if_pos ⟨hexclusive, rfl⟩, Table.setId_setId]
        exact Table.setId_eq_self hid
      · exact if_neg fun hreserved => hne hreserved.2
  · refine .inr ⟨hmine, ?_⟩
    rcases hpass with ⟨hpass, rfl, rfl⟩ | hpass
    · exact if_pos ⟨hexclusive, rfl⟩
    · rcases convertPass_contended hpass with ⟨-, -, -, rfl, rfl⟩ | ⟨-, hne', -⟩
      · rw [restoreId, if_pos ⟨hexclusive, rfl⟩, Table.setId_setId]
      · exact absurd rfl hne'

/-- A task that gives up. -/
theorem fails (ha : a < s.tasks.length) (hfree : s.lock = none)
    (hasks : Asks cfg ty s a token expected search) {expected' : ObjId}
    (hpass : convertPass token expected s.table = .refused ∧ expected' = expected ∧ T = s.table ∨
      convertPass token expected s.table = .contended expected' T) (status : Status) :
    Reservations cfg ty (giveUp s a token search status expected' T).2 := by
  have hphase : ∀ j, ¬(if search then Phase.stuck else Phase.idle).Reserves j := by
    intro j
    cases search
    · exact not_reserves_idle
    · exact not_reserves_stuck
  have hproper : (if search then Phase.stuck else Phase.idle).Proper cfg ty := by
    cases search <;> trivial
  refine h.next ha (.inl hfree) token.objIdx ?_ ?_ (fun j hj => absurd hj (hphase j)) hproper ?_ ?_
  · intro j hj
    rcases h.fails_table hasks hpass with ⟨-, htable⟩ | ⟨-, htable⟩
    · rw [htable]
      rfl
    · rw [htable, s.table.setId_of_ne _ hj]
      rfl
  · rcases h.fails_table hasks hpass with ⟨-, htable⟩ | ⟨hmine, -⟩
    · rw [htable]
      exact .inl rfl
    · exact .inr fun b hb hreserves => hb (h.unique b a _ hreserves hmine)
  · intro token' htoken
    cases search <;> cases htoken
  · rcases h.fails_table hasks hpass with ⟨-, htable⟩ | ⟨-, htable⟩
    · rw [htable]
      exact h.placed token.objIdx
    · rw [htable, s.table.setId_self]
      exact fun _ => (h.asks hasks).1.index

/-- Whose token is given back, and what is known about it. -/
theorem finishes_phase (hfinishes : Finishes ty s a token finalId) :
    (s.phase a).token? = some token ∧ token.Usable cfg ty := by
  have hproper := h.proper a
  rcases hfinishes with ⟨hphase, -⟩ | ⟨hphase, -⟩ | ⟨⟨name, hphase⟩, -⟩
  · rw [hphase] at hproper ⊢
    exact ⟨rfl, hproper⟩
  · rw [hphase] at hproper ⊢
    exact ⟨rfl, hproper⟩
  · rw [hphase] at hproper ⊢
    exact ⟨rfl, hproper.1⟩

/-- A record whose ID is written at the end was reserved by this task, or not by anybody. -/
theorem finishes_alone (hfinishes : Finishes ty s a token finalId) :
    ((finishRecord token finalId s.table).records token.objIdx).activeId = s.activeId token.objIdx ∨
      ∀ b, b ≠ a → ¬(s.phase b).Reserves token.objIdx := by
  obtain ⟨htoken, husable⟩ := h.finishes_phase hfinishes
  by_cases hexclusive : token.lockMode = .exclusive
  · have hmine : (s.phase a).Reserves token.objIdx := .inl ⟨token, htoken, hexclusive, rfl⟩
    exact .inr fun b hb hreserves => hb (h.unique b a _ hreserves hmine)
  rcases hfinishes with ⟨hphase, rfl⟩ | ⟨hphase, -, hmode⟩ | ⟨⟨name, hphase⟩, -⟩
  · refine .inl ?_
    rw [finishRecord, Table.modifyRecord_self]
    exact if_neg hexclusive
  · -- the table has been locked since the token was given out
    have hglobal := (hmode.resolve_left hexclusive).1
    refine .inr fun b _ => h.none_of_ne ?_ b
    rw [(h.locked a token hphase hglobal).2]
    exact ne_reserved_of_isValid husable.valid
  · have hproper := h.proper a
    rw [hphase] at hproper
    exact absurd hproper.2 hexclusive

end

/-- What a record is left with. -/
theorem finishRecord_activeId (hfinishes : Finishes ty s a token finalId) :
    ((finishRecord token finalId s.table).records token.objIdx).activeId = s.activeId token.objIdx ∨
      ((finishRecord token finalId s.table).records token.objIdx).activeId = token.objId ∨
      ((finishRecord token finalId s.table).records token.objIdx).activeId = objectIdUndefined := by
  rw [finishRecord, Table.modifyRecord_self]
  have hfinal : finalId = none ∨ finalId = some objectIdUndefined ∨ finalId = some token.objId := by
    rcases hfinishes with ⟨-, hnone⟩ | ⟨-, hsome, -⟩ | ⟨-, -, hsome⟩
    · exact .inl hnone
    · exact .inr hsome
    · exact .inr hsome
  rcases hfinal with rfl | rfl | rfl
  · dsimp only
    split
    · exact .inr (.inl rfl)
    · exact .inl rfl
  · exact .inr (.inr rfl)
  · exact .inr (.inl rfl)

/-- A task that gives its token back. -/
theorem finishes (h : Reservations cfg ty s) (ha : a < s.tasks.length)
    (hlock : s.lock = none ∨ s.lock = some a) (hfinishes : Finishes ty s a token finalId) :
    Reservations cfg ty (s.next a .idle (finishRecord token finalId s.table) none) := by
  refine h.next ha hlock token.objIdx ?_ (h.finishes_alone hfinishes)
    (fun j hj => absurd hj not_reserves_idle) trivial nofun ?_
  · intro j hj
    rw [finishRecord, s.table.modifyRecord_of_ne _ hj]
    rfl
  · rcases finishRecord_activeId hfinishes with hid | hid | hid
    · rw [hid]
      exact h.placed token.objIdx
    · rw [hid]
      exact fun _ => (h.finishes_phase hfinishes).2.index
    · rw [hid]
      exact fun hvalid => absurd hvalid (by decide)

/-- A record that is free has not been reserved. -/
theorem none_of_undefined (h : Reservations cfg ty s) (hundefined : objectIdDefined (s.activeId i) = false)
    (b : Nat) : ¬(s.phase b).Reserves i := by
  refine h.none_of_ne ?_ b
  intro hid
  rw [hid] at hundefined
  cases hundefined

/-- The invariant is kept by every move. -/
theorem move (h : Reservations cfg ty s) (ha : a < s.tasks.length) (hmove : Move cfg ty s e a o s') :
    Reservations cfg ty s' := by
  cases hmove with
  | refused => exact h
  | granted search hfree hasks hpass => exact h.granted ha hfree hasks hpass
  | waits passes search hfree hasks hpass => exact h.waits ha hfree hasks hpass passes
  | fails status search hfree hasks hpass => exact h.fails ha hfree hasks hpass status
  | leaks status hfree =>
    exact h.next ha (.inl hfree) 0 (fun _ _ => rfl) (.inl rfl)
      (fun j hj => absurd hj not_reserves_stuck) trivial nofun (h.placed 0)
  | finishes hlock hfinishes => exact h.finishes ha hlock hfinishes
  | @creates i objId self handler name hevent hfree hidle hi hundefined hvalid hindex =>
    have halone := h.none_of_undefined hundefined
    refine h.next ha (.inl hfree) i ?_ (.inr fun b _ => halone b) ?_ ⟨⟨hvalid, rfl, hindex⟩, rfl⟩
      nofun ?_
    · intro j hj
      dsimp only
      rw [update_of_ne hj]
      rfl
    · intro j hj
      refine ⟨(reserves_creating.mp hj).2.symm, ?_, fun b _ => halone b⟩
      dsimp only
      rw [update_self]
    · dsimp only
      rw [update_self]
      exact fun hreserved => absurd rfl (ne_reserved_of_isValid hreserved)
  | @blocks i objId self hfree hidle hi hundefined hvalid hindex =>
    refine h.next ha (.inl hfree) i ?_ (.inr fun b _ => h.none_of_undefined hundefined b)
      (fun j hj => absurd hj not_reserves_stuck) trivial nofun ?_
    · intro j hj
      dsimp only
      rw [update_of_ne hj]
      rfl
    · dsimp only
      rw [update_self]
      exact fun _ => hindex
  | @names token check name =>
    have hid : ∀ j, ((s.table.modifyRecord token.objIdx fun obj =>
        { obj with nameEntry := some name }).records j).activeId = s.activeId j :=
      s.table.modifyRecord_field Record.activeId fun _ => by rfl
    refine ⟨fun b j hb => (hid j).trans (h.reserved b j hb), h.unique, h.proper,
      fun b token' hb hglobal => ⟨(h.locked b token' hb hglobal).1,
        (hid _).trans (h.locked b token' hb hglobal).2⟩, ?_⟩
    intro j
    unfold Sys.activeId
    rw [hid j]
    exact h.placed j

/-- The invariant holds in every run. -/
theorem run {es : List Event} (hrun : Run cfg ty n es s) : Reservations cfg ty s := by
  induction hrun with
  | start => exact init n
  | next _ hstep ih =>
    obtain ⟨ha, hmove⟩ := step_moves hstep
    exact ih.move ha hmove

end Reservations

/-- However many tasks there are and however many of them want exclusive use of a record, at
most one has overwritten its ID, which is the reserved one then, and no two records have the
ID of the same object. -/
theorem reservations_exclusive {es : List Event} (hrun : Run cfg ty n es s) :
    (∀ a b i, (s.phase a).Reserves i → (s.phase b).Reserves i →
      a = b ∧ s.activeId i = objectIdReserved) ∧
    ∀ i j, objectIdIsValid (s.activeId i) = true → s.activeId i = s.activeId j → i = j := by
  have h := Reservations.run hrun
  refine ⟨fun a b i ha hb => ⟨h.unique a b i ha hb, h.reserved a i ha⟩, fun i j hi hij => ?_⟩
  have hplaced := h.placed i hi
  rw [hij] at hi hplaced
  exact Option.some.inj (hplaced.symm.trans (h.placed j hi))

end Reservations

/-- A stream that task 0 uses, and that tasks 1 and 2 want to close. -/
def twoClosers : List Event :=
  [.allocateNew 0 none 0 fun _ _ => .success, .finalizeNew 0 .success,
    .getById 0 .refcount 0x00060001, .getById 1 .exclusive 0x00060001,
    .getById 2 .exclusive 0x00060001]

/-- Both wait. Task 1 has overwritten the ID, and nobody else has. -/
theorem reservations_exclusive_stream : ∃ s, Run smallOs 6 3 twoClosers s ∧
    s.phase 1 = .waiting ⟨.exclusive, 6, 1, 0x00060001⟩ objectIdReserved 4 false ∧
    s.phase 2 = .waiting ⟨.exclusive, 6, 1, 0x00060001⟩ 0x00060001 4 false ∧
    ∀ b, (s.phase b).Reserves 1 → b = 1 ∧ s.activeId 1 = objectIdReserved := by
  have hexec : (exec smallOs 6 (Sys.init 3) twoClosers).map (fun s => (s.phase 1, s.phase 2)) =
      some (.waiting ⟨.exclusive, 6, 1, 0x00060001⟩ objectIdReserved 4 false,
        .waiting ⟨.exclusive, 6, 1, 0x00060001⟩ 0x00060001 4 false) := by
    decide +kernel
  obtain ⟨s, hs, hphases⟩ := map_eq_some_iff.mp hexec
  obtain ⟨hone, htwo⟩ := Prod.mk.inj hphases
  have hrun : Run smallOs 6 3 twoClosers s := Run.start.exec hs
  have hreserves : (s.phase 1).Reserves 1 := by
    rw [hone]
    exact .inr ⟨_, _, _, rfl, rfl, rfl⟩
  exact ⟨s, hrun, hone, htwo, fun b hb => (reservations_exclusive hrun).1 b 1 1 hb hreserves⟩

/-! ## The first object -/

/-- The token for the object that is created first in a small system. -/
def userToken (ty : Nat) (mode : LockMode) : Token := ⟨mode, ty, 1, objectIdCompose ty 1⟩

/-- A mutex or a stream is created in a cleared table. -/
theorem allocate_first {ty : Nat} (hty : ty = 5 ∨ ty = 6) (hn : 0 < n)
    (check : Option (List Char)) :
    ∃ T, step smallOs ty (Sys.init n) (.allocateNew 0 check 0 fun _ _ => .success) =
        some (.token, (Sys.init n).next 0 (.creating (userToken ty .exclusive) check) T none) ∧
      T.records 1 = ⟨none, objectIdReserved, 0, 1⟩ := by
  have hlen : 0 < (Sys.init n).tasks.length := by
    rw [Sys.init, length_replicate]
    exact hn
  have hname : ¬nameIsTaken (smallOs.getMaxForObjectType ty) check (Sys.init n).table
      (initToken .exclusive ty) = true := by
    rcases hty with rfl | rfl <;> cases check <;> nofun
  have hfind : findNextFree (smallOs.getMaxForObjectType ty) 0 (Sys.init n).table
      (initToken .exclusive ty) = (.success, userToken ty .exclusive,
        ⟨update (Sys.init n).table.records 1 ⟨none, objectIdCompose ty 1, 0, 0⟩,
          objectIdCompose ty 1⟩) := by
    have hloop : findFreeLoop (smallOs.getMaxForObjectType ty) (Sys.init n).table
        (smallOs.getMaxForObjectType ty)
        (objectIdToSerialNumber (Sys.init n).table.lastIdIssued) = some (1, 1) := by
      rcases hty with rfl | rfl <;> rfl
    rw [findNextFree, hloop]
    rfl
  rw [step, if_pos ⟨rfl, hlen, phase_init n 0⟩, if_neg hname, hfind]
  dsimp only
  rcases hty with rfl | rfl
  · exact ⟨_, rfl, rfl⟩
  · exact ⟨_, rfl, rfl⟩

end CfsEds.Osal
