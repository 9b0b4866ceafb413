import CfsEds.Osal.IdMap

/-!
# The lock of an object table

Who asks for a token and gets an error must not hold the lock of the table, and must leave
the record as it was; who gets the token holds the lock in the modes that keep it.
`LockTo ty b` says that the caller holds the lock of type `ty` if `b` now, with every lock
acquired on the way released but for that one. `Settled` is the contract of a call.

`OS_ObjectIdGetById` meets it. `OS_ObjectIdGetBySearch` and `OS_ObjectIdGetByName` do not
give the lock back when the record they have found cannot be had (`SearchLeaks`), and
`OS_ObjectIdAllocateNew` locks the table twice when the event handler refuses the new
object (`HandlerRefuses`).
-/

namespace CfsEds.Osal

open CfsEds.Lib.Faults Function

variable {s₁ : OsState} {T T' : Table} {token : Token}

/-! ## Locking and unlocking -/

/-- The caller holds the lock of a type if `b`, and has released any other lock it has
acquired since. Tables of other types are as they were. -/
structure LockTo (ty : Nat) (b : Bool) (s s' : OsState) : Prop where
  held : s'.held = Function.update s.held ty b
  balance : s'.acquired + s.released + (s.held ty).toNat = s'.released + s.acquired + b.toNat
  tables : ∀ u, u ≠ ty → s'.tables u = s.tables u

namespace LockTo

variable {ty : Nat} {b b' : Bool} {s s' s'' : OsState}

theorem refl (ty : Nat) (s : OsState) : LockTo ty (s.held ty) s s where
  held := (update_eq_self ty s.held).symm
  balance := by omega
  tables _ _ := rfl

theorem held_self (h : LockTo ty b s s') : s'.held ty = b := by
  rw [h.held, update_self]

theorem trans (h : LockTo ty b s s') (h' : LockTo ty b' s' s'') : LockTo ty b' s s'' where
  held := by rw [h'.held, h.held, update_idem]
  balance := by
    have h₁ := h.balance
    have h₂ := h'.balance
    rw [h.held_self] at h₂
    omega
  tables u hu := (h'.tables u hu).trans (h.tables u hu)

/-- A change of the table itself. -/
theorem setTable (h : LockTo ty b s s') (T : Table) :
    LockTo ty b s { s' with tables := update s'.tables ty T } where
  held := h.held
  balance := h.balance
  tables u hu := (update_of_ne hu T s'.tables).trans (h.tables u hu)

end LockTo

section Locks

variable {c : Caller} {token : Token} {s : OsState}

theorem lockGlobal_locks (hty : token.objType < objectTypeUser) (hmode : token.lockMode ≠ .none)
    (hfree : s.held token.objType = false) :
    wp (lockGlobal token) (fun _ s' => LockTo token.objType true s s' ∧ s'.tables = s.tables)
      (fun _ => False) s := by
  unfold lockGlobal
  simp only [wp_bind, wp_get]
  rw [if_pos ⟨hty, hmode⟩, if_neg (by simp [hfree])]
  refine ⟨⟨rfl, ?_, fun _ _ => rfl⟩, rfl⟩
  simp only [hfree, Bool.toNat_false, Bool.toNat_true]
  omega

theorem unlockGlobal_unlocks (hty : token.objType < objectTypeUser)
    (hmode : token.lockMode ≠ .none) (hheld : s.held token.objType = true) :
    wp (unlockGlobal token) (fun _ s' => LockTo token.objType false s s' ∧ s'.tables = s.tables)
      (fun _ => False) s := by
  unfold unlockGlobal
  simp only [wp_bind, wp_get]
  rw [if_pos ⟨hty, hmode⟩, if_pos hheld]
  refine ⟨⟨rfl, ?_, fun _ _ => rfl⟩, rfl⟩
  simp only [hheld, Bool.toNat_false, Bool.toNat_true]
  omega

theorem unlockGlobal_none (hmode : token.lockMode = .none) :
    wp (unlockGlobal token) (fun _ s' => s' = s) (fun _ => False) s := by
  unfold unlockGlobal
  simp only [wp_bind, wp_get]
  rw [if_neg (by simp [hmode])]
  rfl

/-- The caller holds the lock again after a wait, and the others have changed the table. -/
theorem waitForStateChange_locks (hty : token.objType < objectTypeUser)
    (hmode : token.lockMode ≠ .none) (hheld : s.held token.objType = true) (attempts : Nat) :
    wp (waitForStateChange c token attempts) (fun _ s' => LockTo token.objType true s s' ∧
      s'.tables token.objType = c.others attempts (s.tables token.objType)) (fun _ => False) s := by
  refine wp_seq (unlockGlobal_unlocks hty hmode hheld) fun _ s₁ h₁ => ?_
  rw [wp_bind, wp_modify]
  have hopen := h₁.1.setTable (c.others attempts (s₁.tables token.objType))
  refine wp_imp (lockGlobal_locks hty hmode hopen.held_self) fun _ s₂ h₂ => ?_
  refine ⟨hopen.trans h₂.1, ?_⟩
  rw [h₂.2, h₁.2]
  exact update_self _ _ _

/-! ## The conversion -/

/-- What `convertLoop` comes to: the status, the ID it has come to expect, and the table. -/
def convertRun (c : Caller) (token : Token) : Nat → ObjId → Table → Status × ObjId × Table
  | 0, expected, T => (.objectInUse, expected, T)
  | n + 1, expected, T =>
    match convertPass token expected T with
    | .matched expected' T' => (.success, expected', T')
    | .refused => (.invalidId, expected, T)
    | .contended expected' T' =>
      convertRun c token n expected' (if n ≠ 0 then c.others (5 - n) T' else T')

/-- Without a lock there is nothing to wait for. -/
theorem convertPass_none (hmode : token.lockMode = .none) (expected : ObjId) (T : Table) :
    convertPass token expected T =
      if (T.records token.objIdx).activeId = expected then .matched expected T else .refused := by
  simp [convertPass, hmode]

/-- The lock a caller has while it converts its token. -/
def Converting (token : Token) (s : OsState) : Prop :=
  token.lockMode ≠ .none → token.objType < objectTypeUser ∧ s.held token.objType = true

theorem convertLoop_run (n : Nat) : ∀ (expected : ObjId) (s : OsState), Converting token s →
    wp (convertLoop c token n expected) (fun r s' =>
      LockTo token.objType (s.held token.objType) s s' ∧
      (r.1, r.2, s'.tables token.objType) =
        convertRun c token n expected (s.tables token.objType)) (fun _ => False) s := by
  induction n with
  | zero => exact fun expected s _ => ⟨.refl _ s, rfl⟩
  | succ n ih =>
    intro expected s hlock
    rw [convertLoop]
    simp only [wp_bind, wp_get, convertRun]
    cases hpass : convertPass token expected (s.tables token.objType) with
    | matched expected' T =>
      exact ⟨(LockTo.refl _ s).setTable T, by simp⟩
    | refused => exact ⟨.refl _ s, rfl⟩
    | contended expected' T =>
      have hmode : token.lockMode ≠ .none := by
        intro hnone
        rw [convertPass_none hnone] at hpass
        split at hpass <;> cases hpass
      obtain ⟨hty, hheld⟩ := hlock hmode
      have hset := (LockTo.refl token.objType s).setTable T
      simp only [setTable, wp_bind, wp_modify]
      by_cases hn : n = 0
      · subst hn
        refine wp_imp (ih expected' _ fun _ => ⟨hty, ?_⟩) fun r s₁ h₁ => ?_
        · rw [hset.held_self, hheld]
        · refine ⟨hset.trans ?_, ?_⟩
          · exact h₁.1
          · rw [h₁.2]
            simp
      simp only [ne_eq, hn, not_false_eq_true, if_true, wp_bind]
      have hheld' : ({ s with tables := update s.tables token.objType T } :
          OsState).held token.objType = true := hheld
      refine wp_imp (waitForStateChange_locks hty hmode hheld' _) fun _ s₁ h₁ => ?_
      have hrelocked := h₁.1.held_self
      refine wp_imp (ih expected' s₁ fun _ => ⟨hty, hrelocked⟩) fun r s₂ h₂ => ?_
      refine ⟨(hset.trans h₁.1).trans ?_, ?_⟩
      · rw [hheld, ← hrelocked]
        exact h₂.1
      · rw [h₂.2, h₁.2]
        simp

/-- The table after a conversion. -/
def convertedTable (c : Caller) (token : Token) (T : Table) : Table :=
  let r := convertRun c token 5 (expectedId token) T
  if r.1 = .success then addReference token r.2.2 else restoreId token r.2.1 r.2.2

/-- The status of a conversion. -/
def convertStatus (c : Caller) (token : Token) (T : Table) : Status :=
  if objectIdIsValid token.objId then (convertRun c token 5 (expectedId token) T).1
  else .incorrectObjState

/-- The lock after a conversion: it is given back if the token stands for itself. -/
def convertKeeps (token : Token) (status : Status) (held : Bool) : Bool :=
  held && !(decide (status = .success) &&
    (token.lockMode == .refcount || token.lockMode == .exclusive))

theorem convertToken_converts (hlock : Converting token s) :
    wp (convertToken c token) (fun status s' =>
      status = convertStatus c token (s.tables token.objType) ∧
      LockTo token.objType (convertKeeps token status (s.held token.objType)) s s' ∧
      s'.tables token.objType = if objectIdIsValid token.objId then
        convertedTable c token (s.tables token.objType) else s.tables token.objType)
      (fun _ => False) s := by
  unfold convertToken
  by_cases hvalid : objectIdIsValid token.objId = true
  · simp only [convertStatus, hvalid]
    refine wp_seq (convertLoop_run 5 _ s hlock) fun r s₁ h₁ => ?_
    obtain ⟨hlock₁, hrun⟩ := h₁
    simp only [wp_bind, wp_get, convertedTable, ← hrun]
    by_cases hok : r.1 = .success
    · simp only [hok, if_true, setTable, wp_bind]
      have hset := hlock₁.setTable (addReference token (s₁.tables token.objType))
      split
      · rename_i hgives
        have hmode : token.lockMode ≠ .none := by
          rcases hgives with hrefcount | hexclusive
          · simp [hrefcount]
          · simp [hexclusive]
        obtain ⟨hty, hheld⟩ := hlock hmode
        have hheld₁ := hset.held_self.trans hheld
        refine wp_seq (unlockGlobal_unlocks hty hmode hheld₁) fun _ s₂ h₂ => ?_
        refine ⟨rfl, ?_, ?_⟩
        · have hopen := hset.trans h₂.1
          rcases hgives with hrefcount | hexclusive
          · simpa [convertKeeps, hrefcount] using hopen
          · simpa [convertKeeps, hexclusive] using hopen
        · rw [h₂.2]
          exact update_self _ _ _
      · rename_i hkept
        rw [not_or] at hkept
        refine ⟨rfl, ?_, update_self _ _ _⟩
        have hkeeps : (token.lockMode == .refcount || token.lockMode == .exclusive) = false := by
          simp [hkept]
        simpa [convertKeeps, hkeeps] using hset
    · simp only [hok, if_false]
      refine ⟨rfl, ?_, update_self _ _ _⟩
      simpa [convertKeeps, hok] using hlock₁.setTable _
  · simp only [convertStatus, hvalid, Bool.false_eq_true]
    refine ⟨rfl, ?_, rfl⟩
    simpa [convertKeeps] using LockTo.refl token.objType s

/-! ## The record -/

/-- The passes and waits of a conversion that has not come to an end: the ID it expects and
the table it finds after `k` waits, and what they are later on. -/
inductive Waited (c : Caller) (token : Token) : Nat → ObjId → Table → ObjId → Table → Prop where
  | now {k : Nat} {e : ObjId} {T : Table} : Waited c token k e T e T
  | later {k : Nat} {e e' e'' : ObjId} {T T' T'' : Table}
      (hpass : convertPass token e T = .contended e' T')
      (h : Waited c token (k + 1) e' (c.others (k + 1) T') e'' T'') : Waited c token k e T e'' T''

/-- The passes that lead to a wait: the record is in use, or it is reserved by another task. -/
theorem convertPass_contended {e e' : ObjId} (h : convertPass token e T = .contended e' T') :
    (token.lockMode = .exclusive ∧ (T.records token.objIdx).activeId = e ∧
        (T.records token.objIdx).refcount ≠ 0 ∧ e' = objectIdReserved ∧
        T' = T.setId token.objIdx objectIdReserved) ∨
      ((T.records token.objIdx).activeId = objectIdReserved ∧ e ≠ objectIdReserved ∧ e' = e ∧
        T' = T) := by
  unfold convertPass at h
  dsimp only at h
  split at h
  · rename_i hid
    split at h
    · rename_i hmode
      split at h
      · cases h
      · rename_i hcount
        cases h
        exact .inl ⟨hmode, hid, hcount, rfl, rfl⟩
    · cases h
  · rename_i hid
    split at h
    · cases h
    rename_i hreserved
    cases h
    simp only [not_or, not_not] at hreserved
    refine .inr ⟨hreserved.2, ?_, rfl, rfl⟩
    rintro rfl
    exact hid hreserved.2

/-- An ID that is overwritten can be put back. -/
theorem restoreId_contended {e e' : ObjId}
    (he : token.lockMode = .exclusive → e = token.objId ∨ e = objectIdReserved)
    (hpass : convertPass token e T = .contended e' T') :
    restoreId token e' T' = restoreId token e T ∧
      (token.lockMode = .exclusive → e' = token.objId ∨ e' = objectIdReserved) := by
  rcases convertPass_contended hpass with ⟨hexclusive, hid, -, rfl, rfl⟩ | ⟨-, -, rfl, rfl⟩
  · refine ⟨?_, fun _ => .inr rfl⟩
    simp only [restoreId, hexclusive, true_and, if_true, Table.setId_setId]
    split_ifs with hreserved
    · rfl
    · rw [(he hexclusive).resolve_right hreserved] at hid
      exact Table.setId_eq_self hid
  · exact ⟨rfl, he⟩

/-- If the others do nothing, the record is as it was once the ID has been put back. -/
theorem Waited.quiet (hquiet : ∀ n T, c.others n T = T) {k : Nat} {e e' : ObjId}
    (h : Waited c token k e T e' T')
    (he : token.lockMode = .exclusive → e = token.objId ∨ e = objectIdReserved) :
    restoreId token e' T' = restoreId token e T := by
  induction h with
  | now => rfl
  | later hpass _ ih =>
    obtain ⟨hrestore, he'⟩ := restoreId_contended he hpass
    rw [ih he', hquiet, hrestore]

theorem restoreId_expectedId (hvalid : objectIdIsValid token.objId = true) (T : Table) :
    restoreId token (expectedId token) T = T := by
  unfold restoreId
  rw [if_neg]
  rintro ⟨hexclusive, hreserved⟩
  rw [expectedId, if_neg (by simp [hexclusive])] at hreserved
  rw [hreserved] at hvalid
  cases hvalid

theorem convertRun_failed (n : Nat) : ∀ {e : ObjId} {T : Table}, n ≤ 4 →
    (token.lockMode = .exclusive → e = token.objId ∨ e = objectIdReserved) →
    (convertRun c token (n + 1) e T).1 ≠ .success → ∃ e' T', Waited c token (4 - n) e T e' T' ∧
      restoreId token (convertRun c token (n + 1) e T).2.1 (convertRun c token (n + 1) e T).2.2 =
        restoreId token e' T' := by
  induction n with
  | zero =>
    intro e T _ he hfails
    refine ⟨e, T, .now, ?_⟩
    rw [convertRun] at hfails ⊢
    split at hfails
    · exact absurd rfl hfails
    · rfl
    · rename_i hpass
      exact (restoreId_contended he hpass).1
  | succ n ih =>
    intro e T hn he hfails
    rw [convertRun] at hfails ⊢
    split at hfails
    · exact absurd rfl hfails
    · exact ⟨e, T, .now, rfl⟩
    rename_i e' T' hpass
    obtain ⟨e₁, T₁, hwaited, hrestore⟩ := ih (by omega) (restoreId_contended he hpass).2 hfails
    refine ⟨e₁, T₁, .later hpass ?_, hrestore⟩
    have hnext : 4 - (n + 1) + 1 = 5 - (n + 1) := by omega
    have hnow : 5 - (n + 1) = 4 - n := by omega
    rw [hnext, hnow]
    rw [hnow] at hwaited
    exact hwaited

/-- What a call that fails leaves of a table: what the others have made of it while the call
waited, with the ID of the record put back if it was overwritten. -/
def Undone (c : Caller) (mode : LockMode) (T T' : Table) : Prop :=
  T' = T ∨ ∃ token e T₁, token.lockMode = mode ∧ objectIdIsValid token.objId = true ∧
    Waited c token 0 (expectedId token) T e T₁ ∧ T' = restoreId token e T₁

theorem expectedId_exclusive :
    token.lockMode = .exclusive → expectedId token = token.objId ∨ expectedId token = objectIdReserved := by
  intro hexclusive
  rw [expectedId, if_neg (by simp [hexclusive])]
  exact .inl rfl

theorem Undone.quiet {mode : LockMode} (h : Undone c mode T T') (hquiet : ∀ n T, c.others n T = T) :
    T' = T := by
  rcases h with rfl | ⟨token, e, T₁, -, hvalid, hwaited, rfl⟩
  · rfl
  · rw [hwaited.quiet hquiet expectedId_exclusive, restoreId_expectedId hvalid]

theorem convertToken_undone (hfails : convertStatus c token T ≠ .success) :
    Undone c token.lockMode T
      (if objectIdIsValid token.objId then convertedTable c token T else T) := by
  split
  · rename_i hvalid
    rw [convertStatus, if_pos hvalid] at hfails
    obtain ⟨e, T₁, hwaited, hrestore⟩ := convertRun_failed 4 le_rfl expectedId_exclusive hfails
    refine .inr ⟨token, e, T₁, rfl, hvalid, hwaited, ?_⟩
    unfold convertedTable
    rw [if_neg hfails]
    exact hrestore
  · exact .inl rfl

end Locks

/-! ## The contract of a call -/

/-- A call for a token in some mode has returned: after an error the caller does not hold the
lock and has changed nothing, after success it holds it in the modes that keep it. -/
structure Settled (c : Caller) (mode : LockMode) (ty : Nat) (s : OsState) (status : Status)
    (s' : OsState) : Prop where
  lock : LockTo ty (decide (status = .success) && mode.keepsLock) s s'
  record : status ≠ .success → Undone c mode (s.tables ty) (s'.tables ty)
  quiet : status ≠ .success → (∀ n T, c.others n T = T) → s'.tables = s.tables

section Calls

variable {cfg : OsConfig} {c : Caller} {mode : LockMode} {ty : Nat} {s : OsState}

theorem settled_of_undone {status : Status} {s' : OsState} (hstatus : status ≠ .success)
    (hlock : LockTo ty false s s') (hundone : Undone c mode (s.tables ty) (s'.tables ty)) :
    Settled c mode ty s status s' where
  lock := by simpa [hstatus] using hlock
  record _ := hundone
  quiet _ hquiet := by
    funext u
    by_cases hu : u = ty
    · subst hu
      exact hundone.quiet hquiet
    · exact hlock.tables u hu

theorem settled_of_same {status : Status} (hfree : s.held ty = false) (hstatus : status ≠ .success) :
    Settled c mode ty s status s := by
  refine settled_of_undone hstatus ?_ (.inl rfl)
  rw [← hfree]
  exact .refl ty s

theorem settled_of_success {status : Status} {s' : OsState} (hstatus : status = .success)
    (hlock : LockTo ty mode.keepsLock s s') : Settled c mode ty s status s' := by
  refine ⟨?_, fun herror => absurd hstatus herror, fun herror => absurd hstatus herror⟩
  simpa [hstatus] using hlock

/-- A transaction can be started. -/
structure InitOk (cfg : OsConfig) (c : Caller) (mode : LockMode) (ty : Nat) : Prop where
  initialized : c.globalState ≠ .none
  running : c.globalState = .shutdown → mode = .exclusive
  supported : cfg.getMaxForObjectType ty ≠ 0

/-- The token of a transaction that has been started. -/
def initToken (mode : LockMode) (ty : Nat) : Token := ⟨mode, ty, 2 ^ 32 - 1, objectIdUndefined⟩

/-- The state in which a transaction has been started: the table is locked unless the mode is
`NONE`. -/
structure Started (mode : LockMode) (ty : Nat) (s s' : OsState) : Prop where
  lock : LockTo ty (mode != .none) s s'
  tables : s'.tables = s.tables

theorem transactionInit_starts (hfree : s.held ty = false) :
    wp (transactionInit cfg c mode ty) (fun r s' =>
      (¬InitOk cfg c mode ty ∧ r.1 ≠ .success ∧ r.2 = .zero ∧ s' = s) ∨
      (InitOk cfg c mode ty ∧ r = (.success, initToken mode ty) ∧ Started mode ty s s'))
      (fun _ => False) s := by
  unfold transactionInit
  split_ifs with hinit hrunning hsupported
  · exact .inl ⟨fun hok => hok.initialized hinit, nofun, rfl, rfl⟩
  · exact .inl ⟨fun hok => hrunning.2 (hok.running hrunning.1), nofun, rfl, rfl⟩
  · exact .inl ⟨fun hok => hok.supported hsupported, nofun, rfl, rfl⟩
  have hok : InitOk cfg c mode ty := by
    refine ⟨hinit, fun hshutdown => ?_, hsupported⟩
    by_contra hmode
    exact hrunning ⟨hshutdown, hmode⟩
  rw [wp_bind]
  by_cases hmode : mode = .none
  · subst hmode
    refine wp_imp (Q := fun _ s' => s' = s) (by simp [lockGlobal]) fun _ s₁ h₁ => ?_
    subst h₁
    refine .inr ⟨hok, rfl, ⟨?_, rfl⟩⟩
    have hrefl := LockTo.refl ty s₁
    rw [hfree] at hrefl
    exact hrefl
  · have hty := (OsConfig.type_of_max hsupported).2.1
    have hlocks : wp (lockGlobal (initToken mode ty)) _ _ s := lockGlobal_locks hty hmode hfree
    refine wp_imp hlocks fun _ s₁ h₁ => ?_
    refine .inr ⟨hok, rfl, ⟨?_, h₁.2⟩⟩
    rw [bne_iff_ne.2 hmode]
    exact h₁.1

/-- A transaction is given up. -/
theorem transactionCancel_unlocks (hty : token.objType < objectTypeUser)
    (hlock : LockTo token.objType (token.lockMode != .none) s s₁) :
    wp (transactionCancel token) (fun _ s' => LockTo token.objType false s s' ∧ s'.tables = s₁.tables)
      (fun _ => False) s₁ := by
  unfold transactionCancel
  rw [wp_bind]
  by_cases hmode : token.lockMode = .none
  · refine wp_imp (unlockGlobal_none hmode) fun _ s₂ h₂ => ?_
    subst h₂
    rw [hmode] at hlock
    exact ⟨hlock, rfl⟩
  have hheld : s₁.held token.objType = true := by
    rw [hlock.held_self]
    simpa using hmode
  refine wp_imp (unlockGlobal_unlocks hty hmode hheld) fun _ s₂ h₂ => ?_
  exact ⟨hlock.trans h₂.1, h₂.2⟩

theorem Started.cancel {status : Status} (h : Started mode ty s s₁) (hty : ty < objectTypeUser)
    (hmode : token.lockMode = mode) (htype : token.objType = ty) (hstatus : status ≠ .success) :
    wp (transactionCancel token) (fun _ s' => Settled c mode ty s status s') (fun _ => False) s₁ := by
  subst hmode htype
  refine wp_imp (transactionCancel_unlocks hty h.lock) fun _ s₂ h₂ => ?_
  refine settled_of_undone hstatus h₂.1 (.inl ?_)
  rw [h₂.2, h.tables]

/-- A conversion that fails leaves the table locked. -/
theorem Started.convert (h : Started mode ty s s₁) (hty : ty < objectTypeUser)
    (hmode : token.lockMode = mode) (htype : token.objType = ty) :
    wp (convertToken c token) (fun status s' =>
      status = convertStatus c token (s.tables ty) ∧
      LockTo ty (if status = .success then mode.keepsLock else mode != .none) s s' ∧
      (status ≠ .success → Undone c mode (s.tables ty) (s'.tables ty))) (fun _ => False) s₁ := by
  subst hmode htype
  have hconverting : Converting token s₁ := by
    intro hne
    refine ⟨hty, ?_⟩
    rw [h.lock.held_self]
    simpa using hne
  refine wp_imp (convertToken_converts hconverting) fun status s₂ h₂ => ?_
  obtain ⟨hstatus, hlock, htable⟩ := h₂
  rw [h.tables] at hstatus htable
  rw [h.lock.held_self] at hlock
  have hkeeps : convertKeeps token status (token.lockMode != .none) =
      if status = .success then token.lockMode.keepsLock else token.lockMode != .none := by
    split_ifs with hsuccess
    · simp only [convertKeeps, hsuccess, decide_true]
      cases token.lockMode <;> rfl
    · simp [convertKeeps, hsuccess]
  refine ⟨hstatus, ?_, fun herror => ?_⟩
  · rw [← hkeeps]
    exact h.lock.trans hlock
  · rw [htable]
    exact convertToken_undone (hstatus ▸ herror)

/-- A call by ID always meets the contract. -/
theorem getById_settled (hfree : s.held ty = false) (id : ObjId) :
    wp (getById cfg c mode ty id) (fun r s' => Settled c mode ty s r.1 s') (fun _ => False) s := by
  refine wp_seq (transactionInit_starts hfree) fun r s₁ h₁ => ?_
  rcases h₁ with ⟨-, hstatus, -, rfl⟩ | ⟨hok, rfl, hstarted⟩
  · dsimp only
    rw [if_pos hstatus]
    exact settled_of_same hfree hstatus
  have hty := (OsConfig.type_of_max hok.supported).2.1
  dsimp only
  rw [if_neg (not_not.2 rfl)]
  split
  · have herror : Status.invalidId ≠ .success := nofun
    exact wp_seq (hstarted.cancel hty rfl rfl herror) fun _ _ h => h
  refine wp_seq (hstarted.convert hty rfl rfl) fun status s₂ h₂ => ?_
  obtain ⟨-, hlock, hundone⟩ := h₂
  split
  · rename_i herror
    -- the lock is still held, and given back here
    rw [if_neg herror] at hlock
    refine wp_seq (transactionCancel_unlocks hty hlock) fun _ s₃ h₃ => ?_
    refine settled_of_undone herror h₃.1 ?_
    rw [h₃.2]
    exact hundone herror
  · rename_i hsuccess
    rw [if_pos (not_not.1 hsuccess)] at hlock
    exact settled_of_success (not_not.1 hsuccess) hlock

/-! ### Searches -/

/-- The table as an attempt at exclusive use finds it in its pass after `k` waits. -/
def seenAfter (c : Caller) (i : Nat) (T : Table) : Nat → Table
  | 0 => T
  | k + 1 => c.others (k + 1) ((seenAfter c i T k).setId i objectIdReserved)

/-- Exclusive use of a record is not granted: in none of the five passes up to which the
record stays reserved is it without other references. -/
def StaysInUse (c : Caller) (i : Nat) (T : Table) : Prop :=
  ∀ k < 5, (∀ j, 0 < j → j ≤ k → ((seenAfter c i T j).records i).activeId = objectIdReserved) →
    ((seenAfter c i T k).records i).refcount ≠ 0

/-- The search finds a record that cannot be had in this mode. -/
def SearchLeaks (cfg : OsConfig) (c : Caller) (mode : LockMode) (ty : Nat)
    (matchFunc : Nat → Record → Bool) (T : Table) : Prop :=
  InitOk cfg c mode ty ∧ mode ≠ .none ∧
    (findNextMatch (cfg.getMaxForObjectType ty) matchFunc T (initToken mode ty)).1 = .success ∧
    let token := (findNextMatch (cfg.getMaxForObjectType ty) matchFunc T (initToken mode ty)).2
    objectIdIsValid token.objId = false ∨ mode = .reserved ∨
      (mode = .exclusive ∧ StaysInUse c token.objIdx T)

/-- What a search that succeeds puts into the token. -/
theorem findNextMatch_success {objCount : Nat} {matchFunc : Nat → Record → Bool}
    (h : (findNextMatch objCount matchFunc T token).1 = .success) :
    (findNextMatch objCount matchFunc T token).2.lockMode = token.lockMode ∧
    (findNextMatch objCount matchFunc T token).2.objType = token.objType ∧
    (findNextMatch objCount matchFunc T token).2.objId =
      (T.records (findNextMatch objCount matchFunc T token).2.objIdx).activeId ∧
    (findNextMatch objCount matchFunc T token).2.objIdx < objCount ∧
    matchFunc (findNextMatch objCount matchFunc T token).2.objIdx
      (T.records (findNextMatch objCount matchFunc T token).2.objIdx) = true ∧
    objectIdDefined (T.records (findNextMatch objCount matchFunc T token).2.objIdx).activeId = true := by
  unfold findNextMatch at h ⊢
  dsimp only at h ⊢
  split at h
  · rename_i i hi
    have hmem := List.mem_of_find?_eq_some hi
    have hfound := List.find?_some hi
    simp only [Bool.and_eq_true] at hfound
    rw [List.mem_range'_1] at hmem
    refine ⟨rfl, rfl, rfl, ?_, hfound.2, hfound.1⟩
    dsimp only
    omega
  · cases h

/-- The loop of an attempt at exclusive use from the pass after `k` waits on. -/
theorem convertRun_exclusive (hmode : token.lockMode = .exclusive) (n : Nat) : ∀ k e, k + n = 4 →
    ((seenAfter c token.objIdx T k).records token.objIdx).activeId = e →
    ((convertRun c token (n + 1) e (seenAfter c token.objIdx T k)).1 ≠ .success ↔
      ∀ k', k ≤ k' → k' < 5 → (∀ j, k < j → j ≤ k' →
        ((seenAfter c token.objIdx T j).records token.objIdx).activeId = objectIdReserved) →
        ((seenAfter c token.objIdx T k').records token.objIdx).refcount ≠ 0) := by
  -- the first pass of the two cases: the record is free, or it is contended
  have hpass : ∀ {e : ObjId} {T₁ : Table}, (T₁.records token.objIdx).activeId = e →
      convertPass token e T₁ = if (T₁.records token.objIdx).refcount = 0 then
        .matched objectIdReserved (T₁.setId token.objIdx objectIdReserved)
        else .contended objectIdReserved (T₁.setId token.objIdx objectIdReserved) := by
    intro e T₁ he
    simp [convertPass, he, hmode]
  induction n with
  | zero =>
    intro k e hk he
    rw [convertRun, hpass he]
    by_cases hzero : ((seenAfter c token.objIdx T k).records token.objIdx).refcount = 0
    · rw [if_pos hzero]
      refine ⟨fun hfails => absurd rfl hfails, fun hall => ?_⟩
      exact absurd hzero (hall k le_rfl (by omega) fun j hlow hhigh => by omega)
    rw [if_neg hzero]
    refine ⟨fun _ k' hlow hhigh _ => ?_, fun _ => nofun⟩
    obtain rfl : k' = k := by omega
    exact hzero
  | succ n ih =>
    intro k e hk he
    rw [convertRun, hpass he]
    by_cases hzero : ((seenAfter c token.objIdx T k).records token.objIdx).refcount = 0
    · rw [if_pos hzero]
      refine ⟨fun hfails => absurd rfl hfails, fun hall => ?_⟩
      exact absurd hzero (hall k le_rfl (by omega) fun j hlow hhigh => by omega)
    rw [if_neg hzero]
    dsimp only
    have hnext : 5 - (n + 1) = k + 1 := by omega
    rw [if_pos (Nat.succ_ne_zero n), hnext]
    change (convertRun c token (n + 1) objectIdReserved
      (seenAfter c token.objIdx T (k + 1))).1 ≠ .success ↔ _
    by_cases hreserved : ((seenAfter c token.objIdx T (k + 1)).records token.objIdx).activeId =
        objectIdReserved
    · rw [ih (k + 1) objectIdReserved (by omega) hreserved]
      constructor
      · intro hall k' hlow hhigh hids
        by_cases hk' : k' = k
        · subst hk'
          exact hzero
        · exact hall k' (by omega) hhigh fun j hj hj' => hids j (by omega) hj'
      · intro hall k' hlow hhigh hids
        refine hall k' (by omega) hhigh fun j hj hj' => ?_
        by_cases hjk : j = k + 1
        · subst hjk
          exact hreserved
        · exact hids j (by omega) hj'
    · -- another ID has come into the record: the attempt is refused
      have hrefused : convertPass token objectIdReserved (seenAfter c token.objIdx T (k + 1)) =
          .refused := by
        simp [convertPass, hreserved]
      rw [convertRun, hrefused]
      refine ⟨fun _ k' hlow hhigh hids => ?_, fun _ => nofun⟩
      by_cases hk' : k' = k
      · subst hk'
        exact hzero
      · exact absurd (hids (k + 1) (by omega) (by omega)) hreserved

/-- When the conversion after a search fails. -/
theorem convertStatus_found (hmode : token.lockMode ≠ .none)
    (hid : token.objId = (T.records token.objIdx).activeId) :
    convertStatus c token T ≠ .success ↔ objectIdIsValid token.objId = false ∨
      token.lockMode = .reserved ∨ (token.lockMode = .exclusive ∧ StaysInUse c token.objIdx T) := by
  unfold convertStatus
  by_cases hvalid : objectIdIsValid token.objId = true
  · rw [if_pos hvalid]
    have hne : token.objId ≠ objectIdReserved := by
      intro heq
      rw [heq] at hvalid
      cases hvalid
    cases hlock : token.lockMode with
    | none => exact absurd hlock hmode
    | global | refcount =>
      simp [convertRun, convertPass, expectedId, hlock, hvalid, ← hid]
    | reserved =>
      have hne' : (T.records token.objIdx).activeId ≠ objectIdReserved := hid ▸ hne
      simp [convertRun, convertPass, expectedId, hlock, hne']
    | exclusive =>
      have hexpected : expectedId token = token.objId := by simp [expectedId, hlock]
      have hrun := convertRun_exclusive (c := c) hlock (T := T) 4 0 token.objId rfl hid.symm
      rw [hexpected]
      rw [seenAfter] at hrun
      rw [hrun]
      simp [StaysInUse, hvalid]
  · simp [hvalid]

/-- How a search ends. -/
theorem getBySearch_ends (hfree : s.held ty = false) (matchFunc : Nat → Record → Bool) :
    wp (getBySearch cfg c mode ty matchFunc) (fun r s' =>
      (¬SearchLeaks cfg c mode ty matchFunc (s.tables ty) ∧ Settled c mode ty s r.1 s') ∨
      (SearchLeaks cfg c mode ty matchFunc (s.tables ty) ∧ r.1 ≠ .success ∧ LockTo ty true s s'))
      (fun _ => False) s := by
  refine wp_seq (transactionInit_starts hfree) fun r s₁ h₁ => ?_
  rcases h₁ with ⟨hbad, hstatus, hzero, rfl⟩ | ⟨hok, rfl, hstarted⟩
  · -- a search among the objects of type 0, of which there are none
    obtain ⟨status, token⟩ := r
    obtain rfl : token = .zero := hzero
    have hnone : findNextMatch (cfg.getMaxForObjectType Token.zero.objType) matchFunc
        (s₁.tables Token.zero.objType) .zero =
        (.nameNotFound, { Token.zero with objIdx := 1, objId := objectIdUndefined }) := rfl
    simp only [wp_bind, wp_get, hnone, reduceCtorEq, if_false]
    refine wp_imp (Q := fun _ s' => s' = s₁) ?_ fun _ s₂ h₂ => ?_
    · simp [transactionCancel, unlockGlobal, Token.zero]
    · subst h₂
      exact .inl ⟨fun hleaks => hbad hleaks.1, settled_of_same hfree (by simp)⟩
  · have hty := (OsConfig.type_of_max hok.supported).2.1
    simp only [wp_bind, wp_get]
    have htables : s₁.tables (initToken mode ty).objType = s.tables ty := by
      rw [hstarted.tables]
      rfl
    rw [htables]
    generalize hfind : findNextMatch (cfg.getMaxForObjectType (initToken mode ty).objType) matchFunc
      (s.tables ty) (initToken mode ty) = found
    have hfind : findNextMatch (cfg.getMaxForObjectType ty) matchFunc (s.tables ty)
      (initToken mode ty) = found := hfind
    have htoken : found.2.lockMode = mode ∧ found.2.objType = ty := by
      rw [← hfind]
      unfold findNextMatch
      dsimp only
      split <;> exact ⟨rfl, rfl⟩
    obtain ⟨status, token⟩ := found
    obtain ⟨hmode', hty'⟩ := htoken
    rw [SearchLeaks, hfind]
    split
    · rename_i hfound
      have hid : token.objId = ((s.tables ty).records token.objIdx).activeId := by
        have hspec : (findNextMatch (cfg.getMaxForObjectType ty) matchFunc (s.tables ty)
            (initToken mode ty)).1 = .success → _ := findNextMatch_success
        rw [hfind] at hspec
        exact (hspec hfound).2.2.1
      refine wp_seq (hstarted.convert hty hmode' hty') fun status' s₂ h₂ => ?_
      obtain ⟨hstatus, hlock, hundone⟩ := h₂
      by_cases hsuccess : status' = .success
      · rw [if_pos hsuccess] at hlock
        refine .inl ⟨?_, settled_of_success hsuccess hlock⟩
        rintro ⟨-, hne, -, hcause⟩
        rw [← hmode'] at hcause hne
        exact (convertStatus_found hne hid).2 hcause (hstatus.symm.trans hsuccess)
      rw [if_neg hsuccess] at hlock
      by_cases hnone : mode = .none
      · refine .inl ⟨fun h => h.2.1 hnone, settled_of_undone hsuccess ?_ (hundone hsuccess)⟩
        simpa [hnone] using hlock
      refine .inr ⟨⟨hok, hnone, hfound, ?_⟩, hsuccess, ?_⟩
      · have hcause := (convertStatus_found (hmode' ▸ hnone) hid).1 (hstatus ▸ hsuccess)
        rw [hmode'] at hcause
        exact hcause
      · rwa [bne_iff_ne.2 hnone] at hlock
    · rename_i hnotfound
      exact wp_seq (hstarted.cancel hty hmode' hty' hnotfound) fun _ s₂ h₂ =>
        .inl ⟨fun hleaks => hnotfound hleaks.2.2.1, h₂⟩

/-- A search meets the contract exactly if the record that it finds, if any, can be had. -/
theorem getBySearch_settled_iff (hfree : s.held ty = false) (matchFunc : Nat → Record → Bool) :
    wp (getBySearch cfg c mode ty matchFunc) (fun r s' => Settled c mode ty s r.1 s')
      (fun _ => False) s ↔ ¬SearchLeaks cfg c mode ty matchFunc (s.tables ty) := by
  have hwp : wp (getBySearch cfg c mode ty matchFunc) _ _ s := getBySearch_ends hfree matchFunc
  obtain ⟨r, s', hrun, hends⟩ := wp_outcome hwp
  rw [wp_of_ok hrun]
  rcases hends with ⟨hno, hsettled⟩ | ⟨hleaks, herror, hlock⟩
  · exact ⟨fun _ => hno, fun _ => hsettled⟩
  refine ⟨fun hsettled _ => ?_, fun hno => absurd hleaks hno⟩
  have hfreed := hsettled.lock.held_self
  rw [hlock.held_self] at hfreed
  simp [herror] at hfreed

/-! ### New objects -/

/-- A free record is found for a new object, and the event handler does not want it. -/
def HandlerRefuses (cfg : OsConfig) (c : Caller) (ty : Nat) (name : Option (List Char))
    (T : Table) : Prop :=
  c.globalState = .init ∧ cfg.getMaxForObjectType ty ≠ 0 ∧
    nameIsTaken (cfg.getMaxForObjectType ty) name T (initToken .exclusive ty) = false ∧
    (findNextFree (cfg.getMaxForObjectType ty) c.self T (initToken .exclusive ty)).1 = .success ∧
    c.eventHandler .resourceAllocated
      (findNextFree (cfg.getMaxForObjectType ty) c.self T (initToken .exclusive ty)).2.1.objId ≠
        .success

theorem objectIdToType_compose {serial : Nat} (hty : ty < objectTypeUser) (hserial : serial < 2 ^ 16) :
    objectIdToType (objectIdCompose ty serial) = ty ∧
      objectIdToSerialNumber (objectIdCompose ty serial) = serial := by
  unfold objectTypeUser at hty
  have hor : ty * 2 ^ 16 ||| serial = ty * 2 ^ 16 + serial := by
    rw [Nat.mul_comm, Nat.two_pow_add_eq_or_of_lt hserial]
  unfold objectIdToType objectIdToSerialNumber objectIdCompose
  rw [hor, BitVec.toNat_ofNat]
  omega

theorem findFreeLoop_spec {maxId : Nat} (hmax : 0 < maxId ∧ maxId ≤ objectIndexMask) (n : Nat) :
    ∀ {serial serial' i : Nat}, findFreeLoop maxId T n serial = some (serial', i) →
      serial' < 2 ^ 16 ∧ i < maxId ∧ i = serial' % maxId ∧
        objectIdDefined (T.records i).activeId = false := by
  induction n with
  | zero => nofun
  | succ n ih =>
    intro serial serial' i h
    rw [findFreeLoop] at h
    have hlt := Nat.mod_lt (serial + 1) hmax.1
    unfold objectIndexMask at h hmax
    split at h
    · exact ih h
    rename_i hfree
    obtain ⟨rfl, rfl⟩ := Prod.mk.inj (Option.some.inj h)
    refine ⟨?_, hlt, ?_, by simpa using hfree⟩
    · split <;> omega
    · split
      · rw [Nat.mod_mod]
      · rfl

/-- What `OS_ObjectIdFindNextFree` does with a free record. -/
theorem findNextFree_success {maxId : Nat} {self : ObjId}
    (hmax : 0 < maxId ∧ maxId ≤ objectIndexMask)
    (h : (findNextFree maxId self T token).1 = .success) :
    ∃ serial i, serial < 2 ^ 16 ∧ i < maxId ∧ i = serial % maxId ∧
      objectIdDefined (T.records i).activeId = false ∧
      findNextFree maxId self T token = (.success,
        { token with objIdx := i, objId := objectIdCompose token.objType serial },
        { records := update T.records i ⟨none, objectIdCompose token.objType serial, self, 0⟩
          lastIdIssued := objectIdCompose token.objType serial }) := by
  unfold findNextFree at h ⊢
  split at h
  · rename_i serial i hfound
    obtain ⟨hserial, hi, hindex, hfree⟩ := findFreeLoop_spec hmax _ hfound
    exact ⟨serial, i, hserial, hi, hindex, hfree, rfl⟩
  · split at h <;> cases h

theorem findNextFree_fails {maxId : Nat} {self : ObjId}
    (h : (findNextFree maxId self T token).1 ≠ .success) :
    ∃ status token', status ≠ .success ∧ token'.lockMode = token.lockMode ∧
      token'.objType = token.objType ∧ findNextFree maxId self T token = (status, token', T) := by
  unfold findNextFree at h ⊢
  split at h
  · exact absurd rfl h
  · exact ⟨_, { token with objIdx := 2 ^ 32 - 1, objId := objectIdUndefined }, h, rfl, rfl, rfl⟩

/-- A conversion of the token for a new record is granted at once. -/
theorem convertStatus_new (hmode : token.lockMode = .exclusive)
    (hvalid : objectIdIsValid token.objId = true)
    (hid : (T.records token.objIdx).activeId = token.objId)
    (hcount : (T.records token.objIdx).refcount = 0) : convertStatus c token T = .success := by
  simp [convertStatus, hvalid, convertRun, convertPass, expectedId, hmode, hid, hcount]

theorem objectIdIsValid_compose {serial : Nat} (hty : 0 < ty ∧ ty < objectTypeUser)
    (hserial : serial < 2 ^ 16) : objectIdIsValid (objectIdCompose ty serial) = true := by
  simp [objectIdIsValid, (objectIdToType_compose hty.2 hserial).1, objectTypeUndefined, hty]

/-- The ID issued for a free record leads to it. -/
theorem findNextFree_issued {self : ObjId} {found : Token × Table}
    (h : findNextFree (cfg.getMaxForObjectType ty) self T token = (.success, found))
    (hty : token.objType = ty) :
    ∃ serial i, i < cfg.getMaxForObjectType ty ∧ objectIdDefined (T.records i).activeId = false ∧
      objectIdIsValid (objectIdCompose ty serial) = true ∧
      objectIdToArrayIndex cfg ty (objectIdCompose ty serial) = some i ∧
      found = ({ token with objIdx := i, objId := objectIdCompose ty serial },
        { records := update T.records i ⟨none, objectIdCompose ty serial, self, 0⟩
          lastIdIssued := objectIdCompose ty serial }) := by
  subst hty
  by_cases hmax : cfg.getMaxForObjectType token.objType = 0
  · rw [hmax] at h
    cases h
  obtain ⟨htype, huser, hmask⟩ := OsConfig.type_of_max hmax
  obtain ⟨serial, i, hserial, hi, hmod, hundefined, hfound⟩ :=
    findNextFree_success ⟨Nat.pos_of_ne_zero hmax, hmask⟩ (congrArg Prod.fst h)
  obtain ⟨hcompose, hserialId⟩ := objectIdToType_compose huser hserial
  refine ⟨serial, i, hi, hundefined, objectIdIsValid_compose ⟨htype, huser⟩ hserial, ?_,
    (Prod.mk.inj (h.symm.trans hfound)).2⟩
  rw [objectIdToArrayIndex, hcompose, hserialId, if_neg (fun hne => hne.2 rfl), if_neg hmax, hmod]

/-- What `OS_ObjectIdAllocateNew` does with the record it has found. -/
theorem allocateFound_settled {serial i : Nat} (hty : 0 < ty ∧ ty < objectTypeUser)
    (hserial : serial < 2 ^ 16) (hlock : LockTo ty true s s₁) (htable : s₁.tables ty = T)
    (hid : (T.records i).activeId = objectIdCompose ty serial) (hcount : (T.records i).refcount = 0)
    (hhandler : c.eventHandler .resourceAllocated (objectIdCompose ty serial) = .success) :
    wp (allocateFound c ⟨.exclusive, ty, i, objectIdCompose ty serial⟩)
      (fun r s' => Settled c .exclusive ty s r.1 s') (fun _ => False) s₁ := by
  have hconverting : Converting ⟨.exclusive, ty, i, objectIdCompose ty serial⟩ s₁ :=
    fun _ => ⟨hty.2, hlock.held_self⟩
  have hgranted : convertStatus c ⟨.exclusive, ty, i, objectIdCompose ty serial⟩ (s₁.tables ty) =
      .success := by
    rw [htable]
    exact convertStatus_new rfl (objectIdIsValid_compose hty hserial) hid hcount
  unfold allocateFound
  simp only [hhandler]
  refine wp_seq (convertToken_converts hconverting) fun status s₂ h₂ => ?_
  obtain ⟨hstatus, hlock₂, -⟩ := h₂
  rw [hgranted] at hstatus
  subst hstatus
  have hunlocked : LockTo ty false s₁ s₂ := by
    simpa [convertKeeps] using hlock₂
  exact settled_of_success rfl (hlock.trans hunlocked)

/-- A handler that refuses makes `OS_ObjectIdFinalizeNew` lock the table again. -/
theorem allocateFound_deadlock (hmode : token.lockMode = .exclusive)
    (hty : token.objType < objectTypeUser) (hheld : s₁.held token.objType = true)
    (hhandler : c.eventHandler .resourceAllocated token.objId ≠ .success) :
    wp (allocateFound c token) (fun _ _ => False) (fun e => e = .deadlock token.objType) s₁ := by
  unfold allocateFound
  simp only [hhandler, if_false, wp_bind, wp_pure]
  rw [if_pos hhandler]
  unfold finalizeNew transactionFinish
  simp [hmode, lockGlobal, hheld, hty]

/-- How an allocation ends. -/
theorem allocateNew_ends (hfree : s.held ty = false) (name : Option (List Char)) :
    wp (allocateNew cfg c ty name)
      (fun r s' => ¬HandlerRefuses cfg c ty name (s.tables ty) ∧ Settled c .exclusive ty s r.1 s')
      (fun e => HandlerRefuses cfg c ty name (s.tables ty) ∧ e = .deadlock ty) s := by
  unfold allocateNew
  split
  · rename_i hshutdown
    refine ⟨fun hrefuses => ?_, settled_of_same hfree (by simp)⟩
    have hinit := hrefuses.1
    rw [hshutdown] at hinit
    cases hinit
  rename_i hrunning
  rw [wp_bind]
  refine wp_mono (transactionInit_starts hfree) (fun r s₁ h₁ => ?_) (fun _ h => h.elim)
  rcases h₁ with ⟨hbad, hstatus, -, rfl⟩ | ⟨hok, rfl, hstarted⟩
  · dsimp only
    rw [if_pos hstatus]
    refine ⟨fun hrefuses => hbad ⟨?_, fun _ => rfl, hrefuses.2.1⟩, settled_of_same hfree hstatus⟩
    rw [hrefuses.1]
    simp
  have hty := OsConfig.type_of_max hok.supported
  have hinit : c.globalState = .init := by
    cases hstate : c.globalState with
    | none => exact absurd hstate hok.initialized
    | init => rfl
    | shutdown => exact absurd hstate hrunning
  dsimp only
  rw [if_neg (not_not.2 rfl)]
  unfold allocateLocked
  simp only [wp_bind, wp_get]
  have htables : s₁.tables (initToken .exclusive ty).objType = s.tables ty := by
    rw [hstarted.tables]
    rfl
  have hcancel : ∀ token : Token, token.lockMode = .exclusive → token.objType = ty →
      ∀ status : Status, status ≠ .success →
      ¬HandlerRefuses cfg c ty name (s.tables ty) →
      wp (do let token ← transactionCancel token; pure (status, token))
        (fun r s' => ¬HandlerRefuses cfg c ty name (s.tables ty) ∧
          Settled c .exclusive ty s r.1 s')
        (fun e => HandlerRefuses cfg c ty name (s.tables ty) ∧ e = .deadlock ty) s₁ := by
    intro token hmode htype status herror hno
    rw [wp_bind]
    exact wp_mono (hstarted.cancel hty.2.1 hmode htype herror) (fun _ s₂ h₂ => ⟨hno, h₂⟩)
      (fun _ h => h.elim)
  rw [htables]
  split
  · rename_i htaken
    refine hcancel (initToken .exclusive ty) rfl rfl _ (by simp) fun hrefuses => ?_
    have hnot := hrefuses.2.2.1
    rw [show nameIsTaken (cfg.getMaxForObjectType ty) name (s.tables ty)
      (initToken .exclusive ty) = true from htaken] at hnot
    cases hnot
  rename_i hnottaken
  have hmax : 0 < cfg.getMaxForObjectType ty ∧ cfg.getMaxForObjectType ty ≤ objectIndexMask :=
    ⟨Nat.pos_of_ne_zero hok.supported, hty.2.2⟩
  by_cases hfound : (findNextFree (cfg.getMaxForObjectType ty) c.self (s.tables ty)
      (initToken .exclusive ty)).1 = .success
  · obtain ⟨serial, i, hserial, hi, -, hunused, heq⟩ := findNextFree_success hmax hfound
    have hrefuses : HandlerRefuses cfg c ty name (s.tables ty) ↔
        c.eventHandler .resourceAllocated (objectIdCompose ty serial) ≠ .success := by
      constructor
      · intro h
        have hhandler := h.2.2.2.2
        rw [heq] at hhandler
        exact hhandler
      · intro h
        refine ⟨hinit, hok.supported, eq_false_of_ne_true hnottaken, hfound, ?_⟩
        rw [heq]
        exact h
    erw [heq]
    have hlock := hstarted.lock.setTable
      { records := update (s.tables ty).records i
          ⟨none, objectIdCompose ty serial, c.self, 0⟩
        lastIdIssued := objectIdCompose ty serial }
    by_cases hhandler : c.eventHandler .resourceAllocated (objectIdCompose ty serial) = .success
    · refine wp_mono (allocateFound_settled (s := s) ⟨hty.1, hty.2.1⟩ hserial hlock
        (update_self _ _ _) ?_ ?_ hhandler) (fun r s₂ h₂ => ?_) (fun _ h => h.elim)
      · simp
      · simp
      · exact ⟨fun h => hrefuses.1 h hhandler, h₂⟩
    · refine wp_mono (allocateFound_deadlock rfl hty.2.1 hlock.held_self hhandler)
        (fun _ _ h => h.elim) (fun e he => ⟨hrefuses.2 hhandler, he⟩)
  · obtain ⟨status, token, herror, hmode, htype, heq⟩ := findNextFree_fails hfound
    erw [heq]
    cases status with
    | success => exact absurd rfl herror
    | _ => exact hcancel token hmode htype _ (by simp) fun hrefuses => hfound hrefuses.2.2.2.1

/-- An allocation meets the contract exactly if the event handler does not refuse. -/
theorem allocateNew_settled_iff (hfree : s.held ty = false) (name : Option (List Char)) :
    wp (allocateNew cfg c ty name) (fun r s' => Settled c .exclusive ty s r.1 s')
      (fun _ => False) s ↔ ¬HandlerRefuses cfg c ty name (s.tables ty) := by
  have hends : wp (allocateNew cfg c ty name) _ _ s := allocateNew_ends hfree name
  constructor
  · intro hsettled hrefuses
    obtain ⟨r, s', hrun, -⟩ := wp_outcome hsettled
    exact (wp_ok hends hrun).1 hrefuses
  · intro hno
    exact wp_mono hends (fun _ _ h => h.2) (fun _ h => hno h.1)

/-! ### The end of a transaction -/

/-- A token is given back by a caller that holds the lock if the token's mode keeps it. -/
theorem transactionFinish_unlocks (finalId : Option ObjId) (hty : token.objType < objectTypeUser)
    (hheld : s₁.held token.objType = token.lockMode.keepsLock) :
    wp (transactionFinish token finalId) (fun _ s' => LockTo token.objType false s₁ s')
      (fun _ => False) s₁ := by
  unfold transactionFinish
  split
  · rename_i hnone
    rw [hnone] at hheld
    have hrefl := LockTo.refl token.objType s₁
    rw [hheld] at hrefl
    exact hrefl
  rename_i hmode
  -- the table is locked now, in every mode
  have hlocked : ∀ s₂, LockTo token.objType true s₁ s₂ → wp (do
        modify fun s =>
          { s with
            tables := update s.tables token.objType
              (finishRecord token finalId (s.tables token.objType)) }
        unlockGlobal token
        pure { token with lockMode := .none }) (fun _ s' => LockTo token.objType false s₁ s')
        (fun _ => False) s₂ := by
    intro s₂ h₂
    rw [wp_bind, wp_modify, wp_bind]
    have hset := h₂.setTable (finishRecord token finalId (s₂.tables token.objType))
    exact wp_imp (unlockGlobal_unlocks hty hmode hset.held_self) fun _ s₃ h₃ => hset.trans h₃.1
  split
  · rename_i hreleases
    have hfree : s₁.held token.objType = false := by
      rw [hheld]
      rcases hreleases with hexclusive | hrefcount
      · rw [hexclusive]; rfl
      · rw [hrefcount]; rfl
    exact wp_seq (lockGlobal_locks hty hmode hfree) fun _ s₂ h₂ => hlocked s₂ h₂.1
  rename_i hkeeps
  have hrefl := LockTo.refl token.objType s₁
  have hkept : token.lockMode.keepsLock = true := by
    cases hlock : token.lockMode with
    | none => exact absurd hlock hmode
    | global | reserved => rfl
    | refcount => exact absurd (.inr hlock) hkeeps
    | exclusive => exact absurd (.inl hlock) hkeeps
  rw [hheld, hkept] at hrefl
  exact hlocked s₁ hrefl

end Calls

/-- The contract of the calls for tokens. By ID they meet it. By name or by search they meet it
exactly if the record that is found can be had, and for a new object exactly if the event
handler does not refuse it. Who gives a token back does not hold the lock any more. -/
theorem lock_balance_iff (cfg : OsConfig) (c : Caller) (ty : Nat) (s : OsState)
    (hfree : s.held ty = false) :
    (∀ mode id, wp (getById cfg c mode ty id) (fun r s' => Settled c mode ty s r.1 s')
      (fun _ => False) s) ∧
    (∀ mode matchFunc, wp (getBySearch cfg c mode ty matchFunc)
      (fun r s' => Settled c mode ty s r.1 s') (fun _ => False) s ↔
        ¬SearchLeaks cfg c mode ty matchFunc (s.tables ty)) ∧
    (∀ mode name, wp (getByName cfg c mode ty name)
      (fun r s' => Settled c mode ty s r.1 s') (fun _ => False) s ↔
        ¬SearchLeaks cfg c mode ty (objectNameMatch name) (s.tables ty)) ∧
    (∀ name, wp (allocateNew cfg c ty name) (fun r s' => Settled c .exclusive ty s r.1 s')
      (fun _ => False) s ↔ ¬HandlerRefuses cfg c ty name (s.tables ty)) ∧
    ∀ token s₁ status, token.objType < objectTypeUser →
      s₁.held token.objType = token.lockMode.keepsLock →
      wp (release token) (fun _ s' => LockTo token.objType false s₁ s') (fun _ => False) s₁ ∧
      wp (finalizeNew status token) (fun _ s' => LockTo token.objType false s₁ s')
        (fun _ => False) s₁ ∧
      wp (finalizeDelete status token) (fun _ s' => LockTo token.objType false s₁ s')
        (fun _ => False) s₁ := by
  refine ⟨fun mode id => getById_settled hfree id, fun mode => getBySearch_settled_iff hfree,
    fun mode name => getBySearch_settled_iff hfree _, allocateNew_settled_iff hfree,
    fun token s₁ status hty hheld => ⟨?_, ?_, ?_⟩⟩
  · exact transactionFinish_unlocks none hty hheld
  · exact wp_seq (transactionFinish_unlocks _ hty hheld) fun _ _ h => h
  · exact wp_seq (transactionFinish_unlocks _ hty hheld) fun _ _ h => h

/-! ## Examples -/

/-- Two objects of each type. -/
def smallOs : OsConfig := ⟨2, 2, 2, 2, 2, 2, 2, 2, 2, 2, 2, 2⟩

/-- A caller that nobody disturbs, with an event handler. -/
def quietCaller (eventHandler : OsEvent → ObjId → Status) : Caller :=
  ⟨.init, 0x00010001, fun _ T => T, eventHandler⟩

/-- A table whose first record is in some state. -/
def oneRecord (r : Record) : Table :=
  ⟨fun i => if i = 0 then r else ⟨none, objectIdUndefined, objectIdUndefined, 0⟩, objectIdUndefined⟩

/-- The state of a system whose tables are all the same, with no lock held. -/
def unlockedState (T : Table) : OsState := ⟨fun _ => T, fun _ => false, 0, 0⟩

/-- A mutex that exists is found by its name, and the table stays locked. -/
theorem lock_balance_mutex : (unlockedState (oneRecord ⟨some ['M'], 0x00050001, 0, 0⟩)).held 5 = false ∧
    wp (getByName smallOs (quietCaller fun _ _ => .success) .global 5 ['M'])
      (fun r s' => Settled (quietCaller fun _ _ => .success) .global 5
        (unlockedState (oneRecord ⟨some ['M'], 0x00050001, 0, 0⟩)) r.1 s') (fun _ => False)
      (unlockedState (oneRecord ⟨some ['M'], 0x00050001, 0, 0⟩)) := by
  refine ⟨rfl, ((lock_balance_iff smallOs (quietCaller fun _ _ => .success) 5
    (unlockedState (oneRecord ⟨some ['M'], 0x00050001, 0, 0⟩)) rfl).2.2.1 .global ['M']).2 ?_⟩
  rintro ⟨-, -, -, hinvalid | hreserved | ⟨hexclusive, -⟩⟩
  · cases hinvalid
  · cases hreserved
  · cases hexclusive

/-- The status that a call returns and whether it holds the lock of the mutexes then, or the
fault it stops with. -/
def outcome (x : OsM (Status × Token)) (s : OsState) : Except Nat (Status × Bool) :=
  match x.run s with
  | .ok (r, s') => .ok (r.1, s'.held 5)
  | .error (.deadlock ty) => .error ty
  | .error (.notLocked _) => .error 0

/-- A mutex is looked for by its name while it is being created: the call returns an error
and the table of the mutexes stays locked. A new mutex is refused by the event handler: the
caller waits for its own lock. -/
theorem lock_not_balanced :
    outcome (getByName smallOs (quietCaller fun _ _ => .success) .global 5 ['M'])
      (unlockedState (oneRecord ⟨some ['M'], objectIdReserved, 0, 1⟩)) =
        .ok (.incorrectObjState, true) ∧
    outcome (allocateNew smallOs (quietCaller fun _ _ => .error) 5 (some ['N']))
      (unlockedState (oneRecord ⟨some ['M'], 0x00050001, 0, 0⟩)) = .error 5 := by
  constructor
  · rfl
  · rfl

end CfsEds.Osal
