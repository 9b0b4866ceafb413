import CfsEds.Lib.Ownership
import CfsEds.Tbl.Isolation

/-!
# Who has the shared load buffers

A shared load buffer is taken by the load of a single buffered table, which notes its
index in `LoadInProgress`, or by a dump, whose control block points to it. `held` reads
off both. `LoadBuffInv` says that the marks in the buffers agree with them, and that
`LoadInProgress` of a single buffered table is an index of `LoadBuffs`.

Housekeeping breaks this when it closes a dump: it frees the buffer that
`LoadInProgress` of the dumped table points to, which is not the buffer of the dump,
and `LoadBuffs[-1]` when there is no load. So does the clean-up of an application with a
dump waiting, which closes the dump and forgets its buffer. The validation of an inactive
buffer that is gone indexes `LoadBuffs[-1]` as well. In runs without these three the
agreement holds throughout.
-/

namespace CfsEds.Tbl

open CfsEds.Lib.Faults CfsEds.Lib.Ownership List

variable {es : List Event} {i t : Nat} {r : RegistryRec} {status : Status}

/-- The shared load buffer of a table. -/
def RegistryRec.sharedBuffer (r : RegistryRec) : Option Nat :=
  if r.doubleBuffered then none else r.loadInProgress

/-- The shared load buffer of a dump. -/
def DumpControl.sharedBuffer (c : DumpControl) : Option Nat :=
  match c.state with
  | .free => none
  | .performed => some c.dumpBuffer

/-- What can have a shared load buffer: the load of a table, or a dump. -/
inductive Holder where
  | table (t : Nat)
  | dump (d : Nat)
deriving DecidableEq

/-- The shared load buffer that a holder has. -/
def held (s : TblState) : Holder → Option Nat
  | .table t => (s.registry t).sharedBuffer
  | .dump d => (s.dumpControlBlocks d).sharedBuffer

/-- The marks in the shared load buffers. -/
def taken (s : TblState) (i : Nat) : Bool := (s.buffers (.shared i)).taken

section Moves

variable {s s' : TblState}

theorem held_setReg (t : Nat) (r : RegistryRec) :
    held (s.setReg t r) = Function.update (held s) (.table t) r.sharedBuffer := by
  funext o
  cases o with
  | table u =>
    by_cases hu : u = t
    · subst hu
      simp [held]
    · simp [held, hu]
  | dump => simp [held]

theorem held_setDump (d : Nat) (c : DumpControl) :
    held (s.setDump d c) = Function.update (held s) (.dump d) c.sharedBuffer := by
  funext o
  cases o with
  | table => simp [held]
  | dump e =>
    by_cases he : e = d
    · subst he
      simp [held]
    · simp [held, he]

theorem taken_setBuff (i : Nat) (v : LoadBuff) :
    taken (s.setBuff (.shared i) v) = Function.update (taken s) i v.taken := by
  funext j
  by_cases hj : j = i
  · subst hj
    simp [taken]
  · simp [taken, hj]

theorem held_congr (hregistry : s'.registry = s.registry)
    (hdumps : s'.dumpControlBlocks = s.dumpControlBlocks) : held s' = held s := by
  funext o
  cases o with
  | table => rw [held, held, hregistry]
  | dump => rw [held, held, hdumps]

end Moves

/-- A table with a shared load buffer can be reached, by the ground or by a user, and is
not dump only. -/
structure RecordOk (r : RegistryRec) : Prop where
  reachable : r.sharedBuffer ≠ none → r.ownerAppId ≠ none ∨ r.accessList ≠ []
  loadable : r.sharedBuffer ≠ none → r.dumpOnly = false
  userDef : r.userDefAddr = true → r.dumpOnly = true

theorem RecordOk.congr {r' : RegistryRec} (h : RecordOk r)
    (hshared : r'.sharedBuffer = r.sharedBuffer ∨ r'.sharedBuffer = none)
    (howner : r'.ownerAppId = r.ownerAppId) (hlist : r'.accessList = r.accessList)
    (hdump : r'.dumpOnly = r.dumpOnly) (huser : r'.userDefAddr = r.userDefAddr) : RecordOk r' := by
  have hsome : r'.sharedBuffer ≠ none → r.sharedBuffer ≠ none := by
    intro hne
    rcases hshared with heq | hnone
    · rwa [heq] at hne
    · exact absurd hnone hne
  refine ⟨fun hne => ?_, fun hne => ?_, fun hu => ?_⟩
  · rw [howner, hlist]
    exact h.reachable (hsome hne)
  · rw [hdump]
    exact h.loadable (hsome hne)
  · rw [hdump]
    exact h.userDef (huser ▸ hu)

/-- The marks in the shared load buffers are right. -/
structure LoadBuffInv (cfg : TblConfig) (s : TblState) : Prop where
  owned : Owned (taken s) (held s)
  range : ∀ o i, held s o = some i → i < cfg.maxSimultaneousLoads
  records : ∀ t, RecordOk (s.registry t)
  dumps : ∀ d, (s.dumpControlBlocks d).state = .performed → d < cfg.maxSimultaneousLoads

namespace LoadBuffInv

variable {cfg : TblConfig} {s s' : TblState}

section

variable (hinv : LoadBuffInv cfg s)
include hinv

theorem congr (hregistry : s'.registry = s.registry)
    (hdumps : s'.dumpControlBlocks = s.dumpControlBlocks)
    (htaken : ∀ i, (s'.buffers (.shared i)).taken = (s.buffers (.shared i)).taken) :
    LoadBuffInv cfg s' where
  owned := by
    have heq : taken s' = taken s := funext htaken
    rw [heq, held_congr hregistry hdumps]
    exact hinv.owned
  range o i ho := by
    rw [held_congr hregistry hdumps] at ho
    exact hinv.range o i ho
  records t := by
    rw [hregistry]
    exact hinv.records t
  dumps d hd := by
    rw [hdumps] at hd
    exact hinv.dumps d hd

theorem of_touched {B : Set BufRef} (h : Touched B s s') : LoadBuffInv cfg s' :=
  hinv.congr h.registry h.dumps fun i => h.taken (.shared i)

theorem setBuff {b : BufRef} {v : LoadBuff} (hv : v.taken = (s.buffers b).taken) :
    LoadBuffInv cfg (s.setBuff b v) :=
  hinv.congr rfl rfl fun i => update_field LoadBuff.taken hv (.shared i)

theorem range_update {o o' : Holder} {v : Option Nat} {j : Nat}
    (hv : ∀ i, v = some i → i < cfg.maxSimultaneousLoads)
    (ho : Function.update (held s) o' v o = some j) : j < cfg.maxSimultaneousLoads := by
  by_cases hoo : o = o'
  · subst hoo
    rw [Function.update_self] at ho
    exact hv j ho
  · rw [Function.update_of_ne hoo] at ho
    exact hinv.range o j ho

theorem records_setReg (hr : RecordOk r) (u : Nat) : RecordOk ((s.setReg t r).registry u) := by
  by_cases hu : u = t
  · subst hu
    simpa using hr
  · simpa [hu] using hinv.records u

/-- A table keeps its shared load buffer. -/
theorem setReg (hr : RecordOk r) (hshared : r.sharedBuffer = (s.registry t).sharedBuffer) :
    LoadBuffInv cfg (s.setReg t r) := by
  have hheld : held (s.setReg t r) = held s := by
    rw [held_setReg, hshared]
    exact Function.update_eq_self _ (held s)
  refine ⟨?_, ?_, hinv.records_setReg hr, hinv.dumps⟩
  · rw [hheld]
    exact hinv.owned
  · rw [hheld]
    exact hinv.range

/-- The fields of a record that have nothing to do with buffers change. -/
theorem setReg_congr (hshared : r.sharedBuffer = (s.registry t).sharedBuffer)
    (howner : r.ownerAppId = (s.registry t).ownerAppId)
    (hlist : r.accessList = (s.registry t).accessList)
    (hdump : r.dumpOnly = (s.registry t).dumpOnly)
    (huser : r.userDefAddr = (s.registry t).userDefAddr) : LoadBuffInv cfg (s.setReg t r) :=
  hinv.setReg ((hinv.records t).congr (.inl hshared) howner hlist hdump huser) hshared

/-- A free buffer is taken for a table. -/
theorem takeShared (hfree : findFreeLoadBuff cfg s = some i)
    (hsingle : (s.registry t).doubleBuffered = false) (hlip : (s.registry t).loadInProgress = none)
    (hreach : (s.registry t).ownerAppId ≠ none ∨ (s.registry t).accessList ≠ [])
    (hdump : (s.registry t).dumpOnly = false) : LoadBuffInv cfg (takeShared s t i) := by
  obtain ⟨hlt, hnot⟩ := not_taken_of_findFree cfg hfree
  have hnone : held s (.table t) = none := by simp [held, RegistryRec.sharedBuffer, hlip]
  have hheld : held (Tbl.takeShared s t i) = Function.update (held s) (.table t) (some i) := by
    have hs : RegistryRec.sharedBuffer { s.registry t with loadInProgress := some i } = some i := by
      simp [RegistryRec.sharedBuffer, hsingle]
    rw [Tbl.takeShared, held_setReg, hs]
    rfl
  have htaken : taken (Tbl.takeShared s t i) = Function.update (taken s) i true := taken_setBuff i _
  refine ⟨?_, fun o j ho => ?_, ?_, hinv.dumps⟩
  · rw [hheld, htaken]
    exact hinv.owned.acquire hnot hnone
  · rw [hheld] at ho
    exact hinv.range_update (by simpa using hlt) ho
  · exact hinv.records_setReg ⟨fun _ => hreach, fun _ => hdump, (hinv.records t).userDef⟩

/-- The buffer of a table is given back. -/
theorem release (hheld : (s.registry t).sharedBuffer = some i) (hr : r.sharedBuffer = none)
    (hok : RecordOk r) : LoadBuffInv cfg ((freed s i).setReg t r) := by
  have hheld' : held ((freed s i).setReg t r) = Function.update (held s) (.table t) none := by
    rw [held_setReg, hr]
    rfl
  have htaken : taken ((freed s i).setReg t r) = Function.update (taken s) i false :=
    taken_setBuff i _
  refine ⟨?_, fun o j ho => ?_, fun u => ?_, hinv.dumps⟩
  · rw [hheld', htaken]
    exact hinv.owned.release hheld
  · rw [hheld'] at ho
    exact hinv.range_update (by simp) ho
  · exact hinv.records_setReg hok u

/-- The load of a table ends, and with it the use of its shared buffer. -/
theorem release_load (hsingle : (s.registry t).doubleBuffered = false)
    (hlip : (s.registry t).loadInProgress = some i) (hr : r.loadInProgress = none)
    (howner : r.ownerAppId = (s.registry t).ownerAppId)
    (hlist : r.accessList = (s.registry t).accessList)
    (hdump : r.dumpOnly = (s.registry t).dumpOnly)
    (huser : r.userDefAddr = (s.registry t).userDefAddr) :
    LoadBuffInv cfg ((freed s i).setReg t r) := by
  have hnone : r.sharedBuffer = none := by
    unfold RegistryRec.sharedBuffer
    split
    · rfl
    · exact hr
  refine hinv.release ?_ hnone ((hinv.records t).congr (.inr hnone) howner hlist hdump huser)
  simp [RegistryRec.sharedBuffer, hsingle, hlip]

theorem inRange (hsingle : (s.registry t).doubleBuffered = false)
    (hlip : (s.registry t).loadInProgress ≠ none) : InRange cfg (s.registry t).loadInProgress := by
  obtain ⟨i, hi⟩ := Option.ne_none_iff_exists'.1 hlip
  refine ⟨i, hi, hinv.range (.table t) i ?_⟩
  simp [held, RegistryRec.sharedBuffer, hsingle, hi]

theorem sharedBuffer_eq_none (howner : (s.registry t).ownerAppId = none)
    (hlist : (s.registry t).accessList = []) : (s.registry t).sharedBuffer = none := by
  by_contra hsome
  rcases (hinv.records t).reachable hsome with hne | hne
  · exact hne howner
  · exact hne hlist

/-- A record that nobody uses is overwritten. -/
theorem initialized (bufs : Nat → LoadBuff) (howner : (s.registry t).ownerAppId = none)
    (hlist : (s.registry t).accessList = []) (hr : r.sharedBuffer = none)
    (huser : r.userDefAddr = true → r.dumpOnly = true) :
    LoadBuffInv cfg (initialized s t r bufs) := by
  have hok : RecordOk r := ⟨fun hne => absurd hr hne, fun hne => absurd hr hne, huser⟩
  have hset : LoadBuffInv cfg (s.setReg t r) :=
    hinv.setReg hok (by rw [hr, hinv.sharedBuffer_eq_none howner hlist])
  exact hset.congr rfl rfl fun _ => rfl

/-- A handle leaves the list of its table. -/
theorem unlinked {h : Nat} (hkeep : (s.registry (s.handles h).regIndex).sharedBuffer ≠ none →
      (s.registry (s.handles h).regIndex).accessList.erase h ≠ []) :
    LoadBuffInv cfg (unlinked s h) := by
  have hr := hinv.records (s.handles h).regIndex
  have hset : LoadBuffInv cfg (s.setReg (s.handles h).regIndex
      { s.registry (s.handles h).regIndex with
        accessList := (s.registry (s.handles h).regIndex).accessList.erase h }) :=
    hinv.setReg ⟨fun hne => .inr (hkeep hne), hr.loadable, hr.userDef⟩ rfl
  exact hset.congr rfl rfl fun _ => rfl

theorem emptied (t : Nat) : LoadBuffInv cfg (emptied s t) :=
  hinv.congr (registry_emptied s t) (dumpControlBlocks_emptied s t) fun i => by simp

/-- A free buffer is taken for a dump. -/
theorem dumped {i d : Nat} {c : DumpControl} (hfree : findFreeLoadBuff cfg s = some i)
    (hd : findFreeDump cfg s = some d) (hc : c.state = .performed) (hbuffer : c.dumpBuffer = i) :
    LoadBuffInv cfg ((s.setBuff (.shared i)
      { s.buffers (.shared i) with taken := true }).setDump d c) := by
  obtain ⟨hlt, hnot⟩ := not_taken_of_findFree cfg hfree
  have hdlt : d < cfg.maxSimultaneousLoads := mem_range.1 (mem_of_find?_eq_some hd)
  have hnone : held s (.dump d) = none := by
    have hstate := find?_some hd
    simp only [beq_iff_eq] at hstate
    simp [held, DumpControl.sharedBuffer, hstate]
  have hc' : c.sharedBuffer = some i := by simp [DumpControl.sharedBuffer, hc, hbuffer]
  refine ⟨?_, fun o j ho => ?_, hinv.records, fun e he => ?_⟩
  · have htaken := taken_setBuff (s := s) i { s.buffers (.shared i) with taken := true }
    have hheld := held_setDump (s := s) d c
    rw [hc'] at hheld
    exact hheld ▸ htaken ▸ hinv.owned.acquire hnot hnone
  · rw [held_setDump, hc'] at ho
    exact hinv.range_update (by simpa using hlt) ho
  · by_cases hed : e = d
    · exact hed ▸ hdlt
    · simp only [TblState.setDump, Function.update_of_ne hed] at he
      exact hinv.dumps e he

/-- A free dump control block is filled in and stays free. -/
theorem dumpFailed {d : Nat} {c : DumpControl} (hd : findFreeDump cfg s = some d)
    (hc : c.state = .free) : LoadBuffInv cfg (s.setDump d c) := by
  have hstate : (s.dumpControlBlocks d).state = .free := by
    have hfound := find?_some hd
    simpa using hfound
  have hheld : held (s.setDump d c) = held s := by
    have hnone : held s (.dump d) = none := by simp [held, DumpControl.sharedBuffer, hstate]
    have hc' : c.sharedBuffer = none := by simp [DumpControl.sharedBuffer, hc]
    rw [held_setDump, hc', ← hnone]
    exact Function.update_eq_self _ (held s)
  refine ⟨hheld ▸ hinv.owned, hheld ▸ hinv.range, hinv.records, fun e he => ?_⟩
  by_cases hed : e = d
  · subst hed
    simp [hc] at he
  · simp only [TblState.setDump, Function.update_of_ne hed] at he
    exact hinv.dumps e he

end

end LoadBuffInv

section Loads

variable {cfg : TblConfig} {s s' : TblState} {t : Nat}

theorem Working.keeps {calledByApp : Bool} {r : Except Status BufRef}
    (h : Working cfg s t calledByApp r s') (hinv : LoadBuffInv cfg s)
    (hreach : (s.registry t).ownerAppId ≠ none ∨ (s.registry t).accessList ≠ [])
    (hdump : (s.registry t).dumpOnly = false) : LoadBuffInv cfg s' := by
  cases h with
  | refused | again | againShared | direct => exact hinv
  | inactive hlip hdouble hfree htouched =>
    have htake : LoadBuffInv cfg (takeOwn s t) := by
      refine hinv.setReg_congr ?_ rfl rfl rfl rfl
      simp [RegistryRec.sharedBuffer, hdouble]
    exact htake.of_touched htouched
  | shared hlip hsingle hfree htouched =>
    exact (hinv.takeShared hfree hsingle hlip hreach hdump).of_touched htouched

theorem LoadBuffInv.notified (hinv : LoadBuffInv cfg s)
    (hnone : (s.registry t).sharedBuffer = none) : LoadBuffInv cfg (notified s t) := by
  have hset : LoadBuffInv cfg (s.setReg t
      { s.registry t with loadInProgress := none, loadPending := false, tableLoadedOnce := true }) := by
    refine hinv.setReg_congr ?_ rfl rfl rfl rfl
    rw [hnone]
    simp [RegistryRec.sharedBuffer]
  exact hset.congr rfl rfl fun _ => rfl

theorem Updated.keeps (h : Updated cfg s t status s') (hinv : LoadBuffInv cfg s) :
    LoadBuffInv cfg s' := by
  cases h with
  | idle => exact hinv
  | @swapped k hlip hpending hdouble =>
    have hset : LoadBuffInv cfg (s.setReg t { s.registry t with activeBufferIndex := k }) :=
      hinv.setReg_congr rfl rfl rfl rfl rfl
    have hnote : LoadBuffInv cfg ((s.setReg t { s.registry t with activeBufferIndex := k }).note
        (.activated t (.own t k) (image s t (.own t k)) (s.registry t).validationFunc)) := hset.congr rfl rfl fun _ => rfl
    refine hnote.notified ?_
    simp [RegistryRec.sharedBuffer, hdouble]
  | @copied i s₁ s₂ hlip hlt hpending hsingle hunlocked htouched hs₂ =>
    subst hs₂
    have hinv₁ := hinv.of_touched htouched
    rw [← htouched.registry] at hsingle hlip
    have hrelease : LoadBuffInv cfg ((freed s₁ i).setReg t { s₁.registry t with
          loadInProgress := none
          loadPending := false
          tableLoadedOnce := true }) := hinv₁.release_load hsingle hlip rfl rfl rfl rfl rfl
    exact hrelease.congr rfl rfl fun _ => rfl

theorem Finished.keeps {status' : Status} (h : Finished cfg s t status status' s')
    (hinv : LoadBuffInv cfg s)
    (hfirst : (s.registry t).tableLoadedOnce = false → (s.registry t).loadInProgress = none) :
    LoadBuffInv cfg s' := by
  cases h with
  | freed hbad hsingle hlip => exact hinv.release_load hsingle hlip rfl rfl rfl rfl rfl
  | dropped hbad h =>
    refine hinv.setReg_congr ?_ rfl rfl rfl rfl
    rcases h with hdouble | honce
    · simp [RegistryRec.sharedBuffer, hdouble]
    · simp [RegistryRec.sharedBuffer, hfirst honce]
  | updated hgood honce h => exact h.keeps (hinv.setReg_congr rfl rfl rfl rfl rfl)
  | first hgood honce => exact hinv.notified (by simp [RegistryRec.sharedBuffer, hfirst honce])

/-- A load by an application, from the working buffer to the update. -/
theorem LoadBuffInv.load {s₁ s₂ s₃ s₄ : TblState} {vf : Bytes → Int} {work : BufRef}
    {status' status'' : Status} (hinv : LoadBuffInv cfg s) (hlist : (s.registry t).accessList ≠ [])
    (hlip : (s.registry t).loadInProgress = none) (hdump : (s.registry t).dumpOnly = false)
    (h₁ : Working cfg s t true (.ok work) s₁) (h₂ : Touched (insert work (freeBuffs s₁)) s₁ s₂)
    (h₃ : Checked s₂ vf work t status status' s₃) (h₄ : Finished cfg s₃ t status' status'' s₄) :
    LoadBuffInv cfg s₄ := by
  have hinv₂ := (h₁.keeps hinv (.inr hlist) hdump).of_touched h₂
  have hinv₃ : LoadBuffInv cfg s₃ ∧ s₃.registry = s₂.registry := by
    cases h₃ with
    | skipped => exact ⟨hinv₂, rfl⟩
    | passed => exact ⟨hinv₂.congr rfl rfl fun _ => rfl, rfl⟩
    | failed _ htouched =>
      have hnote : LoadBuffInv cfg
          (s₂.note (.validation work (image s₂ t work) (vf (image s₂ t work)))) :=
        hinv₂.congr rfl rfl fun _ => rfl
      exact ⟨hnote.of_touched htouched, htouched.registry⟩
  refine h₄.keeps hinv₃.1 fun honce => ?_
  -- a table that was never loaded is loaded directly
  rw [hinv₃.2, h₂.registry] at honce ⊢
  obtain ⟨lip, hregistry⟩ := h₁.registry
  have honce' : (s.registry t).tableLoadedOnce = false := by simpa [hregistry] using honce
  cases h₁ with
  | again | againShared | direct => exact hlip
  | inactive _ _ _ _ hlater | shared _ _ _ _ hlater => simp [honce'] at hlater

end Loads

/-- The marks survive every move but the end of a dump. -/
theorem Move.keeps {cfg : TblConfig} {l : Option Label} {s s' : TblState} (h : Move cfg l s s')
    (huse : UseInv s) (hinv : LoadBuffInv cfg s)
    (hl : l ≠ some .dumpClosed ∧ l ≠ some .dumpDropped) : LoadBuffInv cfg s' := by
  cases h with
  | result | forgotten | checked => exact hinv.congr rfl rfl fun _ => rfl
  | requested | activate => exact hinv.setReg_congr rfl rfl rfl rfl rfl
  | blank double bufs howner hlist =>
    refine hinv.initialized bufs howner hlist ?_ ?_
    · simp [RegistryRec.sharedBuffer, RegistryRec.init]
    · simp [RegistryRec.init]
  | @registered _ t h app name size opts func howner hlist hunused hlt hopts =>
    have hinit : LoadBuffInv cfg (initialized s t (newRecord app h name size opts func)
        (newBuffers size opts true true)) := by
      refine hinv.initialized _ howner hlist ?_ hopts
      unfold RegistryRec.sharedBuffer
      split <;> rfl
    exact hinit.congr rfl rfl fun _ => rfl
  | @shared _ t h app howner =>
    have hhandle : LoadBuffInv cfg
        (s.setHandle h (newHandle (s.handles h) app t (s.registry t).tableLoadedOnce)) :=
      hinv.congr rfl rfl fun _ => rfl
    have hr := hinv.records t
    exact hhandle.setReg ⟨fun _ => .inl howner, hr.loadable, hr.userDef⟩ rfl
  | @disowned _ h hused =>
    -- its user is still on the list
    have hr := hinv.records (s.handles h).regIndex
    refine hinv.setReg ⟨fun _ => .inr ?_, hr.loadable, hr.userDef⟩ rfl
    exact ne_nil_of_mem (huse.listed h hused)
  | @unlinked _ h hused hkeep =>
    have hr := hinv.records (s.handles h).regIndex
    refine hinv.unlinked fun hne => ?_
    rcases hkeep with hkeep | huser
    · exact hkeep
    · exact absurd (hr.userDef huser) (by simp [hr.loadable hne])
  | @emptied _ h hused hlast hnone =>
    refine LoadBuffInv.emptied (hinv.unlinked fun hne => absurd ?_ hne) _
    rcases hnone with hdouble | hlip
    · simp [RegistryRec.sharedBuffer, hdouble]
    · simp [RegistryRec.sharedBuffer, hlip]
  | @emptiedShared _ h i hused hlast hsingle hlip =>
    have hr := hinv.records (s.handles h).regIndex
    have hrelease : LoadBuffInv cfg ((freed s i).setReg (s.handles h).regIndex
        { s.registry (s.handles h).regIndex with
          accessList := (s.registry (s.handles h).regIndex).accessList.erase h
          loadInProgress := none }) := by
      refine hinv.release ?_ ?_ ⟨?_, ?_, hr.userDef⟩ <;> simp [RegistryRec.sharedBuffer, hsingle, hlip]
    refine hrelease.congr ?_ ?_ fun j => ?_
    · simp
    · simp
    · by_cases hj : j = i
      · subst hj
        simp
      · simp [hj]
  | dumpDropped => exact absurd rfl hl.2
  | locked hused | relocked hused hindex | released h => exact hinv.congr rfl rfl fun _ => rfl
  | updated h => exact h.keeps hinv
  | loaded hused hlip hdump hwork hdata hcheck hfinish =>
    exact hinv.load (ne_nil_of_mem (huse.listed _ hused)) hlip hdump hwork hdata hcheck hfinish
  | @userDefined _ t =>
    have hset : LoadBuffInv cfg (s.setReg t { s.registry t with tableLoadedOnce := true }) :=
      hinv.setReg_congr rfl rfl rfl rfl rfl
    exact hset.congr rfl rfl fun i => by simp
  | @passed _ t b =>
    have hnote : LoadBuffInv cfg (s.note (.validation b (image s t b) 0)) :=
      hinv.congr rfl rfl fun _ => rfl
    exact hnote.setBuff rfl
  | groundPartial howner hdump hpending hwork hdata =>
    exact (hwork.keeps hinv (.inl howner) hdump).of_touched hdata
  | @groundLoaded _ s₁ s₂ t b v howner hdump hpending hwork hdata htaken =>
    exact ((hwork.keeps hinv (.inl howner) hdump).of_touched hdata).setBuff htaken
  | groundRefused hwork =>
    cases hwork with
    | refused => exact hinv
  | dumpFailed hfree hd hc htouched => exact (hinv.dumpFailed hd hc).of_touched htouched
  | dumped hfree hd hc hbuffer htouched =>
    exact (hinv.dumped hfree hd hc hbuffer).of_touched htouched
  | aborted hdouble =>
    refine hinv.setReg_congr ?_ rfl rfl rfl rfl
    simp [RegistryRec.sharedBuffer, hdouble]
  | abortedShared hsingle hlip => exact hinv.release_load hsingle hlip rfl rfl rfl rfl rfl
  | dumpClosed => exact absurd rfl hl.1

theorem Moves.keeps {cfg : TblConfig} {P : Label → Prop} {s s' : TblState} (h : Moves cfg P s s')
    (huse : UseInv s) (hinv : LoadBuffInv cfg s) (hP : ¬P .dumpClosed ∧ ¬P .dumpDropped) :
    LoadBuffInv cfg s' := by
  induction h with
  | refl => exact hinv
  | tail hfirst hlast ih =>
    obtain ⟨l, hl, hmove⟩ := hlast
    refine hmove.keeps (Moves.calm hfirst huse).inv ih ⟨?_, ?_⟩
    · rintro rfl
      exact hP.1 (hl _ rfl)
    · rintro rfl
      exact hP.2 (hl _ rfl)

/-! ## Runs -/

section Runs

variable {cfg : TblConfig} {eds : EdsLib} {s s' : TblState}

/-- What the marks need: no dump is waiting when housekeeping comes round or when its
application is cleaned up, the tables that a cleaned up application loads are its own
alone, and there is an inactive buffer when it is validated. -/
def Event.Careful (cfg : TblConfig) (s : TblState) : Event → Prop
  | .housekeepingCmd =>
    ∀ d < cfg.maxSimultaneousLoads, (s.dumpControlBlocks d).state = .free
  | .cleanUpApp app =>
    (∀ d < cfg.maxSimultaneousLoads, (s.dumpControlBlocks d).state = .performed →
      (s.registry (s.dumpControlBlocks d).regIndex).ownerAppId ≠ some app) ∧
    ∀ t, (s.registry t).ownerAppId = some app → (s.registry t).sharedBuffer ≠ none →
      ∃ h < cfg.maxNumHandles, (s.registry t).accessList = [h] ∧ (s.handles h).appId = some app
  | .validate _ h _ => InactiveThere s h
  | .manage _ h _ =>
    (s.registry (s.handles h).regIndex).loadPending = true ∨ InactiveThere s h
  | _ => True

theorem Event.Careful.not_allows {e : Event} (h : e.Careful cfg s) :
    (¬e.Allows cfg s .dumpClosed ∧ ¬e.Allows cfg s .dumpDropped) ∧ ¬e.Allows cfg s .badIndex := by
  cases e with
  | housekeepingCmd =>
    have hnone : ¬∃ d < cfg.maxSimultaneousLoads, (s.dumpControlBlocks d).state = .performed := by
      rintro ⟨d, hd, hperformed⟩
      simp [h d hd] at hperformed
    exact ⟨⟨hnone, id⟩, hnone⟩
  | cleanUpApp =>
    refine ⟨⟨id, ?_⟩, id⟩
    rintro ⟨d, hd, hperformed, howner⟩
    exact h.1 d hd hperformed howner
  | validate app a vf | manage app a vf => exact ⟨⟨id, id⟩, fun hgone => hgone h⟩
  | _ => exact ⟨⟨id, id⟩, id⟩

/-- Runs in which every event is careful. -/
inductive CarefulRun (cfg : TblConfig) (eds : EdsLib) : List Event → TblState → Prop where
  | start : CarefulRun cfg eds [] (TblState.earlyInit cfg)
  | next {es : List Event} {s s' : TblState} {e : Event} (hrun : CarefulRun cfg eds es s)
      (hcareful : e.Careful cfg s) (hstep : (e.run cfg eds).run s = .ok ((), s')) :
      CarefulRun cfg eds (es ++ [e]) s'

theorem CarefulRun.exec {es' : List Event} (hrun : CarefulRun cfg eds es s)
    (hcareful : ∀ e ∈ es', ∀ s, e.Careful cfg s) (h : exec cfg eds s es' = .ok s') :
    CarefulRun cfg eds (es ++ es') s' :=
  exec_append (fun e he _ s _ hrun hstep => hrun.next (hcareful e he s) hstep) hrun h

theorem CarefulRun.run (h : CarefulRun cfg eds es s) : Run cfg eds es s := by
  induction h with
  | start => exact .start
  | next hrun hcareful hstep ih => exact ih.next hstep

theorem loadBuffInv_earlyInit : LoadBuffInv cfg (TblState.earlyInit cfg) where
  owned := by
    refine Owned.empty (fun i => rfl) fun o => ?_
    cases o <;> rfl
  range o i ho := by
    cases o <;> cases ho
  records t := by
    refine ⟨fun hne => absurd rfl hne, fun hne => absurd rfl hne, fun huser => ?_⟩
    cases huser
  dumps d hd := by cases hd

theorem CarefulRun.inv (h : CarefulRun cfg eds es s) : LoadBuffInv cfg s := by
  induction h with
  | start => exact loadBuffInv_earlyInit
  | @next es s s' e hrun hcareful hstep ih =>
    have hdoes : Does cfg (e.Allows cfg s) (e.run cfg eds) s := e.does
    exact (wp_ok hdoes hstep).keeps hrun.run.useInv ih hcareful.not_allows.1

/-- A careful event finds every index of `LoadBuffs` in range. -/
theorem Event.Careful.in_range {e : Event} (hcareful : e.Careful cfg s) (huse : UseInv s)
    (hinv : LoadBuffInv cfg s) (i : Option Nat) : (e.run cfg eds).run s ≠ .error (.loadBuffs i) := by
  intro hfault
  have hdoes : Does cfg (e.Allows cfg s) (e.run cfg eds) s := e.does
  rcases wp_error hdoes hfault i rfl with hbad | ⟨s₁, t, hmoves, hsingle, hlip, hout⟩
  · exact hcareful.not_allows.2 hbad
  · have hinv₁ := hmoves.keeps huse hinv hcareful.not_allows.1
    exact hout (hinv₁.inRange hsingle hlip)

/-! ### Clean-up -/

/-- What becomes of the record of a table when a handle leaves its list. -/
structure Dropped (r : RegistryRec) (h : Nat) (r' : RegistryRec) : Prop where
  list : r'.accessList = r.accessList.erase h
  shared : r'.sharedBuffer = r.sharedBuffer ∨ r'.sharedBuffer = none
  last : r.accessList.erase h = [] → r.userDefAddr = false → r'.sharedBuffer = none

theorem removeAccessLink_dropped (h : Nat) : wp (removeAccessLink cfg h)
      (fun _ s' => ∃ r, Dropped (s.registry (s.handles h).regIndex) h r ∧
        s'.registry = Function.update s.registry (s.handles h).regIndex r)
      (fun _ => True) s := by
  have hunlinked : (unlinked s h).registry = Function.update s.registry (s.handles h).regIndex
      { s.registry (s.handles h).regIndex with
        accessList := (s.registry (s.handles h).regIndex).accessList.erase h } := rfl
  unfold removeAccessLink
  change wp (onlyIf (((unlinked s h).registry (s.handles h).regIndex).accessList.isEmpty &&
    !((unlinked s h).registry (s.handles h).regIndex).userDefAddr)
      (freeBuffers cfg (s.handles h).regIndex)) _ _ (unlinked s h)
  unfold onlyIf
  split
  · refine wp_imp (freeBuffers_emptied fun _ _ => .inr trivial) fun _ s' h' => ?_
    rw [hunlinked, Function.update_self] at h'
    rcases h' with ⟨hnone, rfl⟩ | ⟨i, hsingle, hlip, hlt, rfl⟩
    · refine ⟨_, ?_, (registry_emptied _ _).trans hunlinked⟩
      refine ⟨rfl, .inl rfl, fun _ _ => ?_⟩
      rcases hnone with hdouble | hlip
      · exact if_pos hdouble
      · unfold RegistryRec.sharedBuffer
        rw [hlip, ite_self]
    · refine ⟨{ s.registry (s.handles h).regIndex with
        accessList := (s.registry (s.handles h).regIndex).accessList.erase h
        loadInProgress := none }, ⟨rfl, .inr ?_, fun _ _ => ?_⟩, ?_⟩
      · simp [RegistryRec.sharedBuffer]
      · simp [RegistryRec.sharedBuffer]
      · simp
  · rename_i hcond
    refine ⟨_, ?_, hunlinked⟩
    refine ⟨rfl, .inl rfl, fun hlast huser => ?_⟩
    simp [hlast, huser] at hcond

/-- A handle of the application is dropped, or it is not one of its handles. -/
theorem dropHandle_dropped (app h : Nat) : wp (dropHandle cfg app h) (fun _ s' =>
        (¬((s.handles h).appId = some app ∧ (s.handles h).usedFlag = true) ∧ s' = s) ∨
        ((s.handles h).usedFlag = true ∧ (∀ a, a ≠ h → s'.handles a = s.handles a) ∧
          ∃ r, Dropped (s.registry (s.handles h).regIndex) h r ∧
            s'.registry = Function.update s.registry (s.handles h).regIndex r))
      (fun _ => True) s := by
  unfold dropHandle onlyIf
  simp only [wp_bind, wp_get]
  split
  · rename_i hcond
    simp only [Bool.and_eq_true, beq_iff_eq] at hcond
    have hdisown : wp (disown app (s.handles h).regIndex) (fun _ s₁ => s₁.handles = s.handles ∧
          ∃ o n, s₁.registry = Function.update s.registry (s.handles h).regIndex
            { s.registry (s.handles h).regIndex with ownerAppId := o, name := n })
        (fun _ => True) s := by
      unfold disown onlyIf
      simp only [wp_bind, wp_get]
      split
      · exact ⟨rfl, none, [], rfl⟩
      · exact ⟨rfl, _, _, (Function.update_eq_self _ s.registry).symm⟩
    refine wp_seq hdisown fun _ s₁ h₁ => ?_
    obtain ⟨hhandles₁, o, n, hregistry₁⟩ := h₁
    rw [wp_bind]
    refine wp_mono (wp_and (removeAccessLink_handles h) (removeAccessLink_dropped h))
      (fun _ s₂ h₂ => ?_) (fun _ _ => trivial)
    obtain ⟨hhandles₂, r, hdropped, hregistry₂⟩ := h₂
    rw [hhandles₁, hregistry₁] at hregistry₂
    rw [hhandles₁, hregistry₁, Function.update_self] at hdropped
    refine .inr ⟨hcond.2, fun a hah => ?_, r, ?_, ?_⟩
    · simp [hah, hhandles₂, hhandles₁]
    · exact ⟨hdropped.list, hdropped.shared, hdropped.last⟩
    · simpa using hregistry₂
  · rename_i hcond
    refine .inl ⟨?_, rfl⟩
    simpa using hcond

/-- Of the tables the application owned, the load has ended or the only user is still to
be dropped. -/
def ToDrop (cfg : TblConfig) (app : Nat) (s s' : TblState) : Prop :=
  ∀ t, (s.registry t).ownerAppId = some app → (s'.registry t).sharedBuffer = none ∨
    ∃ h < cfg.maxNumHandles, (s.registry t).accessList = [h] ∧
      (s'.registry t).accessList = [h] ∧ (s'.handles h).appId = some app

/-- The load of the tables that only `h` uses has ended. -/
def Ended (app : Nat) (s : TblState) (h : Nat) (s' : TblState) : Prop :=
  ∀ t, (s.registry t).ownerAppId = some app → (s.registry t).accessList = [h] →
    (s'.registry t).sharedBuffer = none

theorem dropHandle_frees {s₁ : TblState} (huse : UseInv s₁) (hinv : LoadBuffInv cfg s₁)
    {app : Nat} (hdrop : ToDrop cfg app s s₁) (h : Nat) :
    wp (dropHandle cfg app h) (fun _ s' => ToDrop cfg app s s' ∧ Ended app s h s' ∧
        ∀ t, (s₁.registry t).sharedBuffer = none → (s'.registry t).sharedBuffer = none)
      (fun _ => True) s₁ := by
  refine wp_imp (dropHandle_dropped app h) fun _ s₂ h₂ => ?_
  rcases h₂ with ⟨hnot, rfl⟩ | ⟨hused, hhandles, r, hdropped, hregistry⟩
  · -- a table whose only user is `h` is not one of those still to be dropped
    refine ⟨hdrop, fun t howner hlist => ?_, fun _ hnone => hnone⟩
    rcases hdrop t howner with hnone | ⟨a, -, hlist₀, hlist₂, happ⟩
    · exact hnone
    · obtain rfl : h = a := by simpa [hlist] using hlist₀
      refine absurd ⟨happ, ?_⟩ hnot
      exact (huse.used t h (by simp [hlist₂])).1
  have hother : ∀ t, t ≠ (s₁.handles h).regIndex → s₂.registry t = s₁.registry t := by
    intro t ht
    rw [hregistry, Function.update_of_ne ht]
  have hmine : s₂.registry (s₁.handles h).regIndex = r := by
    rw [hregistry, Function.update_self]
  have hkept : ∀ t, (s₁.registry t).sharedBuffer = none → (s₂.registry t).sharedBuffer = none := by
    intro t hnone
    by_cases ht : t = (s₁.handles h).regIndex
    · subst ht
      rw [hmine]
      rcases hdropped.shared with hsame | hgone
      · rw [hsame, hnone]
      · exact hgone
    · rw [hother t ht, hnone]
  -- the table of `h` has no other user, and was not of the kind that has no buffer
  have hended : ∀ a, (s₁.registry (s₁.handles h).regIndex).accessList = [a] →
      (s₂.registry (s₁.handles h).regIndex).sharedBuffer = none := by
    intro a hlist
    obtain rfl : h = a := by simpa [hlist] using huse.listed h hused
    by_cases hnone : (s₁.registry (s₁.handles h).regIndex).sharedBuffer = none
    · exact hkept _ hnone
    have hr := hinv.records (s₁.handles h).regIndex
    rw [hmine]
    refine hdropped.last (by simp [hlist]) ?_
    by_contra huser
    exact absurd (hr.userDef (by simpa using huser)) (by simp [hr.loadable hnone])
  refine ⟨fun t howner => ?_, fun t howner hlist => ?_, hkept⟩
  · rcases hdrop t howner with hnone | ⟨a, hlt, hlist₀, hlist₁, happ⟩
    · exact .inl (hkept t hnone)
    by_cases ht : t = (s₁.handles h).regIndex
    · subst ht
      exact .inl (hended a hlist₁)
    have hah : a ≠ h := by
      rintro rfl
      exact ht ((huse.used t a (by simp [hlist₁])).2).symm
    refine .inr ⟨a, hlt, hlist₀, ?_, ?_⟩
    · rw [hother t ht, hlist₁]
    · rw [hhandles a hah, happ]
  · rcases hdrop t howner with hnone | ⟨a, hlt, hlist₀, hlist₁, happ⟩
    · exact hkept t hnone
    · obtain rfl : h = a := by simpa [hlist] using hlist₀
      obtain rfl : (s₁.handles h).regIndex = t := (huse.used t h (by simp [hlist₁])).2
      exact hended h hlist₁

/-- The loads of the tables of a cleaned up application have ended. -/
theorem cleanUpApp_frees (huse : UseInv s) (hinv : LoadBuffInv cfg s) {app : Nat}
    (hcareful : (Event.cleanUpApp app).Careful cfg s) :
    wp (cleanUpApp cfg app) (fun _ s' => ∀ t, (s.registry t).ownerAppId = some app →
        (s'.registry t).sharedBuffer = none) (fun _ => True) s := by
  let P : Label → Prop := fun l => ∃ h, l = .unlink h
  have hP : ¬P .dumpClosed ∧ ¬P .dumpDropped := ⟨by simp [P], by simp [P]⟩
  unfold cleanUpApp
  rw [wp_bind]
  have hdumps : wp (forM (List.range cfg.maxSimultaneousLoads) (dropDump app))
      (fun _ s' => Moves cfg P s s' ∧ s'.handles = s.handles ∧ s'.registry = s.registry)
      (Fails cfg P s) s := by
    refine dropDumps_does app ?_
    rintro ⟨d, hd, hperformed, howner⟩
    exact absurd howner (hcareful.1 d hd hperformed)
  refine wp_mono hdumps (fun _ s₁ h₁ => ?_) (fun _ _ => trivial)
  obtain ⟨hm, hhandles, hregistry⟩ := h₁
  have hstart : UseInv s₁ ∧ LoadBuffInv cfg s₁ ∧ ToDrop cfg app s s₁ := by
    refine ⟨(hm.calm huse).inv, hm.keeps huse hinv hP, fun t howner => ?_⟩
    rw [hregistry, hhandles]
    by_cases hnone : (s.registry t).sharedBuffer = none
    · exact .inl hnone
    · obtain ⟨h, hlt, hlist, happ⟩ := hcareful.2 t howner hnone
      exact .inr ⟨h, hlt, hlist, hlist, happ⟩
  have hloop : wp (forM (List.range cfg.maxNumHandles) (dropHandle cfg app))
      (fun _ s' => (UseInv s' ∧ LoadBuffInv cfg s' ∧ ToDrop cfg app s s') ∧
        (∀ h ∈ List.range cfg.maxNumHandles, Ended app s h s') ∧
        ∀ h, Ended app s h s₁ → Ended app s h s')
      (fun _ => True) s₁ := by
    refine wp_forM_each (fun h _ s₂ h₂ => ?_) hstart
    obtain ⟨huse₂, hinv₂, hdrop₂⟩ := h₂
    have hmoves : wp (dropHandle cfg app h) (fun _ s' => Moves cfg P s₂ s' ∧
        ∀ a, (s'.handles a).appId = some app → (s₂.handles a).appId = some app)
        (Fails cfg P s₂) s₂ := dropHandle_does app h fun _ => ⟨h, rfl⟩
    refine wp_mono (wp_and hmoves (dropHandle_frees huse₂ hinv₂ hdrop₂ h)) (fun _ s₃ h₃ => ?_)
      (fun _ _ => trivial)
    obtain ⟨⟨hm₃, -⟩, hdrop₃, hended, hkept⟩ := h₃
    refine ⟨⟨(hm₃.calm huse₂).inv, hm₃.keeps huse₂ hinv₂ hP, hdrop₃⟩, hended, ?_⟩
    intro a ha t howner hlist
    exact hkept t (ha t howner hlist)
  refine wp_imp hloop fun _ s' h' t howner => ?_
  obtain ⟨⟨-, -, hdrop⟩, hall, -⟩ := h'
  rcases hdrop t howner with hnone | ⟨h, hlt, hlist, -, -⟩
  · exact hnone
  · exact hall h (mem_range.2 hlt) t howner hlist

/-- In a careful run a shared load buffer that is marked as taken has exactly one holder,
the load of a table or a dump, what a holder has is marked and is in range, no careful
event indexes `LoadBuffs` out of range, and the loads of the tables of an application end
when it is cleaned up. -/
theorem loadBuffs_owned {es : List Event} (hrun : CarefulRun cfg eds es s) :
    (∀ i, taken s i = true → ∃! o, held s o = some i) ∧
    (∀ o i, held s o = some i → i < cfg.maxSimultaneousLoads ∧ taken s i = true) ∧
    (∀ e : Event, e.Careful cfg s → ∀ i, (e.run cfg eds).run s ≠ .error (.loadBuffs i)) ∧
    ∀ app s', (Event.cleanUpApp app).Careful cfg s → (cleanUpApp cfg app).run s = .ok ((), s') →
      ∀ t, (s.registry t).ownerAppId = some app → held s' (.table t) = none := by
  have huse := hrun.run.useInv
  have hinv := hrun.inv
  refine ⟨fun i hi => hinv.owned.existsUnique hi, fun o i ho => ⟨hinv.range o i ho, ?_⟩,
    fun e hcareful => hcareful.in_range huse hinv, fun app s' hcareful hok => ?_⟩
  · exact (hinv.owned.taken_iff i).2 ⟨o, ho⟩
  · exact wp_ok (cleanUpApp_frees huse hinv hcareful) hok

end Runs

/-- A table of two bytes, loaded from a file, with a dump waiting. -/
def dumpWaiting : List Event :=
  [.register 1 ['T'] 2 ⟨false, false, false, false⟩ false true true,
    .load 1 0 (.file (tableFile 1 0 [1, 2])) fun _ => 0,
    .dumpCmd ['A', '.', 'T'] .active ['d'] (0, 0)]

/-- The state in which the dump is waiting. -/
def dumpWaitingState : TblState :=
  stateAfter smallTbl smallEds (TblState.earlyInit smallTbl) dumpWaiting

theorem exec_dumpWaiting : exec smallTbl smallEds (TblState.earlyInit smallTbl) dumpWaiting =
    .ok dumpWaitingState := exec_stateAfter (by decide +kernel)

theorem loadBuffs_owned_by_dump : CarefulRun smallTbl smallEds dumpWaiting dumpWaitingState ∧
    taken dumpWaitingState 0 = true ∧ ∃! o, held dumpWaitingState o = some 0 := by
  have hrun : CarefulRun smallTbl smallEds ([] ++ dumpWaiting) dumpWaitingState :=
    CarefulRun.start.exec (by simp [dumpWaiting, Event.Careful]) exec_dumpWaiting
  have htaken : taken dumpWaitingState 0 = true := by decide +kernel
  exact ⟨hrun, htaken, (loadBuffs_owned hrun).1 0 htaken⟩

/-- Housekeeping closes the dump of a table that is not being loaded and indexes
`LoadBuffs[-1]`; the clean-up of the application instead leaves the buffer of the dump
taken by nobody. -/
theorem dump_loses_buffer : ∃ s', Run smallTbl smallEds dumpWaiting dumpWaitingState ∧
    exec smallTbl smallEds dumpWaitingState [.housekeepingCmd] = .error (.loadBuffs none) ∧
    exec smallTbl smallEds dumpWaitingState [.cleanUpApp 1] = .ok s' ∧ taken s' 0 = true ∧
    (∀ t < smallTbl.maxNumTables, held s' (.table t) = none) ∧
    ∀ d < smallTbl.maxSimultaneousLoads, held s' (.dump d) = none := by
  refine ⟨_, Run.start.exec exec_dumpWaiting, exec_faultAfter (by decide +kernel),
    exec_stateAfter (by decide +kernel), ?_, ?_, ?_⟩ <;> decide +kernel

end CfsEds.Tbl
