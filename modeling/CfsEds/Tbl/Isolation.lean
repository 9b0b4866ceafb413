import CfsEds.Tbl.Moves
import Mathlib.Data.List.Nodup

/-!
# Readers of a table are left alone

`CFE_TBL_GetAddress` locks a handle and notes in it which buffer of the table the
address is in. Loads must not write that buffer while the handle is locked: a double
buffered table is only loaded into an inactive buffer that no handle notes, and a
single buffered one is only updated while no handle is locked.

`UseInv` is what the registry and the handles have to agree on for that, and it holds
in every run. `Guards s h t k` says that handle `h` protects buffer `k` of table `t`;
a call that does not give up `h` keeps the guard and the bytes behind it (`Calm`). The
one way to lose a guard without a release is to call `CFE_TBL_GetAddress` again after
an update of a double buffered table: the handle then notes the other buffer.

A run is made of whole calls. That is an assumption here, since the registry is not locked
during a call (`Run`).
-/

namespace CfsEds.Tbl

open CfsEds.Lib.Faults List Function

variable {b : BufRef} {es : List Event} {h t : Nat} {r : RegistryRec} {status status' : Status}
  {s s₁ s₂ : TblState}

/-- A registry record and the handles: a load that is in progress goes to the inactive
buffer, which no locked handle notes. -/
structure TableInv (handles : Nat → AccessDescriptor) (r : RegistryRec) : Prop where
  nodup : r.accessList.Nodup
  active_le : r.activeBufferIndex ≤ 1
  single : r.doubleBuffered = false → r.activeBufferIndex = 0
  inactive : ∀ k, r.doubleBuffered = true → r.loadInProgress = some k → k = 1 - r.activeBufferIndex
  unlocked : ∀ h ∈ r.accessList, (handles h).lockFlag = true → r.doubleBuffered = true →
    r.loadInProgress ≠ some (handles h).bufferIndex

/-- The handles, the access lists and the choice of the working buffer fit together. -/
structure UseInv (s : TblState) : Prop where
  listed : ∀ h, (s.handles h).usedFlag = true →
    h ∈ (s.registry (s.handles h).regIndex).accessList
  used : ∀ t h, h ∈ (s.registry t).accessList →
    (s.handles h).usedFlag = true ∧ (s.handles h).regIndex = t
  table : ∀ t, TableInv s.handles (s.registry t)

/-- Handle `h` protects buffer `k` of table `t`. -/
structure Guards (s : TblState) (h t k : Nat) : Prop where
  listed : h ∈ (s.registry t).accessList
  locked : (s.handles h).lockFlag = true
  index : (s.handles h).bufferIndex = k
  loaded : (s.registry t).tableLoadedOnce = true

/-- What a call keeps, for the handles it spares. -/
structure Calm (spares : Nat → Prop) (s s' : TblState) : Prop where
  inv : UseInv s'
  guards : ∀ h t k, spares h → Guards s h t k → Guards s' h t k
  bytes : ∀ h t k, spares h → Guards s h t k →
    (s'.buffers (.own t k)).bytes = (s.buffers (.own t k)).bytes

namespace Guards

variable {s s' : TblState} {k : Nat}

/-- What a handle protects is a matter of the registry and the handles. -/
theorem of_eq (hg : Guards s h t k) (hregistry : s'.registry = s.registry)
    (hhandles : s'.handles = s.handles) : Guards s' h t k := by
  obtain ⟨h₁, h₂, h₃, h₄⟩ := hg
  constructor <;> simp only [hregistry, hhandles] <;> assumption

/-- A table without users is not protected. -/
theorem ne {u : Nat} (hg : Guards s h t k) (hu : (s.registry u).accessList = []) : t ≠ u := by
  rintro rfl
  exact ne_nil_of_mem hg.listed hu

end Guards

namespace Calm

variable {spares spares' : Nat → Prop} {s s' s'' : TblState}

theorem refl (hinv : UseInv s) : Calm spares s s :=
  ⟨hinv, fun _ _ _ _ hg => hg, fun _ _ _ _ _ => rfl⟩

theorem trans (h : Calm spares s s') (h' : Calm spares s' s'') : Calm spares s s'' where
  inv := h'.inv
  guards a t k ha hg := h'.guards a t k ha (h.guards a t k ha hg)
  bytes a t k ha hg := (h'.bytes a t k ha (h.guards a t k ha hg)).trans (h.bytes a t k ha hg)

theorem mono (h : Calm spares s s') (hspares : ∀ a, spares' a → spares a) : Calm spares' s s' where
  inv := h.inv
  guards a t k ha hg := h.guards a t k (hspares a ha) hg
  bytes a t k ha hg := h.bytes a t k (hspares a ha) hg

/-- A registry record is replaced by one with the same users. -/
theorem setReg (hinv : UseInv s) (haccess : r.accessList = (s.registry t).accessList)
    (hr : TableInv s.handles r)
    (hloaded : (s.registry t).accessList ≠ [] → (s.registry t).tableLoadedOnce = true →
      r.tableLoadedOnce = true) : Calm spares s (s.setReg t r) := by
  have hlist : ∀ u, ((s.setReg t r).registry u).accessList = (s.registry u).accessList :=
    update_field RegistryRec.accessList haccess
  refine ⟨⟨?_, ?_, ?_⟩, ?_, fun _ _ _ _ _ => rfl⟩
  · intro h hh
    rw [hlist]
    exact hinv.listed h hh
  · intro u h hh
    rw [hlist] at hh
    exact hinv.used u h hh
  · intro u
    by_cases hu : u = t
    · subst hu
      simpa using hr
    · simpa [hu] using hinv.table u
  · intro h u k _ hg
    refine ⟨hlist u ▸ hg.listed, hg.locked, hg.index, ?_⟩
    by_cases hu : u = t
    · subst hu
      simpa using hloaded (ne_nil_of_mem hg.listed) hg.loaded
    · simpa [hu] using hg.loaded

/-- A load comes to an end, or something changes that is of no use to the readers. -/
theorem setReg_of_load (hinv : UseInv s) (haccess : r.accessList = (s.registry t).accessList)
    (hdouble : r.doubleBuffered = (s.registry t).doubleBuffered)
    (hactive : r.activeBufferIndex = (s.registry t).activeBufferIndex)
    (hload : r.loadInProgress = (s.registry t).loadInProgress ∨ r.loadInProgress = none)
    (hloaded : (s.registry t).tableLoadedOnce = true → r.tableLoadedOnce = true) :
    Calm spares s (s.setReg t r) := by
  have ht := hinv.table t
  refine setReg hinv haccess ⟨?_, ?_, ?_, ?_, ?_⟩ fun _ => hloaded
  · rw [haccess]
    exact ht.nodup
  · rw [hactive]
    exact ht.active_le
  · rw [hdouble, hactive]
    exact ht.single
  · rw [hdouble, hactive]
    intro k hk hlip
    rcases hload with hload | hload
    · exact ht.inactive k hk (hload ▸ hlip)
    · simp [hload] at hlip
  · rw [haccess, hdouble]
    intro h hh hlock hk
    rcases hload with hload | hload
    · rw [hload]
      exact ht.unlocked h hh hlock hk
    · simp [hload]

/-- Something else than the registry and the handles changes, and no bytes a handle
protects. -/
theorem of_eq (hinv : UseInv s) (hregistry : s'.registry = s.registry)
    (hhandles : s'.handles = s.handles)
    (hbytes : ∀ a t k, Guards s a t k →
      (s'.buffers (.own t k)).bytes = (s.buffers (.own t k)).bytes) :
    Calm spares s s' where
  inv := by
    obtain ⟨h₁, h₂, h₃⟩ := hinv
    constructor <;> simp only [hregistry, hhandles] <;> assumption
  guards a t k _ hg := hg.of_eq hregistry hhandles
  bytes a t k _ hg := hbytes a t k hg

/-- Buffers that no handle protects are filled. -/
theorem of_touched {B : Set BufRef} (h : Touched B s s') (hinv : UseInv s)
    (hB : ∀ a t k, Guards s a t k → .own t k ∉ B) : Calm spares s s' :=
  of_eq hinv h.registry h.handles fun a t k hg => by rw [h.frame _ (hB a t k hg)]

/-- The description of a buffer is changed. -/
theorem setBuff {v : LoadBuff} (hinv : UseInv s) (hv : v.bytes = (s.buffers b).bytes) :
    Calm spares s (s.setBuff b v) :=
  of_eq hinv rfl rfl fun _ t k _ => update_field LoadBuff.bytes hv (.own t k)

/-- The locks of handles change, and nothing else that counts for the readers. -/
theorem ofHandles {handles : Nat → AccessDescriptor} (hinv : UseInv s)
    (hsame : ∀ h, (handles h).usedFlag = (s.handles h).usedFlag ∧
      (handles h).regIndex = (s.handles h).regIndex)
    (hlock : ∀ t, ∀ h ∈ (s.registry t).accessList, (handles h).lockFlag = true →
      (s.registry t).doubleBuffered = true →
      (s.registry t).loadInProgress ≠ some (handles h).bufferIndex) :
    Calm (fun h => ((s.handles h).lockFlag = true → (handles h).lockFlag = true) ∧
      (handles h).bufferIndex = (s.handles h).bufferIndex) s { s with handles := handles } := by
  refine ⟨⟨?_, ?_, ?_⟩, ?_, fun _ _ _ _ _ => rfl⟩
  · intro h hh
    simp only [hsame h] at hh ⊢
    exact hinv.listed h hh
  · intro t h hh
    simp only [hsame h]
    exact hinv.used t h hh
  · intro t
    have ht := hinv.table t
    exact ⟨ht.nodup, ht.active_le, ht.single, ht.inactive, hlock t⟩
  · intro h t k hkept hg
    exact ⟨hg.listed, hkept.1 hg.locked, hkept.2.trans hg.index, hg.loaded⟩

/-- Handles are changed in nothing that counts for the readers. -/
theorem setHandles {handles : Nat → AccessDescriptor} (hinv : UseInv s)
    (hsame : ∀ h, ∃ app c, handles h = { s.handles h with appId := app, updated := c }) :
    Calm spares s { s with handles := handles } := by
  choose app c hc using hsame
  obtain rfl := funext hc
  refine mono (ofHandles hinv ?_ ?_) fun _ _ => ⟨id, rfl⟩
  · exact fun _ => ⟨rfl, rfl⟩
  · exact fun t => (hinv.table t).unlocked

theorem notified (hinv : UseInv s) (t : Nat) : Calm spares s (notified s t) := by
  have hreg : Calm spares s (s.setReg t
      { s.registry t with loadInProgress := none, loadPending := false, tableLoadedOnce := true }) :=
    setReg_of_load hinv rfl rfl rfl (.inr rfl) fun _ => rfl
  refine hreg.trans (setHandles hreg.inv fun h => ?_)
  split
  · exact ⟨_, true, rfl⟩
  · exact ⟨_, _, rfl⟩

end Calm

/-! ## Loads and updates -/

section Loads

variable {cfg : TblConfig} {eds : EdsLib} {s s' : TblState} {t : Nat} {spares : Nat → Prop}

/-- A buffer no handle protects. -/
def Unguarded (s : TblState) (b : BufRef) : Prop := ∀ h t k, Guards s h t k → b ≠ .own t k

theorem UseInv.unguarded_inactive (hinv : UseInv s) {k : Nat}
    (hdouble : (s.registry t).doubleBuffered = true)
    (hlip : (s.registry t).loadInProgress = some k) :
    Unguarded s (.own t (1 - (s.registry t).activeBufferIndex)) := by
  rintro h u j hg heq
  obtain ⟨rfl, rfl⟩ := BufRef.own.inj heq
  have hk := (hinv.table t).inactive k hdouble hlip
  refine (hinv.table t).unlocked h hg.listed hg.locked hdouble ?_
  rw [hlip, hg.index, hk]

/-- The inactive buffer is taken for a load, when no handle notes it. -/
theorem UseInv.takeOwn (hinv : UseInv s)
    (hfree : bufferLocked s t (1 - (s.registry t).activeBufferIndex) = false) :
    Calm spares s (takeOwn s t) := by
  have ht := hinv.table t
  refine Calm.setReg hinv rfl ⟨ht.nodup, ht.active_le, ht.single, ?_, ?_⟩ fun _ => id
  · intro k _ hk
    exact (Option.some.inj hk).symm
  · intro h hh hlock _ hindex
    simp only [bufferLocked, any_eq_false] at hfree
    exact hfree h hh (by simp [hlock, Option.some.inj hindex])

/-- A shared buffer is taken for a load. Nothing is said about `LoadInProgress` of a table
with one buffer. -/
theorem UseInv.takeShared (hinv : UseInv s) (hsingle : (s.registry t).doubleBuffered = false)
    (i : Nat) : Calm spares s (takeShared s t i) := by
  have hbuff : Calm spares s (s.setBuff (.shared i) { s.buffers (.shared i) with taken := true }) :=
    .setBuff hinv rfl
  have ht := hinv.table t
  refine hbuff.trans
    (Calm.setReg hbuff.inv rfl ⟨ht.nodup, ht.active_le, ht.single, ?_, ?_⟩ fun _ => id)
  · intro k hdouble _
    exact absurd hdouble (by simp [hsingle])
  · intro h _ _ hdouble
    exact absurd hdouble (by simp [hsingle])

theorem Working.calm {calledByApp : Bool} {r : Except Status BufRef}
    (h : Working cfg s t calledByApp r s') (hinv : UseInv s) (spares : Nat → Prop) :
    Calm spares s s' ∧ ∀ b, r = .ok b → Unguarded s' b := by
  cases h with
  | refused => exact ⟨Calm.refl hinv, by simp⟩
  | again hlip hdouble =>
    refine ⟨Calm.refl hinv, fun b hb => ?_⟩
    rw [← Except.ok.inj hb]
    exact hinv.unguarded_inactive hdouble hlip
  | againShared =>
    refine ⟨Calm.refl hinv, fun b hb => ?_⟩
    rw [← Except.ok.inj hb]
    simp [Unguarded]
  | direct hlip honce =>
    refine ⟨Calm.refl hinv, fun b hb => ?_⟩
    rw [← Except.ok.inj hb]
    rintro h u j hg heq
    obtain ⟨rfl, -⟩ := BufRef.own.inj heq
    exact absurd hg.loaded (by simp [honce])
  | inactive hlip hdouble hfree htouched =>
    have htake : Calm spares s (Tbl.takeOwn s t) := hinv.takeOwn hfree
    have hfree' : Unguarded (Tbl.takeOwn s t) (.own t (1 - (s.registry t).activeBufferIndex)) := by
      have h := htake.inv.unguarded_inactive (t := t) (k := 1 - (s.registry t).activeBufferIndex)
      simp only [Tbl.takeOwn, TblState.setReg, update_self] at h
      exact h hdouble trivial
    have htouch : Calm spares (Tbl.takeOwn s t) s' :=
      .of_touched htouched htake.inv fun a u k hg => (hfree' a u k hg).symm
    refine ⟨htake.trans htouch, fun b hb => ?_⟩
    rw [← Except.ok.inj hb]
    intro a u k hg
    exact hfree' a u k (hg.of_eq htouched.registry.symm htouched.handles.symm)
  | @shared i _ hlip hsingle hfree htouched =>
    have htake : Calm spares s (Tbl.takeShared s t i) := hinv.takeShared hsingle i
    refine ⟨htake.trans (.of_touched htouched htake.inv (by simp)), fun b hb => ?_⟩
    rw [← Except.ok.inj hb]
    simp [Unguarded]

theorem Updated.calm (h : Updated cfg s t status s') (hinv : UseInv s) : Calm spares s s' := by
  cases h with
  | idle => exact Calm.refl hinv
  | @swapped k hlip hpending hdouble =>
    -- the swap and the end of the load are one change: in between the load would go to
    -- the active buffer
    have ht := hinv.table t
    have hk := ht.inactive k hdouble hlip
    have hreg : Calm spares s (s.setReg t { s.registry t with
          activeBufferIndex := k
          loadInProgress := none
          loadPending := false
          tableLoadedOnce := true }) := by
      refine Calm.setReg hinv rfl ⟨ht.nodup, ?_, ?_, ?_, ?_⟩ fun _ _ => rfl
      · simp only
        omega
      · intro hsingle
        exact absurd hsingle (by simp [hdouble])
      · intro _ _ hnone
        simp at hnone
      · intro _ _ _ _
        simp
    have hnote : Calm spares _ (notified _ t) := Calm.notified hreg.inv t
    refine (hreg.trans hnote).trans (.of_eq hnote.inv ?_ ?_ fun _ _ _ _ => rfl)
    · simp [Tbl.notified]
    · simp [Tbl.notified]
  | @copied i s₁ s₂ hlip hlt hpending hsingle hunlocked htouched hs₂ =>
    subst hs₂
    have htouch : Calm spares s s₁ := by
      refine .of_touched htouched hinv fun a u k hg heq => ?_
      obtain ⟨rfl, -⟩ := BufRef.own.inj (Set.mem_singleton_iff.1 heq)
      exact absurd hg.locked (by simp [hunlocked a hg.listed])
    have hnote : Calm spares s₁
        (s₁.note (.activated t (.shared i) (image s t (.shared i)) (s.registry t).validationFunc)) :=
      .of_eq htouch.inv rfl rfl fun _ _ _ _ => rfl
    have hfreed : Calm spares _ (freed _ i) := .setBuff hnote.inv rfl
    exact ((htouch.trans hnote).trans hfreed).trans (.notified hfreed.inv t)

theorem Checked.calm {vf : Bytes → Int} {work : BufRef} (h : Checked s vf work t status status' s')
    (hinv : UseInv s) (hwork : Unguarded s work) : Calm spares s s' := by
  cases h with
  | skipped => exact Calm.refl hinv
  | passed => exact .of_eq hinv rfl rfl fun _ _ _ _ => rfl
  | failed hbad htouched =>
    have hnote : Calm spares s (s.note (.validation work (image s t work) (vf (image s t work)))) :=
      .of_eq hinv rfl rfl fun _ _ _ _ => rfl
    refine hnote.trans (.of_touched htouched hnote.inv fun a u k hg heq => ?_)
    exact hwork a u k ⟨hg.listed, hg.locked, hg.index, hg.loaded⟩ (Set.mem_singleton_iff.1 heq).symm

theorem Finished.calm (h : Finished cfg s t status status' s') (hinv : UseInv s) :
    Calm spares s s' := by
  cases h with
  | @freed i =>
    have hfreed : Calm spares s (Tbl.freed s i) := .setBuff hinv rfl
    exact hfreed.trans (.setReg_of_load hfreed.inv rfl rfl rfl (.inr rfl) id)
  | dropped => exact .setReg_of_load hinv rfl rfl rfl (.inr rfl) id
  | updated hgood honce h =>
    have hreg : Calm spares s (s.setReg t { s.registry t with loadPending := true }) :=
      .setReg_of_load hinv rfl rfl rfl (.inl rfl) id
    exact hreg.trans (h.calm hreg.inv)
  | first => exact .notified hinv t

/-- A load by an application, from the working buffer to the update. -/
theorem Calm.load {s₃ s₄ : TblState} {vf : Bytes → Int} {work : BufRef} {status'' : Status}
    (hinv : UseInv s) (h₁ : Working cfg s t true (.ok work) s₁)
    (h₂ : Touched (insert work (freeBuffs s₁)) s₁ s₂) (h₃ : Checked s₂ vf work t status status' s₃)
    (h₄ : Finished cfg s₃ t status' status'' s₄) : Calm spares s s₄ := by
  obtain ⟨hcalm, hfree⟩ := h₁.calm hinv spares
  have hwork := hfree work rfl
  have hcalm₂ : Calm spares s₁ s₂ := by
    refine .of_touched h₂ hcalm.inv fun a u k hg hmem => ?_
    rcases hmem with heq | ⟨i, heq, -⟩
    · exact hwork a u k hg heq.symm
    · cases heq
  have hwork₂ : Unguarded s₂ work := by
    intro a u k hg
    exact hwork a u k (hg.of_eq h₂.registry.symm h₂.handles.symm)
  have hcalm₃ : Calm spares s₂ s₃ := h₃.calm hcalm₂.inv hwork₂
  exact ((hcalm.trans hcalm₂).trans hcalm₃).trans (h₄.calm hcalm₃.inv)

/-- A ground load, as far as it gets. -/
theorem Calm.groundLoad (hinv : UseInv s) (h₁ : Working cfg s t false (.ok b) s₁)
    (h₂ : Touched {b} s₁ s₂) : Calm spares s s₂ := by
  obtain ⟨hcalm, hfree⟩ := h₁.calm hinv spares
  refine hcalm.trans (.of_touched h₂ hcalm.inv fun a u k hg heq => ?_)
  exact hfree b rfl a u k hg (Set.mem_singleton_iff.1 heq).symm

end Loads

/-! ## Handles come and go -/

section Handles

variable {cfg : TblConfig} {eds : EdsLib} {s s' : TblState} {spares : Nat → Prop}

/-- Only the handles on the access list count. -/
theorem TableInv.congr {handles handles' : Nat → AccessDescriptor} (h : TableInv handles r)
    (hsame : ∀ a ∈ r.accessList, handles' a = handles a) : TableInv handles' r := by
  refine ⟨h.nodup, h.active_le, h.single, h.inactive, ?_⟩
  intro a ha hlock hdouble
  rw [hsame a ha] at hlock ⊢
  exact h.unlocked a ha hlock hdouble

/-- The lock of a handle in use changes. -/
theorem Calm.setHandle (hinv : UseInv s) {d : AccessDescriptor}
    (hused : d.usedFlag = (s.handles h).usedFlag) (hreg : d.regIndex = (s.handles h).regIndex)
    (hlock : ∀ t, h ∈ (s.registry t).accessList → d.lockFlag = true →
      (s.registry t).doubleBuffered = true →
      (s.registry t).loadInProgress ≠ some d.bufferIndex) :
    Calm (fun a => a = h → d.lockFlag = true ∧ d.bufferIndex = (s.handles h).bufferIndex) s
      (s.setHandle h d) := by
  refine (Calm.ofHandles hinv ?_ ?_).mono ?_
  · exact fun a => ⟨update_field _ hused a, update_field _ hreg a⟩
  · intro t a ha halock hdouble
    by_cases hah : a = h
    · subst hah
      rw [update_self] at halock ⊢
      exact hlock t ha halock hdouble
    · rw [Function.update_of_ne hah] at halock ⊢
      exact (hinv.table t).unlocked a ha halock hdouble
  · intro a hkept
    by_cases hah : a = h
    · subst hah
      rw [update_self]
      exact ⟨fun _ => (hkept rfl).1, (hkept rfl).2⟩
    · rw [Function.update_of_ne hah]
      exact ⟨id, rfl⟩

/-- A handle that was free is put on the access list of a table. -/
theorem Calm.link (hinv : UseInv s) {d : AccessDescriptor}
    (hregistry : s'.registry = Function.update s.registry t r)
    (hhandles : s'.handles = Function.update s.handles h d)
    (hbytes : ∀ a u k, Guards s a u k →
      (s'.buffers (.own u k)).bytes = (s.buffers (.own u k)).bytes)
    (hfree : (s.handles h).usedFlag = false) (hused : d.usedFlag = true) (hreg : d.regIndex = t)
    (hlist : r.accessList = h :: (s.registry t).accessList) (hr : TableInv s'.handles r)
    (hloaded : (s.registry t).accessList ≠ [] → r.tableLoadedOnce = (s.registry t).tableLoadedOnce)
    : Calm spares s s' := by
  -- a handle on some list is in use, so it is not `h`
  have hne : ∀ u a, a ∈ (s.registry u).accessList → a ≠ h := by
    rintro u a ha rfl
    exact absurd (hinv.used u a ha).1 (by simp [hfree])
  have hold : ∀ u a, a ∈ (s.registry u).accessList → s'.handles a = s.handles a := by
    intro u a ha
    rw [hhandles, Function.update_of_ne (hne u a ha)]
  have hmem : ∀ u a, a ∈ (s.registry u).accessList → a ∈ (s'.registry u).accessList := by
    intro u a ha
    rw [hregistry]
    by_cases hu : u = t
    · subst hu
      rw [update_self, hlist]
      exact mem_cons_of_mem _ ha
    · rw [Function.update_of_ne hu]
      exact ha
  refine ⟨⟨?_, ?_, ?_⟩, ?_, ?_⟩
  · intro a ha
    by_cases hah : a = h
    · subst hah
      rw [hhandles, update_self, hreg, hregistry, update_self, hlist]
      exact mem_cons_self
    · rw [hhandles, Function.update_of_ne hah] at ha ⊢
      exact hmem _ a (hinv.listed a ha)
  · intro u a ha
    rw [hregistry] at ha
    by_cases hu : u = t
    · subst hu
      rw [update_self, hlist] at ha
      rcases mem_cons.1 ha with rfl | ha
      · rw [hhandles, update_self]
        exact ⟨hused, hreg⟩
      · rw [hold u a ha]
        exact hinv.used u a ha
    · rw [Function.update_of_ne hu] at ha
      rw [hold u a ha]
      exact hinv.used u a ha
  · intro u
    rw [hregistry]
    by_cases hu : u = t
    · subst hu
      rw [update_self]
      exact hr
    · rw [Function.update_of_ne hu]
      exact (hinv.table u).congr fun a ha => hold u a ha
  · intro a u k _ hg
    have hsame := hold u a hg.listed
    refine ⟨hmem u a hg.listed, hsame ▸ hg.locked, hsame ▸ hg.index, ?_⟩
    rw [hregistry]
    by_cases hu : u = t
    · subst hu
      rw [update_self, hloaded (ne_nil_of_mem hg.listed)]
      exact hg.loaded
    · rw [Function.update_of_ne hu]
      exact hg.loaded
  · intro a u k _ hg
    exact hbytes a u k hg

theorem handles_unlinked {a : Nat} (hah : a ≠ h) : (unlinked s h).handles a = s.handles a := by
  simp [hah]

theorem registry_unlinked (h u : Nat) : (unlinked s h).registry u =
    { s.registry u with accessList := ((unlinked s h).registry u).accessList } := by
  by_cases hu : u = (s.handles h).regIndex
  · subst hu
    simp
  · simp [hu]

section

variable (hinv : UseInv s)
include hinv

theorem UseInv.mem_unlinked (h u a : Nat) :
    a ∈ ((unlinked s h).registry u).accessList ↔ a ∈ (s.registry u).accessList ∧ a ≠ h := by
  by_cases hu : u = (s.handles h).regIndex
  · subst hu
    simp only [unlinked, TblState.setHandle, TblState.setReg, update_self]
    rw [(hinv.table _).nodup.mem_erase_iff]
    exact and_comm
  · simp only [unlinked, TblState.setHandle, TblState.setReg, Function.update_of_ne hu]
    refine ⟨fun ha => ⟨ha, ?_⟩, And.left⟩
    rintro rfl
    exact hu (hinv.used u a ha).2.symm

/-- A handle in use is taken off the access list of its table. -/
theorem Calm.unlink (h : Nat) : Calm (fun a => a ≠ h) s (unlinked s h) := by
  refine ⟨⟨?_, ?_, ?_⟩, ?_, fun _ _ _ _ _ => rfl⟩
  · intro a ha
    by_cases hah : a = h
    · subst hah
      simp at ha
    · rw [handles_unlinked hah] at ha ⊢
      exact (hinv.mem_unlinked h _ a).2 ⟨hinv.listed a ha, hah⟩
  · intro u a ha
    obtain ⟨ha, hah⟩ := (hinv.mem_unlinked h u a).1 ha
    rw [handles_unlinked hah]
    exact hinv.used u a ha
  · intro u
    have hu := hinv.table u
    have hnodup : ((unlinked s h).registry u).accessList.Nodup := by
      by_cases hut : u = (s.handles h).regIndex
      · subst hut
        simpa using hu.nodup.erase h
      · simpa [hut] using hu.nodup
    rw [registry_unlinked]
    refine ⟨hnodup, hu.active_le, hu.single, hu.inactive, ?_⟩
    intro a ha hlock hdouble
    obtain ⟨ha, hah⟩ := (hinv.mem_unlinked h u a).1 ha
    rw [handles_unlinked hah] at hlock ⊢
    exact hu.unlocked a ha hlock hdouble
  · intro a u k hah hg
    refine ⟨(hinv.mem_unlinked h u a).2 ⟨hg.listed, hah⟩, ?_, ?_, ?_⟩
    · rw [handles_unlinked hah]
      exact hg.locked
    · rw [handles_unlinked hah]
      exact hg.index
    · rw [registry_unlinked]
      exact hg.loaded

/-- The buffers of a table without users are given back. -/
theorem Calm.emptied {t : Nat} (ht : (s.registry t).accessList = []) :
    Calm spares s (emptied s t) := by
  unfold Tbl.emptied
  split
  · refine .of_eq hinv rfl rfl fun a u k hg => ?_
    simp [hg.ne ht]
  · refine .of_eq hinv rfl rfl fun a u k hg => ?_
    simp [hg.ne ht]

/-- The last handle of a table is taken off its list, and the table closed. -/
theorem Calm.close (hlast : (s.registry (s.handles h).regIndex).accessList.erase h = []) :
    Calm (fun a => a ≠ h) s (Tbl.emptied (unlinked s h) (s.handles h).regIndex) := by
  have hunlink := Calm.unlink hinv h
  refine hunlink.trans (.emptied hunlink.inv ?_)
  simpa using hlast

/-- A record without users is overwritten. -/
theorem Calm.initialized (bufs : Nat → LoadBuff) (ht : (s.registry t).accessList = [])
    (hlist : r.accessList = []) (hactive : r.activeBufferIndex = 0) (hlip : r.loadInProgress = none)
    : Calm spares s (initialized s t r bufs) := by
  have hreg : Calm spares s (s.setReg t r) := by
    refine .setReg hinv (by rw [hlist, ht]) ⟨?_, ?_, fun _ => hactive, ?_, ?_⟩
      fun hne => absurd ht hne
    · simp [hlist]
    · simp [hactive]
    · simp [hlip]
    · simp [hlist]
  refine hreg.trans (.of_eq hreg.inv rfl rfl fun a u k hg => ?_)
  have hu : u ≠ t := hg.ne (by simpa using hlist)
  simp [hu]

/-- A table is registered in a record without users, with a handle that was free. -/
theorem Calm.registered {t h : Nat} (ht : (s.registry t).accessList = [])
    (hh : (s.handles h).usedFlag = false) (app : Nat) (name : List Char) (size : Nat)
    (opts : TblOptions) (func : Bool) :
    Calm spares s ((Tbl.initialized s t (newRecord app h name size opts func)
      (newBuffers size opts true true)).setHandle h (newHandle (s.handles h) app t false)) := by
  refine Calm.link hinv rfl rfl ?_ hh rfl rfl ?_ ⟨?_, ?_, ?_, ?_, ?_⟩ fun hne => absurd ht hne
  · intro a u k hg
    simp [hg.ne ht]
  · simp [newRecord, ht]
  · simp [newRecord]
  · simp [newRecord, RegistryRec.init]
  · simp [newRecord, RegistryRec.init]
  · simp [newRecord, RegistryRec.init]
  · simp [newRecord, RegistryRec.init]

/-- A table gets another user. -/
theorem Calm.share (hunused : (s.handles h).usedFlag = false) (app : Nat) : Calm spares s
      ((s.setHandle h (newHandle (s.handles h) app t (s.registry t).tableLoadedOnce)).setReg t
        { s.registry t with accessList := h :: (s.registry t).accessList }) := by
  have hnot : ∀ u, h ∉ (s.registry u).accessList := by
    intro u hu
    exact absurd (hinv.used u h hu).1 (by simp [hunused])
  refine Calm.link hinv rfl rfl (fun _ _ _ _ => rfl) hunused rfl rfl rfl ?_ fun _ => rfl
  have hr := hinv.table t
  refine ⟨nodup_cons.2 ⟨hnot t, hr.nodup⟩, hr.active_le, hr.single, hr.inactive, ?_⟩
  intro a ha hlock hdouble
  simp only [TblState.setHandle, TblState.setReg] at ha hlock ⊢
  rcases mem_cons.1 ha with rfl | ha
  · simp at hlock
  · have hah : a ≠ h := fun heq => hnot t (heq ▸ ha)
    rw [Function.update_of_ne hah] at hlock ⊢
    exact hr.unlocked a ha hlock hdouble

/-- The handle notes the active buffer, which is not the one a load goes to. -/
theorem Calm.lock (h : Nat) : Calm (fun a => a = h → (s.handles h).bufferIndex =
      (s.registry (s.handles h).regIndex).activeBufferIndex) s (lockedState s h) := by
  refine Calm.mono (Calm.setHandle hinv ?_ ?_ ?_) fun a ha hah => ⟨?_, (ha hah).symm⟩
  · rfl
  · rfl
  swap
  · rfl
  intro t hmem _ hdouble hlip
  obtain rfl : (s.handles h).regIndex = t := (hinv.used t h hmem).2
  have hk : (s.registry (s.handles h).regIndex).activeBufferIndex =
      1 - (s.registry (s.handles h).regIndex).activeBufferIndex :=
    (hinv.table _).inactive _ hdouble hlip
  omega

theorem Calm.unlock (h : Nat) :
    Calm (fun a => a ≠ h) s (s.setHandle h { s.handles h with lockFlag := false }) := by
  refine Calm.mono (Calm.setHandle hinv ?_ ?_ ?_) fun a ha hah => absurd hah ha
  · rfl
  · rfl
  · intro t _ hlock
    simp at hlock

end

end Handles

/-! ## Moves -/

/-- The address of a dump only table is set before it counts as loaded. -/
theorem Calm.userDefined {s : TblState} {spares : Nat → Prop} (hinv : UseInv s) {t : Nat}
    (honce : (s.registry t).tableLoadedOnce = false) (v : LoadBuff) :
    Calm spares s
      ((s.setReg t { s.registry t with tableLoadedOnce := true }).setBuff (.own t 0) v) := by
  have hreg : Calm spares s (s.setReg t { s.registry t with tableLoadedOnce := true }) :=
    .setReg_of_load hinv rfl rfl rfl (.inl rfl) fun _ => rfl
  refine ⟨⟨hreg.inv.listed, hreg.inv.used, hreg.inv.table⟩, ?_, ?_⟩
  · intro a u k ha hg
    obtain ⟨h₁, h₂, h₃, h₄⟩ := hreg.guards a u k ha hg
    exact ⟨h₁, h₂, h₃, h₄⟩
  · intro a u k _ hg
    have hne : BufRef.own u k ≠ .own t 0 := by
      intro heq
      obtain ⟨rfl, -⟩ := BufRef.own.inj heq
      exact absurd hg.loaded (by simp [honce])
    simp [hne]

/-- A move keeps what the handles protect that it is not labelled with. -/
theorem Move.calm {cfg : TblConfig} {l : Option Label} {s' : TblState} {spares : Nat → Prop}
    (h : Move cfg l s s') (hinv : UseInv s)
    (hspares : ∀ a, spares a → l ≠ some (.lock a) ∧ l ≠ some (.unlink a)) : Calm spares s s' := by
  have hlock : ∀ h, l = some (.lock h) → ∀ a, spares a → a ≠ h := by
    rintro h rfl a ha rfl
    exact (hspares a ha).1 rfl
  have hunlink : ∀ h, l = some (.unlink h) → ∀ a, spares a → a ≠ h := by
    rintro h rfl a ha rfl
    exact (hspares a ha).2 rfl
  cases h with
  | result | dumpDropped | checked => exact .of_eq hinv rfl rfl fun _ _ _ _ => rfl
  | requested | disowned | activate => exact .setReg_of_load hinv rfl rfl rfl (.inl rfl) id
  | blank double bufs howner hlist => exact .initialized hinv bufs hlist rfl rfl rfl
  | registered app name size func howner hlist hunused =>
    exact .registered hinv hlist hunused app name size _ func
  | shared app howner hunused => exact .share hinv hunused app
  | unlinked => exact (Calm.unlink hinv _).mono (hunlink _ rfl)
  | emptied hused hlast => exact (Calm.close hinv hlast).mono (hunlink _ rfl)
  | @emptiedShared _ h i hused hlast =>
    have hclose : Calm spares s _ := (Calm.close hinv hlast).mono (hunlink h rfl)
    have hfreed : Calm spares s (freed _ i) := hclose.trans (.setBuff hclose.inv rfl)
    exact hfreed.trans (.setReg_of_load hfreed.inv rfl rfl rfl (.inr rfl) id)
  | @forgotten _ h =>
    refine .setHandles hinv fun a => ?_
    by_cases hah : a = h
    · subst hah
      exact ⟨none, _, update_self _ _ _⟩
    · exact ⟨_, _, Function.update_of_ne hah _ _⟩
  | locked =>
    exact (Calm.lock hinv _).mono fun a ha hah => absurd hah (hlock _ rfl a ha)
  | relocked hused hindex => exact (Calm.lock hinv _).mono fun _ _ _ => hindex
  | released h => exact (Calm.unlock hinv h).mono (hlock h rfl)
  | updated h => exact h.calm hinv
  | loaded hused hlip hdump hwork hdata hcheck hfinish => exact .load hinv hwork hdata hcheck hfinish
  | userDefined src honce => exact .userDefined hinv honce _
  | @passed _ t b =>
    have hnote : Calm spares s (s.note (.validation b (image s t b) 0)) :=
      .of_eq hinv rfl rfl fun _ _ _ _ => rfl
    exact hnote.trans (.setBuff hnote.inv rfl)
  | groundPartial howner hdump hpending hwork hdata => exact .groundLoad hinv hwork hdata
  | groundLoaded howner hdump hpending hwork hdata htaken hbytes =>
    have hload : Calm spares s _ := .groundLoad hinv hwork hdata
    exact hload.trans (.setBuff hload.inv hbytes)
  | groundRefused hwork => exact (hwork.calm hinv spares).1
  | @dumpFailed _ _ i d c hfree hd hc htouched =>
    have hdump : Calm spares s (s.setDump d c) := .of_eq hinv rfl rfl fun _ _ _ _ => rfl
    exact hdump.trans (.of_touched htouched hdump.inv (by simp))
  | @dumped _ _ i d c hfree hd hc hbuffer htouched =>
    have htake : Calm spares s
        (s.setBuff (.shared i) { s.buffers (.shared i) with taken := true }) := .setBuff hinv rfl
    have hdump : Calm spares s ((s.setBuff (.shared i)
        { s.buffers (.shared i) with taken := true }).setDump d c) :=
      htake.trans (.of_eq htake.inv rfl rfl fun _ _ _ _ => rfl)
    exact hdump.trans (.of_touched htouched hdump.inv (by simp))
  | aborted => exact .setReg_of_load hinv rfl rfl rfl (.inr rfl) id
  | @abortedShared _ t i =>
    have hfreed : Calm spares s (freed s i) := .setBuff hinv rfl
    exact hfreed.trans (.setReg_of_load hfreed.inv rfl rfl rfl (.inr rfl) id)
  | @dumpClosed _ d i =>
    have hfreed : Calm spares s (freed s i) := .setBuff hinv rfl
    have hcleared : Calm spares s (cleared (freed s i) (s.dumpControlBlocks d).regIndex) :=
      hfreed.trans (.setReg_of_load hfreed.inv rfl rfl rfl (.inr rfl) id)
    exact hcleared.trans (.of_eq hcleared.inv rfl rfl fun _ _ _ _ => rfl)

theorem Moves.calm {cfg : TblConfig} {P : Label → Prop} {s' : TblState} (h : Moves cfg P s s')
    (hinv : UseInv s) : Calm (fun a => ¬P (.lock a) ∧ ¬P (.unlink a)) s s' := by
  induction h with
  | refl => exact .refl hinv
  | tail _ hlast ih =>
    obtain ⟨l, hl, hmove⟩ := hlast
    refine ih.trans (hmove.calm ih.inv fun a ha => ⟨?_, ?_⟩)
    · rintro rfl
      exact ha.1 (hl _ rfl)
    · rintro rfl
      exact ha.2 (hl _ rfl)

/-! ## Runs -/

section Runs

variable {cfg : TblConfig} {eds : EdsLib} {s s' : TblState}

/-- The event makes handle `h` give up the buffer it protects. A second
`CFE_TBL_GetAddress` does so when another buffer has become the active one. -/
def Event.GivesUp (s : TblState) (h : Nat) : Event → Prop
  | .releaseAddress _ a => a = h
  | .unregister _ a => a = h
  | .cleanUpApp app => (s.handles h).appId = some app
  | .getAddress _ a => a = h ∧
    (s.handles h).bufferIndex ≠ (s.registry (s.handles h).regIndex).activeBufferIndex
  | _ => False

theorem Event.not_allows {e : Event} {a : Nat} (h : ¬e.GivesUp s a) :
    ¬e.Allows cfg s (.lock a) ∧ ¬e.Allows cfg s (.unlink a) := by
  cases e <;> simp_all [Event.GivesUp, Event.Allows, eq_comm]

/-- Every event keeps the agreement, and what the handles protect that it does not make
give up. -/
theorem Event.calm {e : Event} (hstep : (e.run cfg eds).run s = .ok ((), s')) (hinv : UseInv s) :
    Calm (fun a => ¬e.GivesUp s a) s s' := by
  have hdoes : Does cfg (e.Allows cfg s) (e.run cfg eds) s := e.does
  exact ((wp_ok hdoes hstep).calm hinv).mono fun a ha => e.not_allows ha

theorem useInv_earlyInit : UseInv (TblState.earlyInit cfg) where
  listed h hh := by simp [TblState.earlyInit] at hh
  used t h hh := by simp [TblState.earlyInit, RegistryRec.init] at hh
  table t := by
    constructor <;> simp [TblState.earlyInit, RegistryRec.init]

theorem Run.useInv (h : Run cfg eds es s) : UseInv s := by
  induction h with
  | start => exact useInv_earlyInit
  | next hrun hstep ih => exact (Event.calm hstep ih).inv

/-- What happens while handle `h` keeps what it protects. -/
inductive Holding (cfg : TblConfig) (eds : EdsLib) (h : Nat) (s : TblState) :
    List Event → TblState → Prop where
  | start : Holding cfg eds h s [] s
  | next {es : List Event} {s₁ s₂ : TblState} {e : Event} (hrun : Holding cfg eds h s es s₁)
      (hkeep : ¬e.GivesUp s₁ h) (hstep : (e.run cfg eds).run s₁ = .ok ((), s₂)) :
      Holding cfg eds h s (es ++ [e]) s₂

theorem Holding.kept {k : Nat} (hrun : Holding cfg eds h s es s') (hinv : UseInv s)
    (hg : Guards s h t k) :
    UseInv s' ∧ Guards s' h t k ∧ (s'.buffers (.own t k)).bytes = (s.buffers (.own t k)).bytes := by
  induction hrun with
  | start => exact ⟨hinv, hg, rfl⟩
  | next hrun hkeep hstep ih =>
    obtain ⟨hinv₁, hg₁, hbytes⟩ := ih
    have hcalm := Event.calm hstep hinv₁
    exact ⟨hcalm.inv, hcalm.guards h t k hkeep hg₁, (hcalm.bytes h t k hkeep hg₁).trans hbytes⟩

/-- The handle protects the buffer whose address it was given. -/
theorem getAddress_guards (hinv : UseInv s) {app : Nat}
    (hget : (getAddress cfg app h).run s = .ok ((status, some b), s'))
    (hloaded : (s.registry (s.handles h).regIndex).tableLoadedOnce = true) :
    UseInv s' ∧ ∃ t k, b = .own t k ∧ Guards s' h t k := by
  have hdoes : Does cfg (fun _ => True) (getAddress cfg app h) s :=
    getAddress_does app h fun _ => trivial
  refine ⟨((wp_ok hdoes hget).calm hinv).inv, ?_⟩
  have hspec : wp (getAddress cfg app h)
      (fun r s' => ∀ b, r.2 = some b → ∃ t k, b = .own t k ∧ Guards s' h t k) (fun _ => True) s := by
    unfold getAddress
    simp only [wp_bind, wp_get]
    split
    · simp
    rename_i haccess
    split
    · simp
    have hused := used_of_validateAccess haccess
    intro b hb
    refine ⟨_, _, (Option.some.inj hb).symm, ?_, ?_, ?_, ?_⟩
    · exact hinv.listed h hused
    · simp
    · simp
    · exact hloaded
  exact wp_ok hspec hget b rfl

/-- The bytes at an address obtained from `CFE_TBL_GetAddress` for a table that has been
loaded stay as they are, whatever is called by whom, as long as the handle is not made to
give them up and the calls do not overlap: `CFE_TBL_UpdateInternal` looks for locked handles
first and copies then, and a `CFE_TBL_GetAddress` of another task in between is not seen. -/
theorem reader_isolated {es es' : List Event} {s₁ s₂ : TblState} {app h : Nat} {status : Status}
    {b : BufRef} (hrun : Run cfg eds es s)
    (hget : (getAddress cfg app h).run s = .ok ((status, some b), s₁))
    (hloaded : (s.registry (s.handles h).regIndex).tableLoadedOnce = true)
    (hhold : Holding cfg eds h s₁ es' s₂) :
    (s₂.buffers b).bytes = (s₁.buffers b).bytes := by
  obtain ⟨hinv, t, k, rfl, hg⟩ := getAddress_guards hrun.useInv hget hloaded
  exact (hhold.kept hinv hg).2.2

theorem Holding.exec {es' : List Event} (hrun : Holding cfg eds h s es s₁)
    (hkeep : ∀ e ∈ es', ∀ s, ¬e.GivesUp s h) (hexec : exec cfg eds s₁ es' = .ok s₂) :
    Holding cfg eds h s (es ++ es') s₂ :=
  exec_append (fun e he _ s _ hrun hstep => hrun.next (hkeep e he s) hstep) hrun hexec

end Runs

/-- A double buffered table of two bytes, loaded with `01 02` by its owner. -/
def loadedTable : List Event :=
  [.register 1 ['T'] 2 ⟨true, false, false, false⟩ false true true,
    .load 1 0 (.address [] [1, 2]) fun _ => 0]

/-- The ground loads the inactive buffer, and the table is updated. -/
def groundUpdate : List Event :=
  [.loadCmd (tableFile 1 0 [3, 4]), .activateCmd ['A', '.', 'T'], .update 1 0]

/-- The address is asked for again, and the ground loads the buffer that is inactive now. -/
def secondLoad : List Event := [.getAddress 1 0, .loadCmd (tableFile 1 0 [5, 6])]

theorem run_loadedTable : ∃ s s₁ s₂ s₃, Run smallTbl smallEds loadedTable s ∧
    (s.registry (s.handles 0).regIndex).tableLoadedOnce = true ∧
    (getAddress smallTbl 1 0).run s = .ok ((.infoUpdated, some (.own 0 0)), s₁) ∧
    (s₁.buffers (.own 0 0)).bytes = [1, 2] ∧
    exec smallTbl smallEds s₁ groundUpdate = .ok s₂ ∧ (s₂.registry 0).activeBufferIndex = 1 ∧
    exec smallTbl smallEds s₂ secondLoad = .ok s₃ ∧ (s₃.buffers (.own 0 0)).bytes = [5, 6] := by
  refine ⟨_, _, _, _, Run.start.exec rfl, ?_, rfl, ?_, rfl, ?_, rfl, ?_⟩ <;> decide +kernel

/-- The owner keeps reading `01 02` although the other buffer is the active one now. -/
theorem reader_isolated_from_update : ∃ s s₁ s₂, Run smallTbl smallEds loadedTable s ∧
    (getAddress smallTbl 1 0).run s = .ok ((.infoUpdated, some (.own 0 0)), s₁) ∧
    exec smallTbl smallEds s₁ groundUpdate = .ok s₂ ∧ (s₂.registry 0).activeBufferIndex = 1 ∧
    (s₂.buffers (.own 0 0)).bytes = [1, 2] := by
  obtain ⟨s, s₁, s₂, _, hrun, honce, hget, hbytes, hexec, hactive, -, -⟩ := run_loadedTable
  refine ⟨s, s₁, s₂, hrun, hget, hexec, hactive, ?_⟩
  have hhold : Holding smallTbl smallEds 0 s₁ ([] ++ groundUpdate) s₂ :=
    Holding.exec .start (by simp [groundUpdate, Event.GivesUp]) hexec
  rw [reader_isolated hrun hget honce hhold, hbytes]

/-- The owner asks for the address once more, and what it was given first is overwritten,
although it never released it. -/
theorem reader_not_isolated : ∃ s s₁ s₂ s₃, Run smallTbl smallEds loadedTable s ∧
    (s.registry (s.handles 0).regIndex).tableLoadedOnce = true ∧
    (getAddress smallTbl 1 0).run s = .ok ((.infoUpdated, some (.own 0 0)), s₁) ∧
    exec smallTbl smallEds s₁ groundUpdate = .ok s₂ ∧
    exec smallTbl smallEds s₂ secondLoad = .ok s₃ ∧
    (s₁.buffers (.own 0 0)).bytes = [1, 2] ∧ (s₃.buffers (.own 0 0)).bytes = [5, 6] := by
  obtain ⟨s, s₁, s₂, s₃, hrun, honce, hget, hbytes, hexec, -, hexec', hbytes'⟩ := run_loadedTable
  exact ⟨s, s₁, s₂, s₃, hrun, honce, hget, hexec, hexec', hbytes, hbytes'⟩

end CfsEds.Tbl
