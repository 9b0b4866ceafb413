import CfsEds.Tbl.Isolation

/-!
# Loads and the ends of their buffers

A table file says at which offset of the table its data belong and how long they are,
both in 32 bits and both as the file likes. The ground load adds the two in 32 bits and
compares the sum with the size of the table; the load of an application compares it with
the packed size of the EDS type that the file names, and reads the data into a scratch
buffer of `CFE_PLATFORM_TBL_MAX_SNGL_TABLE_SIZE` bytes. Nothing else stands between the
file and the memory behind the buffer. `GroundOverrun` and `AppOverrun` say for which
files that is not enough: `loadCmd` and `load` leave a buffer for these and for no others.

All the other writes of a load stay inside, as long as the buffers have the sizes that
`SizeInv` gives them. They have them in every run (`Run.sizeInv`): the buffers of a table
are given back with its last handle, when the table has no owner any more, as an owner has
a handle itself (`OwnerInv`). The table task is let through to the handles of others by
`CFE_TBL_CheckAccessRights`; it is taken not to unregister them, which would leave an owner
without buffers.
-/

namespace CfsEds.Tbl

open CfsEds.Lib.Faults List

variable {calledByApp : Bool} {c work : BufRef} {vf : Bytes → Int} {hdr : FileHdr} {std : FsHeader}
  {app h t : Nat} {status status' : Status} {f : TableFile} {s' : TblState}

/-! ## Sizes -/

/-- The table has an owner or a user. -/
def Registered (s : TblState) (t : Nat) : Prop :=
  (s.registry t).ownerAppId ≠ none ∨ ∃ h, (s.handles h).usedFlag = true ∧ (s.handles h).regIndex = t

/-- The buffers of a table have its size, and the shared load buffers are long enough for
it where it uses them. -/
structure TableSized (cfg : TblConfig) (s : TblState) (t : Nat) : Prop where
  own : ∀ k, k = 0 ∨ k = 1 ∧ (s.registry t).doubleBuffered = true →
    (s.buffers (.own t k)).bytes.length = (s.registry t).size
  single : (s.registry t).doubleBuffered = false → (s.registry t).size ≤ cfg.maxSnglTableSize
  range : ∀ i, (s.registry t).doubleBuffered = false → (s.registry t).loadInProgress = some i →
    i < cfg.maxSimultaneousLoads

/-- The sizes of all the buffers that can be loaded. -/
structure SizeInv (cfg : TblConfig) (s : TblState) : Prop where
  shared : ∀ i, (s.buffers (.shared i)).bytes.length = cfg.maxSnglTableSize
  table : ∀ t, Registered s t → (s.registry t).dumpOnly = false → TableSized cfg s t

/-- The owner of a table has a handle on it. -/
def OwnerInv (s : TblState) : Prop :=
  ∀ t a, (s.registry t).ownerAppId = some a → ∃ h, (s.handles h).usedFlag = true ∧
    (s.handles h).regIndex = t ∧ (s.handles h).appId = some a

section Sizes

variable {cfg : TblConfig} {s s' : TblState}

theorem OwnerInv.registered (howned : OwnerInv s) (ht : Registered s t) :
    ∃ h, (s.handles h).usedFlag = true ∧ (s.handles h).regIndex = t := by
  rcases ht with howner | hused
  · obtain ⟨a, ha⟩ := Option.ne_none_iff_exists'.1 howner
    obtain ⟨h, hused, hindex, -⟩ := howned t a ha
    exact ⟨h, hused, hindex⟩
  · exact hused

/-- What the sizes are about, and that it is the same in two states. -/
structure SameSizes (cfg : TblConfig) (s s' : TblState) : Prop where
  length : ∀ b, (s'.buffers b).bytes.length = (s.buffers b).bytes.length
  size : ∀ t, (s'.registry t).size = (s.registry t).size
  double : ∀ t, (s'.registry t).doubleBuffered = (s.registry t).doubleBuffered
  dumpOnly : ∀ t, (s'.registry t).dumpOnly = (s.registry t).dumpOnly
  lip : ∀ t i, (s'.registry t).loadInProgress = some i →
    (s.registry t).loadInProgress = some i ∨ (s.registry t).doubleBuffered = true ∨
      i < cfg.maxSimultaneousLoads
  registered : ∀ t, Registered s' t → Registered s t
  owned : OwnerInv s → OwnerInv s'

namespace SameSizes

theorem refl (s : TblState) : SameSizes cfg s s where
  length _ := rfl
  size _ := rfl
  double _ := rfl
  dumpOnly _ := rfl
  lip _ _ h := .inl h
  registered _ h := h
  owned h := h

theorem trans {s'' : TblState} (h : SameSizes cfg s s') (h' : SameSizes cfg s' s'') :
    SameSizes cfg s s'' where
  length b := (h'.length b).trans (h.length b)
  size t := (h'.size t).trans (h.size t)
  double t := (h'.double t).trans (h.double t)
  dumpOnly t := (h'.dumpOnly t).trans (h.dumpOnly t)
  lip t i hi := by
    rcases h'.lip t i hi with hi | hdouble | hlt
    · exact h.lip t i hi
    · exact .inr (.inl ((h.double t).symm.trans hdouble))
    · exact .inr (.inr hlt)
  registered t ht := h.registered t (h'.registered t ht)
  owned howned := h'.owned (h.owned howned)

theorem of_touched {B : Set BufRef} (h : Touched B s s') : SameSizes cfg s s' where
  length := h.length
  size t := by rw [h.registry]
  double t := by rw [h.registry]
  dumpOnly t := by rw [h.registry]
  lip t i hi := .inl (by rwa [h.registry] at hi)
  registered t ht := by
    unfold Registered at ht ⊢
    rwa [h.registry, h.handles] at ht
  owned howned := by
    unfold OwnerInv at howned ⊢
    rwa [h.registry, h.handles]

/-- The description of a buffer changes. -/
theorem setBuff {b : BufRef} {v : LoadBuff} (hv : v.bytes.length = (s.buffers b).bytes.length) :
    SameSizes cfg s (s.setBuff b v) where
  length := update_field (fun v : LoadBuff => v.bytes.length) hv
  size _ := rfl
  double _ := rfl
  dumpOnly _ := rfl
  lip _ _ h := .inl h
  registered _ h := h
  owned h := h

/-- A field of a record changes that the sizes do not go by. -/
theorem setReg {r : RegistryRec} (hsize : r.size = (s.registry t).size)
    (hdouble : r.doubleBuffered = (s.registry t).doubleBuffered)
    (hdump : r.dumpOnly = (s.registry t).dumpOnly)
    (hlip : ∀ i, r.loadInProgress = some i → (s.registry t).loadInProgress = some i ∨
      (s.registry t).doubleBuffered = true ∨ i < cfg.maxSimultaneousLoads)
    (howner : r.ownerAppId = (s.registry t).ownerAppId ∨ r.ownerAppId = none) :
    SameSizes cfg s (s.setReg t r) := by
  -- an owner that is there now has been there before
  have howners : ∀ u a, ((s.setReg t r).registry u).ownerAppId = some a →
      (s.registry u).ownerAppId = some a := by
    intro u a ha
    by_cases hut : u = t
    · subst hut
      simp only [TblState.setReg, Function.update_self] at ha
      rcases howner with hsame | hnone
      · rwa [hsame] at ha
      · rw [hnone] at ha
        cases ha
    · simpa [hut] using ha
  refine ⟨fun _ => rfl, update_field _ hsize, update_field _ hdouble, update_field _ hdump,
    fun u i hi => ?_, fun u hu => ?_, fun howned u a ha => howned u a (howners u a ha)⟩
  · by_cases hut : u = t
    · subst hut
      exact hlip i (by simpa using hi)
    · exact .inl (by simpa [hut] using hi)
  · rcases hu with hu | hu
    · obtain ⟨a, ha⟩ := Option.ne_none_iff_exists'.1 hu
      exact .inl (by simp [howners u a ha])
    · exact .inr hu

/-- `setReg` with the owner and the load as they were. -/
theorem setReg_same {r : RegistryRec} (hsize : r.size = (s.registry t).size)
    (hdouble : r.doubleBuffered = (s.registry t).doubleBuffered)
    (hdump : r.dumpOnly = (s.registry t).dumpOnly)
    (hlip : r.loadInProgress = (s.registry t).loadInProgress ∨ r.loadInProgress = none)
    (howner : r.ownerAppId = (s.registry t).ownerAppId) : SameSizes cfg s (s.setReg t r) := by
  refine .setReg hsize hdouble hdump (fun i hi => ?_) (.inl howner)
  rcases hlip with hlip | hlip
  · exact .inl (hlip ▸ hi)
  · exact absurd hi (by simp [hlip])

/-- The handles change, but not whose they are and which tables they are for. -/
theorem setHandles {f : Nat → AccessDescriptor}
    (hf : ∀ h, (f h).usedFlag = (s.handles h).usedFlag ∧
      (f h).regIndex = (s.handles h).regIndex ∧ (f h).appId = (s.handles h).appId) :
    SameSizes cfg s { s with handles := f } where
  length _ := rfl
  size _ := rfl
  double _ := rfl
  dumpOnly _ := rfl
  lip _ _ h := .inl h
  registered t ht := by
    rcases ht with ht | ⟨h, hused, hindex⟩
    · exact .inl ht
    · have hh := hf h
      exact .inr ⟨h, hh.1 ▸ hused, hh.2.1 ▸ hindex⟩
  owned howned t a ha := by
    obtain ⟨h, hused, hindex, happ⟩ := howned t a ha
    have hh := hf h
    exact ⟨h, hh.1.trans hused, hh.2.1.trans hindex, hh.2.2.trans happ⟩

/-- One handle changes, and is for a registered table. -/
theorem setHandle {h : Nat} {d : AccessDescriptor} (hd : d.usedFlag = true → Registered s d.regIndex)
    (hkeep : (s.handles h).usedFlag = true → d.usedFlag = true ∧
      d.regIndex = (s.handles h).regIndex ∧ d.appId = (s.handles h).appId) :
    SameSizes cfg s (s.setHandle h d) where
  length _ := rfl
  size _ := rfl
  double _ := rfl
  dumpOnly _ := rfl
  lip _ _ h := .inl h
  registered u hu := by
    rcases hu with hu | ⟨a, hused, hindex⟩
    · exact .inl hu
    by_cases hah : a = h
    · subst hah
      simp only [TblState.setHandle_handles, Function.update_self] at hused hindex
      exact hindex ▸ hd hused
    · exact .inr ⟨a, by simpa [hah] using hused, by simpa [hah] using hindex⟩
  owned howned t a ha := by
    obtain ⟨b, hused, hindex, happ⟩ := howned t a ha
    refine ⟨b, ?_⟩
    by_cases hbh : b = h
    · subst hbh
      obtain ⟨hkept, hindex', happ'⟩ := hkeep hused
      simp [hkept, hindex', happ', hindex, happ]
    · simp [hbh, hused, hindex, happ]

/-- A part of the state that the sizes do not go by changes. -/
theorem of_eq (hregistry : s'.registry = s.registry) (hhandles : s'.handles = s.handles)
    (hbuffers : s'.buffers = s.buffers) : SameSizes cfg s s' where
  length b := by rw [hbuffers]
  size t := by rw [hregistry]
  double t := by rw [hregistry]
  dumpOnly t := by rw [hregistry]
  lip t i hi := .inl (by rwa [hregistry] at hi)
  registered t ht := by
    unfold Registered at ht ⊢
    rwa [hregistry, hhandles] at ht
  owned howned := by
    unfold OwnerInv at howned ⊢
    rwa [hregistry, hhandles]

theorem note (h : SameSizes cfg s s') (o : Obs) : SameSizes cfg s (s'.note o) :=
  ⟨h.length, h.size, h.double, h.dumpOnly, h.lip, h.registered, h.owned⟩

theorem notified (t : Nat) : SameSizes cfg s (notified s t) := by
  have hreg : SameSizes cfg s (s.setReg t
      { s.registry t with loadInProgress := none, loadPending := false, tableLoadedOnce := true }) :=
    .setReg_same rfl rfl rfl (.inr rfl) rfl
  refine hreg.trans (.setHandles fun h => ?_)
  split
  · exact ⟨rfl, rfl, rfl⟩
  · exact ⟨rfl, rfl, rfl⟩

/-- A handle is taken off its list, of a table that its application does not own. -/
theorem unlinked (hnot : (s.registry (s.handles h).regIndex).ownerAppId ≠ (s.handles h).appId) :
    SameSizes cfg s (unlinked s h) := by
  have hlist : SameSizes cfg s (s.setReg (s.handles h).regIndex
      { s.registry (s.handles h).regIndex with
        accessList := (s.registry (s.handles h).regIndex).accessList.erase h }) :=
    .setReg_same rfl rfl rfl (.inl rfl) rfl
  refine ⟨hlist.length, hlist.size, hlist.double, hlist.dumpOnly, hlist.lip, fun u hu => ?_,
    fun howned u a ha => ?_⟩
  · refine hlist.registered u (hu.imp_right ?_)
    rintro ⟨b, hused, hindex⟩
    by_cases hbh : b = h
    · subst hbh
      simp at hused
    · exact ⟨b, by simpa [hbh] using hused, by simpa [hbh] using hindex⟩
  · obtain ⟨b, hused, hindex, happ⟩ := hlist.owned howned u a ha
    have howner : (s.registry u).ownerAppId = some a := by
      rw [← ha]
      by_cases hut : u = (s.handles h).regIndex
      · simp [hut]
      · simp [hut]
    -- the owner's handle is another one
    have hbh : b ≠ h := by
      rintro rfl
      refine hnot ?_
      have hindex' : (s.handles b).regIndex = u := hindex
      rw [hindex', howner]
      exact happ.symm
    exact ⟨b, by simpa [hbh] using hused, by simpa [hbh] using hindex, by simpa [hbh] using happ⟩

end SameSizes

theorem TableSized.same (hsized : TableSized cfg s t) (h : SameSizes cfg s s') :
    TableSized cfg s' t where
  own k hk := by
    rw [h.double] at hk
    rw [h.length, h.size, hsized.own k hk]
  single hsingle := by
    rw [h.double] at hsingle
    rw [h.size]
    exact hsized.single hsingle
  range i hsingle hi := by
    rw [h.double] at hsingle
    rcases h.lip t i hi with hi | hdouble | hlt
    · exact hsized.range i hsingle hi
    · exact absurd hdouble (by simp [hsingle])
    · exact hlt

theorem SizeInv.same (hinv : SizeInv cfg s) (h : SameSizes cfg s s') : SizeInv cfg s' where
  shared i := (h.length _).trans (hinv.shared i)
  table t ht hdump := by
    rw [h.dumpOnly] at hdump
    exact (hinv.table t (h.registered t ht) hdump).same h

theorem Updated.sameSizes (h : Updated cfg s t status s') : SameSizes cfg s s' := by
  cases h with
  | idle => exact .refl s
  | @swapped k =>
    have hreg : SameSizes cfg s (s.setReg t { s.registry t with activeBufferIndex := k }) :=
      .setReg_same rfl rfl rfl (.inl rfl) rfl
    exact (hreg.note _).trans (.notified t)
  | @copied i s₁ s₂ hlip hlt hpending hsingle hunlocked htouched hs₂ =>
    have hcopied : SameSizes cfg s s₂ := by
      rw [hs₂]
      exact (SameSizes.of_touched htouched).note _
    have hfree : SameSizes cfg s₂ (freed s₂ i) := .setBuff rfl
    exact (hcopied.trans hfree).trans (.notified t)

theorem Working.sameSizes {r : Except Status BufRef} (h : Working cfg s t calledByApp r s') :
    SameSizes cfg s s' := by
  cases h with
  | refused | again | againShared | direct => exact .refl s
  | inactive hlip hdouble hfree htouched =>
    have htake : SameSizes cfg s (takeOwn s t) :=
      .setReg rfl rfl rfl (fun _ _ => .inr (.inl hdouble)) (.inl rfl)
    exact htake.trans (.of_touched htouched)
  | @shared i _ hlip hsingle hfree htouched =>
    have hmark : SameSizes cfg s
        (s.setBuff (.shared i) { s.buffers (.shared i) with taken := true }) := .setBuff rfl
    have hlt := (not_taken_of_findFree cfg hfree).1
    have htake : SameSizes cfg _ (takeShared s t i) := hmark.trans (.setReg rfl rfl rfl
        (fun j hj => .inr (.inr (Option.some.inj hj ▸ hlt))) (.inl rfl))
    exact htake.trans (.of_touched htouched)

theorem Checked.sameSizes (h : Checked s vf work t status status' s') : SameSizes cfg s s' := by
  cases h with
  | skipped => exact .refl s
  | passed => exact (SameSizes.refl s).note _
  | failed hbad htouched => exact ((SameSizes.refl s).note _).trans (.of_touched htouched)

theorem Finished.sameSizes (h : Finished cfg s t status status' s') : SameSizes cfg s s' := by
  cases h with
  | @freed i =>
    have hfree : SameSizes cfg s (Tbl.freed s i) := .setBuff rfl
    exact hfree.trans (.setReg_same rfl rfl rfl (.inr rfl) rfl)
  | dropped => exact .setReg_same rfl rfl rfl (.inr rfl) rfl
  | updated hgood honce h =>
    have hpending : SameSizes cfg s (s.setReg t { s.registry t with loadPending := true }) :=
      .setReg_same rfl rfl rfl (.inl rfl) rfl
    exact hpending.trans h.sameSizes
  | first => exact .notified t

/-- A record without users is overwritten; the table is not registered then. -/
theorem SizeInv.initialized (hinv : SizeInv cfg s) (r : RegistryRec) (bufs : Nat → LoadBuff)
    (ht : Registered (initialized s t r bufs) t → r.dumpOnly = false →
      TableSized cfg (initialized s t r bufs) t) : SizeInv cfg (initialized s t r bufs) where
  shared i := hinv.shared i
  table u hu hdump := by
    by_cases hut : u = t
    · subst hut
      refine ht hu ?_
      simpa using hdump
    have hreg : (Tbl.initialized s t r bufs).registry u = s.registry u := by
      simp [hut]
    have hbuf : ∀ k, (Tbl.initialized s t r bufs).buffers (.own u k) = s.buffers (.own u k) := by
      intro k
      simp [hut]
    unfold Registered at hu
    rw [hreg] at hu hdump
    have hsized := hinv.table u hu hdump
    refine ⟨fun k hk => ?_, ?_, ?_⟩
    · rw [hreg] at hk ⊢
      rw [hbuf, hsized.own k hk]
    · rw [hreg]
      exact hsized.single
    · rw [hreg]
      exact hsized.range

/-- The buffers of a new table have the size that was asked for. -/
theorem SizeInv.registered (hinv : SizeInv cfg s) {t h : Nat} {opts : TblOptions} {size : Nat}
    (app : Nat) (name : List Char) (func : Bool) (hunused : (s.handles h).usedFlag = false)
    (hopts : opts.usrDefAddr = true → opts.dumpOnly = true)
    (hsize : opts.dblBuffer = false → size ≤ cfg.maxSnglTableSize) :
    SizeInv cfg ((Tbl.initialized s t (newRecord app h name size opts func)
      (newBuffers size opts true true)).setHandle h (newHandle (s.handles h) app t false)) := by
  have hreg : (Tbl.initialized s t (newRecord app h name size opts func)
      (newBuffers size opts true true)).registry t = newRecord app h name size opts func := by
    simp
  have hinit : SizeInv cfg (Tbl.initialized s t (newRecord app h name size opts func)
      (newBuffers size opts true true)) := by
    refine hinv.initialized _ _ fun _ hdump => ⟨fun k hk => ?_, ?_, ?_⟩
    · have huser : opts.usrDefAddr = false := by
        by_contra huser
        exact absurd (hopts (by simpa using huser)) (by simpa [newRecord] using hdump)
      rw [hreg] at hk ⊢
      rcases hk with rfl | ⟨rfl, hdouble⟩
      · simp [newBuffers, huser, newRecord]
      · have hdouble : opts.dblBuffer = true := hdouble
        simp [newBuffers, hdouble, newRecord]
    · rw [hreg]
      exact hsize
    · rw [hreg]
      intro i _ hlip
      cases hlip
  -- the new handle is for the new table
  refine hinit.same (.setHandle (fun _ => .inl ?_) fun hused => absurd hused (by simp [hunused]))
  change ((Tbl.initialized s t _ _).registry t).ownerAppId ≠ none
  simp [newRecord]

/-- The owner of a new table has its first handle. -/
theorem OwnerInv.registered_new (howned : OwnerInv s) {t h : Nat} {opts : TblOptions} {size : Nat}
    (app : Nat) (name : List Char) (func : Bool) (hunused : (s.handles h).usedFlag = false) :
    OwnerInv ((Tbl.initialized s t (newRecord app h name size opts func)
      (newBuffers size opts true true)).setHandle h (newHandle (s.handles h) app t false)) := by
  intro u a ha
  by_cases hut : u = t
  · subst hut
    refine ⟨h, by simp, by simp, ?_⟩
    simpa [newRecord] using ha
  · obtain ⟨b, hused, hindex, happ⟩ := howned u a (by simpa [hut] using ha)
    have hbh : b ≠ h := by
      rintro rfl
      simp [hunused] at hused
    exact ⟨b, by simp [hbh, hused], by simp [hbh, hindex], by simp [hbh, happ]⟩

/-- Moves keep the sizes, as long as no table is closed. -/
theorem Move.sizes {l : Option Label} (h : Move cfg l s s') (huse : UseInv s)
    (hinv : SizeInv cfg s) (howned : OwnerInv s) (hl : ∀ a, l ≠ some (.unlink a)) :
    SizeInv cfg s' ∧ OwnerInv s' := by
  have hsame : ∀ {s' : TblState}, SameSizes cfg s s' → SizeInv cfg s' ∧ OwnerInv s' :=
    fun h => ⟨hinv.same h, h.owned howned⟩
  cases h with
  | result | dumpDropped => exact hsame (.of_eq rfl rfl rfl)
  | requested | activate =>
    exact hsame (.setReg_same rfl rfl rfl (.inl rfl) rfl)
  | @blank _ t double bufs howner hlist =>
    refine ⟨hinv.initialized _ _ fun hreg _ => ?_, fun u a ha => ?_⟩
    · -- nobody has a handle on the table
      rcases hreg with hreg | ⟨h, hused, hindex⟩
      · simp [RegistryRec.init] at hreg
      · have hmem : h ∈ (s.registry t).accessList := hindex ▸ huse.listed h hused
        simp [hlist] at hmem
    · by_cases hut : u = t
      · simp [hut, RegistryRec.init] at ha
      · exact howned u a (by simpa [hut] using ha)
  | registered app name size func howner hlist hunused hlt hopts hsize =>
    exact ⟨hinv.registered app name func hunused hopts hsize,
      howned.registered_new app name func hunused⟩
  | @shared _ t h app howner hunused =>
    have hself : SameSizes cfg s (s.setReg t
        { s.registry t with accessList := h :: (s.registry t).accessList }) :=
      .setReg_same rfl rfl rfl (.inl rfl) rfl
    refine hsame (hself.trans (.setHandle (fun _ => .inl ?_) fun hused => ?_))
    · simpa using howner
    · simp [hunused] at hused
  | disowned =>
    exact hsame (.setReg rfl rfl rfl (fun _ hi => .inl hi) (.inr rfl))
  | unlinked | emptied | emptiedShared => exact absurd rfl (hl _)
  | @forgotten _ h hunused =>
    exact hsame (.setHandle (fun hused => absurd hused (by simp [hunused]))
      fun hused => absurd hused (by simp [hunused]))
  | locked | relocked | released =>
    exact hsame (.setHandle (fun hused => .inr ⟨_, hused, rfl⟩) fun hused => ⟨hused, rfl, rfl⟩)
  | updated h => exact hsame h.sameSizes
  | loaded hused hlip hdump hwork hdata hcheck hfinish =>
    have hfilled := hwork.sameSizes.trans (.of_touched hdata)
    exact hsame ((hfilled.trans hcheck.sameSizes).trans hfinish.sameSizes)
  | @userDefined _ t src honce hdump =>
    obtain ⟨hset, hown⟩ : SizeInv cfg (s.setReg t { s.registry t with tableLoadedOnce := true }) ∧
        OwnerInv (s.setReg t { s.registry t with tableLoadedOnce := true }) :=
      hsame (.setReg_same rfl rfl rfl (.inl rfl) rfl)
    refine ⟨⟨fun i => ?_, fun u hu hd => ?_⟩, hown⟩
    · simpa using hset.shared i
    · have hut : u ≠ t := by
        rintro rfl
        simp [hdump] at hd
      have hsized := hset.table u hu hd
      refine ⟨fun k hk => ?_, hsized.single, hsized.range⟩
      have hown := hsized.own k hk
      simpa [hut] using hown
  | checked => exact hsame ((SameSizes.refl s).note _)
  | passed => exact hsame (((SameSizes.refl s).note _).trans (.setBuff rfl))
  | groundPartial howner hdump hpending hwork hdata =>
    exact hsame (hwork.sameSizes.trans (.of_touched hdata))
  | groundLoaded howner hdump hpending hwork hdata htaken hbytes =>
    have hfilled := hwork.sameSizes.trans (.of_touched hdata)
    exact hsame (hfilled.trans (.setBuff (congrArg List.length hbytes)))
  | groundRefused hwork => exact hsame hwork.sameSizes
  | @dumpFailed _ _ i d c hfree hd hc htouched =>
    have hdump : SameSizes cfg s (s.setDump d c) := .of_eq rfl rfl rfl
    exact hsame (hdump.trans (.of_touched htouched))
  | @dumped _ _ i d c hfree hd hc hbuffer htouched =>
    have hmark : SameSizes cfg s
        (s.setBuff (.shared i) { s.buffers (.shared i) with taken := true }) := .setBuff rfl
    have hdump : SameSizes cfg _
        ((s.setBuff (.shared i) { s.buffers (.shared i) with taken := true }).setDump d c) :=
      hmark.trans (.of_eq rfl rfl rfl)
    exact hsame (hdump.trans (.of_touched htouched))
  | aborted => exact hsame (.setReg_same rfl rfl rfl (.inr rfl) rfl)
  | @abortedShared _ t i =>
    have hfree : SameSizes cfg s (freed s i) := .setBuff rfl
    refine hsame (hfree.trans ?_)
    exact .setReg_same rfl rfl rfl (.inr rfl) rfl
  | @dumpClosed _ d i =>
    have hfree : SameSizes cfg s (freed s i) := .setBuff rfl
    have hclear : SameSizes cfg s (cleared (freed s i) (s.dumpControlBlocks d).regIndex) :=
      hfree.trans (.setReg_same rfl rfl rfl (.inr rfl) rfl)
    refine hsame (hclear.trans ?_)
    exact .of_eq rfl rfl rfl

theorem Moves.sizes {P : Label → Prop} (h : Moves cfg P s s') (huse : UseInv s)
    (hinv : SizeInv cfg s) (howned : OwnerInv s) (hP : ∀ a, ¬P (.unlink a)) :
    SizeInv cfg s' ∧ OwnerInv s' := by
  induction h with
  | refl => exact ⟨hinv, howned⟩
  | tail hfirst hlast ih =>
    obtain ⟨l, hl, hmove⟩ := hlast
    refine hmove.sizes (Moves.calm hfirst huse).inv ih.1 ih.2 fun a => ?_
    rintro rfl
    exact hP a (hl _ rfl)

/-! ### The end of a table -/

/-- The buffers of a table that nobody has any more are given back. -/
theorem SizeInv.emptied (hinv : SizeInv cfg s) (hnot : ¬Registered s t) :
    SizeInv cfg (emptied s t) where
  shared i := by
    rw [buffers_emptied_shared]
    exact hinv.shared i
  table u hu hdump := by
    have hregistered : Registered s u := by
      unfold Registered at hu ⊢
      rwa [registry_emptied, handles_emptied] at hu
    have hut : u ≠ t := by
      rintro rfl
      exact hnot hregistered
    have hbuf : ∀ k, (Tbl.emptied s t).buffers (.own u k) = s.buffers (.own u k) := by
      intro k
      unfold Tbl.emptied
      split <;> simp [hut]
    rw [registry_emptied] at hdump
    have hsized := hinv.table u hregistered hdump
    refine ⟨fun k hk => ?_, ?_, ?_⟩
    · rw [registry_emptied] at hk ⊢
      rw [hbuf, hsized.own k hk]
    · rw [registry_emptied]
      exact hsized.single
    · rw [registry_emptied]
      exact hsized.range

theorem removeAccessLink_sizes (huse : UseInv s) (hinv : SizeInv cfg s) (howned : OwnerInv s)
    (hnot : (s.registry (s.handles h).regIndex).ownerAppId ≠ (s.handles h).appId) :
    wp (removeAccessLink cfg h) (fun _ s' => SizeInv cfg s' ∧ OwnerInv s') (fun _ => True) s := by
  have hunlinked : SameSizes cfg s (unlinked s h) := .unlinked hnot
  have hinv₁ := hinv.same hunlinked
  have howned₁ := hunlinked.owned howned
  unfold removeAccessLink
  change wp (onlyIf (((unlinked s h).registry (s.handles h).regIndex).accessList.isEmpty &&
    !((unlinked s h).registry (s.handles h).regIndex).userDefAddr)
      (freeBuffers cfg (s.handles h).regIndex)) _ _ (unlinked s h)
  unfold onlyIf
  split
  · rename_i hcond
    simp only [Bool.and_eq_true, List.isEmpty_iff] at hcond
    -- no handle is left, and so no owner
    have hgone : ¬Registered (unlinked s h) (s.handles h).regIndex := by
      intro hregistered
      obtain ⟨a, hused, hindex⟩ := howned₁.registered hregistered
      have hmem := (Calm.unlink huse h).inv.listed a hused
      rw [hindex, hcond.1] at hmem
      cases hmem
    have hemptied := hinv₁.emptied hgone
    have howned₂ : OwnerInv (emptied (unlinked s h) (s.handles h).regIndex) := by
      unfold OwnerInv
      rw [registry_emptied, handles_emptied]
      exact howned₁
    refine wp_imp (freeBuffers_emptied fun _ _ => .inr trivial) fun _ s' h' => ?_
    rcases h' with ⟨-, rfl⟩ | ⟨i, -, -, -, rfl⟩
    · exact ⟨hemptied, howned₂⟩
    · have hfree : SameSizes cfg (emptied (unlinked s h) (s.handles h).regIndex)
          (freed (emptied (unlinked s h) (s.handles h).regIndex) i) := .setBuff rfl
      have hcleared := hfree.trans (.setReg_same (t := (s.handles h).regIndex)
        (r := { (emptied (unlinked s h) (s.handles h).regIndex).registry (s.handles h).regIndex with
          loadInProgress := none }) rfl rfl rfl (.inr rfl) rfl)
      exact ⟨hemptied.same hcleared, hcleared.owned howned₂⟩
  · exact ⟨hinv₁, howned₁⟩

/-- An application gives up a handle of its own, and with it the table if it owns it. -/
theorem leave_sizes (huse : UseInv s) (hinv : SizeInv cfg s) (howned : OwnerInv s)
    (hused : (s.handles h).usedFlag = true) (happ : (s.handles h).appId = some app) :
    wp (do disown app (s.handles h).regIndex; removeAccessLink cfg h)
      (fun _ s' => (SizeInv cfg s' ∧ OwnerInv s') ∧ (s'.handles h).usedFlag = false)
      (fun _ => True) s := by
  have hcalm : wp (disown app (s.handles h).regIndex) (fun _ s' => Moves cfg (fun _ => True) s s' ∧
      s'.handles = s.handles) (Fails cfg (fun _ => True) s) s := disown_does app hused
  have hdisown : wp (disown app (s.handles h).regIndex) (fun _ s' => SameSizes cfg s s' ∧
      (s'.registry (s.handles h).regIndex).ownerAppId ≠ some app) (fun _ => True) s := by
    unfold disown onlyIf
    simp only [wp_bind, wp_get]
    split
    · refine ⟨.setReg rfl rfl rfl (fun _ hi => .inl hi) (.inr rfl), ?_⟩
      simp
    · rename_i hother
      exact ⟨.refl s, by simpa using hother⟩
  rw [wp_bind]
  refine wp_mono (wp_and hcalm hdisown) (fun _ s₁ h₁ => ?_) (fun _ _ => trivial)
  obtain ⟨⟨hmoves, hhandles⟩, hsame, hnot⟩ := h₁
  have hnot₁ : (s₁.registry (s₁.handles h).regIndex).ownerAppId ≠ (s₁.handles h).appId := by
    rw [hhandles, happ]
    exact hnot
  refine wp_mono (wp_and (removeAccessLink_sizes (Moves.calm hmoves huse).inv (hinv.same hsame)
    (hsame.owned howned) hnot₁) (removeAccessLink_handles h)) (fun _ s₂ h₂ => ⟨h₂.1, ?_⟩)
    (fun _ _ => trivial)
  rw [h₂.2]
  simp

theorem unregister_sizes (huse : UseInv s) (hinv : SizeInv cfg s) (howned : OwnerInv s)
    (happ : app ≠ cfg.tableTaskAppId) :
    wp (unregister cfg app h) (fun _ s' => SizeInv cfg s' ∧ OwnerInv s') (fun _ => True) s := by
  unfold unregister
  simp only [wp_bind, wp_get]
  split
  · exact ⟨hinv, howned⟩
  · rename_i haccess
    have hown : (s.handles h).appId = some app := by
      by_contra hother
      unfold validateAccess checkAccessRights at haccess
      rw [if_neg hother, if_neg happ] at haccess
      revert haccess
      unfold validateHandle
      split_ifs <;> simp_all
    have hleave := leave_sizes huse hinv howned (used_of_validateAccess haccess) hown
    rw [wp_bind] at hleave ⊢
    refine wp_imp hleave fun _ s₁ h₁ => ?_
    rw [wp_bind]
    exact wp_imp h₁ fun _ _ h₂ => h₂.1

theorem cleanUpApp_sizes (huse : UseInv s) (hinv : SizeInv cfg s) (howned : OwnerInv s) :
    wp (cleanUpApp cfg app) (fun _ s' => SizeInv cfg s' ∧ OwnerInv s') (fun _ => True) s := by
  unfold cleanUpApp
  rw [wp_bind]
  have hdumps : wp (forM (List.range cfg.maxSimultaneousLoads) (dropDump app))
      (fun _ s' => Moves cfg (fun _ => True) s s' ∧ SameSizes cfg s s') (fun _ => True) s := by
    refine wp_forM (fun d _ s₁ h₁ => ?_) ⟨.refl, .refl s⟩
    unfold dropDump onlyIf
    simp only [wp_bind, wp_get]
    split
    · exact ⟨h₁.1.trans (.labelled (.dumpDropped d) trivial), h₁.2.trans (.of_eq rfl rfl rfl)⟩
    · exact h₁
  refine wp_imp hdumps fun _ s₁ h₁ => ?_
  have hloop : wp (forM (List.range cfg.maxNumHandles) (dropHandle cfg app))
      (fun _ s' => UseInv s' ∧ SizeInv cfg s' ∧ OwnerInv s') (fun _ => True) s₁ := by
    refine wp_forM (fun h _ s₂ h₂ => ?_)
      ⟨(Moves.calm h₁.1 huse).inv, hinv.same h₁.2, h₁.2.owned howned⟩
    obtain ⟨huse₂, hinv₂, howned₂⟩ := h₂
    have hdoes : wp (dropHandle cfg app h) (fun _ s' => Moves cfg (fun _ => True) s₂ s' ∧
        ∀ a, (s'.handles a).appId = some app → (s₂.handles a).appId = some app)
        (Fails cfg (fun _ => True) s₂) s₂ := dropHandle_does app h fun _ => trivial
    have hsizes : wp (dropHandle cfg app h) (fun _ s' => SizeInv cfg s' ∧ OwnerInv s')
        (fun _ => True) s₂ := by
      unfold dropHandle onlyIf
      simp only [wp_bind, wp_get]
      split
      · rename_i hcond
        simp only [Bool.and_eq_true, beq_iff_eq] at hcond
        have hleave := leave_sizes huse₂ hinv₂ howned₂ hcond.2 hcond.1
        rw [wp_bind] at hleave ⊢
        refine wp_imp hleave fun _ s₃ h₃ => ?_
        rw [wp_bind]
        refine wp_imp h₃ fun _ s₄ h₄ => ?_
        have hforget : SameSizes cfg s₄ (s₄.setHandle h { s₄.handles h with appId := none }) :=
          .setHandle (fun hused => absurd hused (by simp [h₄.2]))
            fun hused => absurd hused (by simp [h₄.2])
        exact ⟨h₄.1.1.same hforget, hforget.owned h₄.1.2⟩
      · exact ⟨hinv₂, howned₂⟩
    refine wp_mono (wp_and hdoes hsizes) (fun _ s₃ h₃ => ?_) (fun _ _ => trivial)
    exact ⟨(Moves.calm h₃.1.1 huse₂).inv, h₃.2⟩
  exact wp_imp hloop fun _ _ h₂ => h₂.2

theorem sizeInv_earlyInit : SizeInv cfg (TblState.earlyInit cfg) where
  shared i := length_replicate
  table t ht _ := by
    rcases ht with howner | ⟨h, hused, -⟩
    · exact absurd rfl howner
    · cases hused

/-- The sizes in a run in which the table task does not unregister the tables of others. -/
theorem Run.sizeInv {eds : EdsLib} {es : List Event} (hrun : Run cfg eds es s)
    (hes : ∀ e ∈ es, ∀ h, e ≠ .unregister cfg.tableTaskAppId h) : SizeInv cfg s ∧ OwnerInv s := by
  induction hrun with
  | start => exact ⟨sizeInv_earlyInit, fun _ _ h => by cases h⟩
  | @next es s s' e hrun hstep ih =>
    obtain ⟨hinv, howned⟩ := ih fun e' he' => hes e' (by simp [he'])
    have hother := hes e (by simp)
    have huse := hrun.useInv
    have hdoes : Does cfg (e.Allows cfg s) (e.run cfg eds) s := e.does
    have hmoves := wp_ok hdoes hstep
    cases e with
    | unregister app h =>
      have happ : app ≠ cfg.tableTaskAppId := by
        rintro rfl
        exact hother h rfl
      have hsizes : wp (Event.run cfg eds (.unregister app h))
          (fun _ s' => SizeInv cfg s' ∧ OwnerInv s') (fun _ => True) s := by
        change wp (do let _ ← unregister cfg app h) _ _ s
        rw [wp_bind]
        exact wp_imp (unregister_sizes huse hinv howned happ) fun _ _ h₁ => h₁
      have hkept := wp_ok hsizes hstep
      exact hkept
    | cleanUpApp app =>
      have hsizes : wp (Event.run cfg eds (.cleanUpApp app))
          (fun _ s' => SizeInv cfg s' ∧ OwnerInv s') (fun _ => True) s :=
        cleanUpApp_sizes huse hinv howned
      have hkept := wp_ok hsizes hstep
      exact hkept
    | _ => exact hmoves.sizes huse hinv howned fun a ha => ha

end Sizes

/-! ## Writes -/

section Writes

variable {cfg : TblConfig} {eds : EdsLib} {s : TblState} {t : Nat} {b : BufRef}

/-- The program ends, without any fault. -/
abbrev Completes {α : Type} (x : TblM α) (Q : α → TblState → Prop) (s : TblState) : Prop :=
  wp x Q (fun _ => False) s

/-- The program stops because of a write outside of a buffer. -/
abbrev Overruns {α : Type} (x : TblM α) (s : TblState) : Prop :=
  wp x (fun _ _ => False) Fault.IsWrite s

/-- What is known of a program, if it does not stop, together with that it does not. -/
theorem completes_of_wp {α : Type} {x : TblM α} {Q : α → TblState → Prop} {F : Fault → Prop}
    (h : wp x Q F s) (hends : Completes x (fun _ _ => True) s) : Completes x Q s :=
  wp_mono (wp_and h hends) (fun _ _ hQ => hQ.1) (fun _ hF => hF.2)

theorem writeBytes_fits {offset : Nat} {data : Bytes}
    (hfit : offset + data.length ≤ (s.buffers b).bytes.length) :
    Completes (writeBytes b offset data) (fun _ s' => Touched {b} s s') s := by
  simp only [Completes, writeBytes, wp_bind, wp_get]
  split
  · exact Touched.refl _ s
  · refine Touched.trans ?_ (Touched.note rfl)
    exact Touched.setBuff rfl rfl rfl (length_patch hfit)

theorem writeBytes_overruns {offset : Nat} {data : Bytes} (hdata : data ≠ [])
    (hout : (s.buffers b).bytes.length < offset + data.length) :
    Overruns (writeBytes b offset data) s := by
  simp only [Overruns, writeBytes, wp_bind, wp_get]
  rw [if_neg hdata, if_neg (by omega)]
  exact ⟨b, offset, data.length, rfl⟩

/-! ### Working buffers -/

/-- The working buffer a load of the table gets. -/
def workingBuffer (cfg : TblConfig) (s : TblState) (t : Nat) (calledByApp : Bool) : Option BufRef :=
  let r := s.registry t
  match r.loadInProgress with
  | some i => if r.doubleBuffered then some (.own t (1 - r.activeBufferIndex)) else some (.shared i)
  | none =>
    if !r.tableLoadedOnce && calledByApp then
      some (.own t (if r.doubleBuffered then r.activeBufferIndex else 0))
    else if r.doubleBuffered then
      if bufferLocked s t (1 - r.activeBufferIndex) then none
      else some (.own t (1 - r.activeBufferIndex))
    else (findFreeLoadBuff cfg s).map .shared

theorem own_length (hsized : TableSized cfg s t) (htable : TableInv s.handles (s.registry t)) :
    (s.buffers (.own t (s.registry t).activeBufferIndex)).bytes.length = (s.registry t).size ∧
      ((s.registry t).doubleBuffered = true →
        (s.buffers (.own t (1 - (s.registry t).activeBufferIndex))).bytes.length =
          (s.registry t).size) := by
  have hle := htable.active_le
  constructor
  · refine hsized.own _ ?_
    by_cases hdouble : (s.registry t).doubleBuffered = true
    · exact (Nat.le_one_iff_eq_zero_or_eq_one.1 hle).imp_right fun hone => ⟨hone, hdouble⟩
    · exact .inl (htable.single (by simpa using hdouble))
  · intro hdouble
    have hle : 1 - (s.registry t).activeBufferIndex ≤ 1 := by omega
    refine hsized.own _ ?_
    exact (Nat.le_one_iff_eq_zero_or_eq_one.1 hle).imp_right fun hone => ⟨hone, hdouble⟩

/-- A table fits into its working buffer. -/
theorem size_le_workingBuffer (hinv : SizeInv cfg s) (hsized : TableSized cfg s t)
    (htable : TableInv s.handles (s.registry t)) (hb : workingBuffer cfg s t calledByApp = some b) :
    (s.registry t).size ≤ (s.buffers b).bytes.length := by
  obtain ⟨hactive, hinactive⟩ := own_length hsized htable
  have hshared : ∀ i, (s.registry t).doubleBuffered = false →
      (s.registry t).size ≤ (s.buffers (.shared i)).bytes.length := by
    intro i hsingle
    rw [hinv.shared i]
    exact hsized.single hsingle
  unfold workingBuffer at hb
  cases hdouble : (s.registry t).doubleBuffered with
  | true =>
    simp only [hdouble, if_true] at hb
    split at hb
    · cases hb
      exact (hinactive hdouble).ge
    split at hb
    · cases hb
      exact hactive.ge
    split at hb
    · cases hb
    · cases hb
      exact (hinactive hdouble).ge
  | false =>
    simp only [hdouble, Bool.false_eq_true] at hb
    split at hb
    · cases hb
      exact hshared _ hdouble
    split at hb
    · cases hb
      exact (hsized.own 0 (.inl rfl)).ge
    · obtain ⟨i, -, rfl⟩ := Option.map_eq_some_iff.1 hb
      exact hshared i hdouble

theorem copyActive_fits (hfit : (s.registry t).size ≤ (s.buffers b).bytes.length) :
    Completes (copyActive t b) (fun _ s' => Touched {b} s s') s := by
  simp only [Completes, copyActive, wp_bind, wp_get]
  split
  · exact Touched.refl _ s
  · refine writeBytes_fits ?_
    rw [length_take]
    omega

/-- A working buffer is found without a fault, and it is the one foreseen. -/
theorem getWorkingBuffer_completes (hinv : SizeInv cfg s) (hsized : TableSized cfg s t)
    (htable : TableInv s.handles (s.registry t)) (calledByApp : Bool) :
    Completes (getWorkingBuffer cfg t calledByApp) (fun r s' => Working cfg s t calledByApp r s' ∧
        r.toOption = workingBuffer cfg s t calledByApp) s := by
  have hworking : wp (getWorkingBuffer cfg t calledByApp) (Working cfg s t calledByApp)
      Fault.IsWrite s := by
    refine getWorkingBuffer_working (fun _ he => he) fun hsingle hlip => .inl ?_
    obtain ⟨i, hi⟩ := Option.ne_none_iff_exists'.1 hlip
    exact ⟨i, hi, hsized.range i hsingle hi⟩
  have hfits : ∀ b, workingBuffer cfg s t calledByApp = some b →
      (s.registry t).size ≤ (s.buffers b).bytes.length :=
    fun _ => size_le_workingBuffer hinv hsized htable
  have hcompletes : Completes (getWorkingBuffer cfg t calledByApp)
      (fun r _ => r.toOption = workingBuffer cfg s t calledByApp) s := by
    unfold workingBuffer at hfits ⊢
    unfold Completes getWorkingBuffer
    rw [wp_bind, wp_get]
    dsimp only at hfits ⊢
    cases hlip : (s.registry t).loadInProgress with
    | some i =>
      dsimp only
      split
      · rfl
      rename_i hsingle
      have hlt := hsized.range i (by simpa using hsingle) hlip
      simp only [wp_bind, loadBuffIndex, if_pos hlt]
      rfl
    | none =>
      rw [hlip] at hfits
      dsimp only at hfits ⊢
      split
      · rfl
      rename_i hlater
      rw [if_neg hlater] at hfits
      split
      · rename_i hdouble
        rw [if_pos hdouble] at hfits
        split
        · rfl
        rename_i hfree
        rw [if_neg hfree] at hfits
        simp only [modifyReg, wp_bind, wp_modify]
        refine wp_imp (copyActive_fits ?_) fun _ _ _ => rfl
        simpa using hfits _ rfl
      · rename_i hsingle
        rw [if_neg hsingle] at hfits
        cases hfree : findFreeLoadBuff cfg s with
        | none => rfl
        | some =>
          rw [hfree] at hfits
          simp only [modifyBuff, modifyReg, wp_bind, wp_modify]
          refine wp_imp (copyActive_fits ?_) fun _ _ _ => rfl
          simpa using hfits _ rfl
  exact wp_mono (wp_and hworking hcompletes) (fun _ _ h => h) (fun _ h => h.2)

/-! ### The ground load -/

/-- The data of the file do not end where a buffer of this length does. -/
def Exceeds (f : TableFile) (hdr : FileHdr) (length : Nat) : Prop :=
  f.read hdr.numBytes ≠ [] ∧ length < hdr.offset.toNat + (f.read hdr.numBytes).length

theorem TableFile.length_read_le (f : TableFile) (numBytes : BitVec 32) :
    (f.read numBytes).length ≤ numBytes.toNat := by
  unfold TableFile.read
  split
  · exact Nat.zero_le _
  · exact length_take_le _ _

/-- The buffer a ground load of the file goes to. -/
def groundTarget (cfg : TblConfig) (s : TblState) (f : TableFile) : Option BufRef :=
  match readHeaders f with
  | .error _ => none
  | .ok (_, hdr) =>
    (findTableInRegistry cfg s hdr.tableName).bind fun t => workingBuffer cfg s t false

/-- `CFE_TBL_LoadCmd` gets as far as reading the data, and they do not fit. -/
def GroundOverrun (cfg : TblConfig) (s : TblState) (f : TableFile) : Prop :=
  f.opens = true ∧ ∃ std hdr t b, readHeaders f = .ok (std, hdr) ∧
    findTableInRegistry cfg s hdr.tableName = some t ∧ (s.registry t).dumpOnly = false ∧
    (s.registry t).loadPending = false ∧ loadAccepted (s.registry t) hdr = true ∧
    workingBuffer cfg s t false = some b ∧ Exceeds f hdr (s.buffers b).bytes.length

/-- Taking a working buffer changes the contents of no other. -/
theorem Working.bytes_frame (h : Working cfg s t calledByApp (.ok b) s') (hc : c ≠ b) :
    (s'.buffers c).bytes = (s.buffers c).bytes := by
  cases h with
  | again | againShared | direct => rfl
  | inactive hlip hdouble hfree htouched =>
    rw [htouched.frame c (by simpa using hc)]
    rfl
  | shared hlip hsingle hfree htouched =>
    rw [htouched.frame c (by simpa using hc)]
    simp [hc]

/-- The data of the file are read into a buffer. -/
theorem writeFile_completes (hfit : ¬Exceeds f hdr (s.buffers b).bytes.length) :
    Completes (writeBytes b hdr.offset.toNat (f.read hdr.numBytes))
      (fun _ s' => Touched {b} s s') s := by
  by_cases hdata : f.read hdr.numBytes = []
  · simp only [Completes, writeBytes, hdata, wp_bind, wp_get, if_true]
    exact Touched.refl _ s
  · refine writeBytes_fits ?_
    by_contra hout
    exact hfit ⟨hdata, by omega⟩

theorem readIntoBuffer_completes (hfit : ¬Exceeds f hdr (s.buffers b).bytes.length) :
    Completes (readIntoBuffer cfg f std hdr t b)
      (fun _ s' => ∀ c, c ≠ b → (s'.buffers c).bytes = (s.buffers c).bytes) s := by
  have hframe : ∀ {s₁}, Touched {b} s s₁ → ∀ c, c ≠ b → s₁.buffers c = s.buffers c :=
    fun h c hc => h.frame c (by simpa using hc)
  unfold readIntoBuffer
  rw [Completes, wp_bind]
  refine wp_imp (writeFile_completes hfit) fun _ s₁ h₁ => ?_
  split
  · intro c hc
    rw [hframe h₁ c hc]
  split
  · intro c hc
    rw [hframe h₁ c hc]
  · intro c hc
    simp [hc, hframe h₁ c hc]

theorem registered_of_findTable {name : List Char} (h : findTableInRegistry cfg s name = some t) :
    Registered s t := .inl (owned_of_findTable h)

/-- The ground load of a file that fits changes the contents of the working buffer only. -/
theorem loadCmd_completes (huse : UseInv s) (hinv : SizeInv cfg s) (hfit : ¬GroundOverrun cfg s f) :
    Completes (loadCmd cfg f) (fun _ s' => ∀ c, (s'.buffers c).bytes ≠ (s.buffers c).bytes →
      groundTarget cfg s f = some c) s := by
  have hsame : ∀ c, (s.buffers c).bytes ≠ (s.buffers c).bytes → groundTarget cfg s f = some c :=
    fun _ hne => absurd rfl hne
  unfold loadCmd
  simp only [Completes, wp_bind, wp_get]
  split
  · exact hsame
  rename_i hopens
  split
  · exact hsame
  rename_i std hdr hread
  split
  · exact hsame
  rename_i t ht
  split
  · exact hsame
  rename_i hfree
  split
  · exact hsame
  rename_i haccepted
  simp only [Bool.or_eq_true, not_or, Bool.not_eq_true] at hfree
  have hsized := hinv.table t (registered_of_findTable ht) hfree.1
  refine wp_seq (getWorkingBuffer_completes hinv hsized (huse.table t) false) fun r s₁ h₁ => ?_
  obtain ⟨hwork, hr⟩ := h₁
  cases r with
  | error =>
    cases hwork
    exact hsame
  | ok b =>
    have hb : workingBuffer cfg s t false = some b := hr.symm
    have hlength := (hwork.sameSizes).length b
    refine wp_imp (readIntoBuffer_completes ?_) fun _ s₂ h₂ => ?_
    · rw [hlength]
      intro hexceeds
      refine hfit ⟨by simpa using hopens, std, hdr, t, b, hread, ht, hfree.1, hfree.2, ?_,
        hb, hexceeds⟩
      simpa using haccepted
    · intro c hchanged
      have hcb : c = b := by
        by_contra hcb
        rw [h₂ c hcb, hwork.bytes_frame hcb] at hchanged
        exact hchanged rfl
      simp only [groundTarget, hread, ht, Option.bind_some, hb, hcb]

theorem loadCmd_overruns (huse : UseInv s) (hinv : SizeInv cfg s) (hover : GroundOverrun cfg s f) :
    Overruns (loadCmd cfg f) s := by
  obtain ⟨hopens, std, hdr, t, b, hread, ht, hdump, hpending, haccepted, hb, hdata, hout⟩ := hover
  have hsized := hinv.table t (registered_of_findTable ht) hdump
  unfold loadCmd
  simp only [Overruns, wp_bind, wp_get, hopens, Bool.not_true, Bool.false_eq_true, if_false, hread,
    ht, hdump, hpending, Bool.or_self, haccepted]
  refine wp_mono (getWorkingBuffer_completes hinv hsized (huse.table t) false)
    (fun r s₁ h₁ => ?_) (fun _ h => h.elim)
  obtain ⟨hwork, hr⟩ := h₁
  rw [hb] at hr
  cases r with
  | error => cases hr
  | ok b' =>
    obtain rfl : b' = b := Option.some.inj hr
    refine wp_seq (writeBytes_overruns hdata ?_) fun _ _ h => h.elim
    rwa [(hwork.sameSizes).length]

/-! ### The load of an application -/

/-- The scratch buffer of a load, whose working buffer is taken before. -/
def scratchBuffer (cfg : TblConfig) (s : TblState) (work : BufRef) : Option Nat :=
  (List.range cfg.maxSimultaneousLoads).find? fun i =>
    !(s.buffers (.shared i)).taken && decide (work ≠ .shared i)

/-- The tests `CFE_TBL_LoadFromFile` makes before it reads the data. -/
structure FileAccepted (cfg : TblConfig) (eds : EdsLib) (name : List Char) (f : TableFile)
    (std : FsHeader) (hdr : FileHdr) (info : TypeInfo) : Prop where
  filename : f.name.length ≤ cfg.maxPathLen - 1
  opens : f.opens = true
  headers : readHeaders f = .ok (std, hdr)
  typeInfo : eds.getTypeInfo hdr.edsId = some info
  tableName : name = hdr.tableName
  size : (hdr.offset + hdr.numBytes).toNat ≤ info.packedSize

/-- `CFE_TBL_Load` gets as far as reading the data of the file, and they do not fit. -/
def AppOverrun (cfg : TblConfig) (eds : EdsLib) (s : TblState) (app h : Nat) (f : TableFile) :
    Prop :=
  let t := (s.handles h).regIndex
  validateAccess cfg s h app = .success ∧ (s.registry t).dumpOnly = false ∧
    (s.registry t).loadInProgress = none ∧ ∃ work i std hdr info,
      workingBuffer cfg s t true = some work ∧ scratchBuffer cfg s work = some i ∧
      FileAccepted cfg eds (s.registry t).name f std hdr info ∧ Exceeds f hdr cfg.maxSnglTableSize

theorem loadFromFile_completes
    (hfit : ∀ std hdr info, FileAccepted cfg eds (s.registry t).name f std hdr info →
      ¬Exceeds f hdr (s.buffers b).bytes.length) :
    Completes (loadFromFile cfg eds f b t) (fun _ s' => Touched {b} s s') s := by
  refine completes_of_wp (loadFromFile_touches cfg eds f b t s) ?_
  unfold loadFromFile
  simp only [wp_bind, wp_get]
  split
  · trivial
  rename_i hfilename
  split
  · trivial
  rename_i hopens
  split
  · trivial
  rename_i std hdr hread
  split
  · trivial
  rename_i info hinfo
  split
  · trivial
  rename_i hname
  split
  · trivial
  rename_i hsize
  have hexceeds : ¬Exceeds f hdr (s.buffers b).bytes.length := by
    refine hfit std hdr info ⟨?_, ?_, hread, hinfo, not_not.1 hname, ?_⟩
    · omega
    · simpa using hopens
    · omega
  refine wp_seq (writeFile_completes hexceeds) fun _ s₁ _ => ?_
  split
  · trivial
  · split
    · trivial
    · trivial

theorem loadFromFile_overruns {info : TypeInfo}
    (hfile : FileAccepted cfg eds (s.registry t).name f std hdr info)
    (hover : Exceeds f hdr (s.buffers b).bytes.length) :
    Overruns (loadFromFile cfg eds f b t) s := by
  have hfilename := hfile.filename
  have hsize := hfile.size
  unfold loadFromFile
  simp only [Overruns, wp_bind, wp_get]
  rw [if_neg (by omega), if_neg (by simp [hfile.opens]), hfile.headers]
  dsimp only
  rw [hfile.typeInfo]
  dsimp only
  rw [if_neg (not_not.2 hfile.tableName), if_neg (by omega)]
  exact wp_seq (writeBytes_overruns hover.1 hover.2) fun _ _ h => h.elim

/-- Unpacking does not leave the native object. -/
theorem decodeFromMemory_completes (packed : Bytes) (edsId : Nat) :
    Completes (decodeFromMemory cfg eds packed edsId b t) (fun _ s' => Touched {b} s s') s := by
  refine completes_of_wp (decodeFromMemory_touches cfg eds packed edsId b t s) ?_
  unfold decodeFromMemory
  split
  · trivial
  rename_i info hinfo
  simp only [wp_bind, wp_get, modifyBuff, wp_modify]
  refine wp_imp (writeBytes_fits ?_) fun _ s₁ h₁ => ?_
  · rw [eds.length_unpack]
    simp
  · split
    · trivial
    refine wp_seq (writeBytes_fits ?_) fun _ s₂ h₂ => ?_
    · rw [eds.length_verify, eds.length_unpack, h₁.length]
      simp
    · split
      · trivial
      · trivial

/-- The scratch buffer is the first that is free after the working buffer has been taken. -/
theorem Working.findFreeLoadBuff (h : Working cfg s t true (.ok work) s')
    (hlip : (s.registry t).loadInProgress = none) :
    findFreeLoadBuff cfg s' = scratchBuffer cfg s work := by
  unfold Tbl.findFreeLoadBuff
  congr 1
  funext i
  cases h with
  | again hagain | againShared hagain => simp [hlip] at hagain
  | direct => simp
  | inactive _ hdouble hfree htouched =>
    rw [htouched.taken]
    simp
  | @shared j _ _ hsingle hfree htouched =>
    rw [htouched.taken]
    by_cases hij : i = j
    · subst hij
      simp
    · have hji : ¬j = i := fun h => hij h.symm
      simp [hij, hji]

theorem loadScratch_completes {i : Nat}
    (hfit : ∀ std hdr info, FileAccepted cfg eds (s.registry t).name f std hdr info →
      ¬Exceeds f hdr (s.buffers (.shared i)).bytes.length) :
    Completes (loadScratch cfg eds f work t i) (fun _ _ => True) s := by
  unfold loadScratch
  simp only [Completes, wp_bind, wp_get]
  refine wp_imp (loadFromFile_completes hfit) fun status s₁ h₁ => ?_
  have hdecode : Completes (onlyIf (status == .success) (do
      let _ ← decodeFromMemory cfg eds (s₁.buffers (.shared i)).bytes
        (s₁.buffers (.shared i)).edsContentId work t
      pure ())) (fun _ _ => True) s₁ := by
    unfold onlyIf
    split
    · rw [Completes, wp_bind]
      exact wp_imp (decodeFromMemory_completes _ _) fun _ _ _ => trivial
    · trivial
  exact wp_imp hdecode fun _ _ _ => trivial

theorem loadData_completes (hfit : ∀ i std hdr info, findFreeLoadBuff cfg s = some i →
      FileAccepted cfg eds (s.registry t).name f std hdr info →
      ¬Exceeds f hdr (s.buffers (.shared i)).bytes.length) :
    Completes (loadData cfg eds (.file f) work t)
      (fun _ s' => Touched (insert work (freeBuffs s)) s s') s := by
  refine completes_of_wp (loadData_touched cfg eds (.file f) work t s) ?_
  unfold loadData loadFromFileAndDecode
  simp only [wp_bind, wp_get]
  split
  · trivial
  rename_i i hi
  simp only [modifyBuff, wp_bind, wp_modify]
  refine wp_imp (loadScratch_completes fun std hdr info hfile => ?_) fun _ _ _ => trivial
  have hexceeds := hfit i std hdr info hi hfile
  simpa using hexceeds

theorem loadData_overruns {i : Nat} {info : TypeInfo} (hi : findFreeLoadBuff cfg s = some i)
    (hfile : FileAccepted cfg eds (s.registry t).name f std hdr info)
    (hover : Exceeds f hdr (s.buffers (.shared i)).bytes.length) :
    Overruns (loadData cfg eds (.file f) work t) s := by
  unfold loadData loadFromFileAndDecode loadScratch
  simp only [Overruns, wp_bind, wp_get, hi, modifyBuff, wp_modify]
  refine wp_imp (loadFromFile_overruns hfile ?_) fun _ _ h => h.elim
  simpa using hover

theorem validateLoad_completes (hfit : (s.registry t).size ≤ (s.buffers work).bytes.length) :
    Completes (validateLoad vf work t status) (Checked s vf work t status) s := by
  refine completes_of_wp (validateLoad_checked fun _ he => he) ?_
  unfold validateLoad
  simp only [Completes, wp_bind, wp_get]
  split
  · simp only [note, wp_bind, wp_modify]
    split
    · trivial
    · simp only [wp_bind]
      refine wp_imp (writeBytes_fits ?_) fun _ _ _ => trivial
      simpa using hfit
  · trivial

theorem updateInternal_completes (hsized : TableSized cfg s t) :
    Completes (updateInternal cfg t) (Updated cfg s t) s := by
  have hrange : (s.registry t).doubleBuffered = false → (s.registry t).loadInProgress ≠ none →
      InRange cfg (s.registry t).loadInProgress := by
    intro hsingle hlip
    obtain ⟨i, hi⟩ := Option.ne_none_iff_exists'.1 hlip
    exact ⟨i, hi, hsized.range i hsingle hi⟩
  refine completes_of_wp
    (updateInternal_updated (fun _ he => he) fun hsingle hlip => .inl (hrange hsingle hlip)) ?_
  unfold updateInternal
  simp only [Completes, wp_bind, wp_get]
  split
  · trivial
  rename_i k hlip
  split
  · trivial
  split
  · trivial
  rename_i hsingle
  split
  · trivial
  have hlt := hsized.range k (by simpa using hsingle) hlip
  simp only [wp_bind, loadBuffIndex, if_pos hlt, wp_pure]
  unfold copyLoaded
  simp only [wp_bind, wp_get]
  refine wp_imp (writeBytes_fits ?_) fun _ _ _ => trivial
  rw [hsized.own 0 (.inl rfl), length_take]
  omega

theorem finishLoad_completes (hsized : TableSized cfg s t)
    (hlip : (s.registry t).doubleBuffered = false → (s.registry t).tableLoadedOnce = true →
      InRange cfg (s.registry t).loadInProgress) :
    Completes (finishLoad cfg t status) (Finished cfg s t status) s := by
  refine completes_of_wp (finishLoad_finished (fun _ he => he)
    fun hsingle honce => .inl (hlip hsingle honce)) ?_
  unfold finishLoad
  simp only [Completes, wp_bind, wp_get]
  split
  · simp only [onlyIf, modifyReg, wp_ite, wp_bind, wp_modify]
    split
    · rename_i hshared
      simp only [Bool.and_eq_true, Bool.not_eq_eq_eq_not] at hshared
      exact loadBuffIndex_ok (.inl (hlip hshared.1 hshared.2)) fun _ _ _ => trivial
    · trivial
  split
  · refine wp_imp (updateInternal_completes ⟨?_, ?_, ?_⟩) fun _ _ _ => trivial
    · simpa using hsized.own
    · simpa using hsized.single
    · simpa using hsized.range
  · trivial

/-- The buffers that the load of an application may write to: those of the table, and the
shared ones nobody has taken. -/
def AppTarget (s : TblState) (t : Nat) (c : BufRef) : Prop :=
  (∃ k, c = .own t k) ∨ c ∈ freeBuffs s

/-- The contents of all other buffers stay. -/
def OnlyTargets (s : TblState) (t : Nat) (s' : TblState) : Prop :=
  ∀ c, ¬AppTarget s t c → (s'.buffers c).bytes = (s.buffers c).bytes

/-- A working buffer that is taken was free, or is one of the table. -/
theorem Working.target (h : Working cfg s t true (.ok work) s')
    (hlip : (s.registry t).loadInProgress = none) :
    AppTarget s t work ∧ freeBuffs s' ⊆ freeBuffs s := by
  cases h with
  | again hagain | againShared hagain => simp [hlip] at hagain
  | direct => exact ⟨.inl ⟨_, rfl⟩, subset_rfl⟩
  | inactive _ hdouble hfree htouched =>
    refine ⟨.inl ⟨_, rfl⟩, ?_⟩
    rintro _ ⟨i, rfl, hi⟩
    rw [htouched.taken] at hi
    exact ⟨i, rfl, hi⟩
  | @shared j _ _ hsingle hfree htouched =>
    refine ⟨.inr ⟨j, rfl, (not_taken_of_findFree cfg hfree).2⟩, ?_⟩
    rintro _ ⟨i, rfl, hi⟩
    rw [htouched.taken] at hi
    by_cases hij : i = j
    · subst hij
      simp at hi
    · exact ⟨i, rfl, by simpa [hij] using hi⟩

/-- After its first load a single buffered table has taken a shared buffer. -/
theorem Working.inRange (h : Working cfg s t true (.ok work) s')
    (hlip : (s.registry t).loadInProgress = none) (hsingle : (s'.registry t).doubleBuffered = false)
    (honce : (s'.registry t).tableLoadedOnce = true) :
    InRange cfg (s'.registry t).loadInProgress := by
  cases h with
  | again hagain | againShared hagain => simp [hlip] at hagain
  | direct _ hfirst => simp [hfirst] at honce
  | inactive _ hdouble hfree htouched =>
    rw [htouched.registry] at hsingle
    simp [hdouble] at hsingle
  | @shared j _ _ _ hfree htouched =>
    rw [htouched.registry]
    exact ⟨j, by simp, (not_taken_of_findFree cfg hfree).1⟩

theorem Checked.registry (h : Checked s vf work t status status' s') :
    s'.registry = s.registry := by
  cases h with
  | skipped | passed => rfl
  | failed hbad htouched => exact htouched.registry

theorem Checked.bytes_frame (h : Checked s vf work t status status' s') (hc : c ≠ work) :
    (s'.buffers c).bytes = (s.buffers c).bytes := by
  cases h with
  | skipped | passed => rfl
  | failed hbad htouched => exact congrArg LoadBuff.bytes (htouched.frame c (by simpa using hc))

theorem Updated.bytes_frame (h : Updated cfg s t status s') (hc : c ≠ .own t 0) :
    (s'.buffers c).bytes = (s.buffers c).bytes := by
  cases h with
  | idle | swapped => rfl
  | @copied i s₁ s₂ hlip hlt hpending hsingle hunlocked htouched hs₂ =>
    have hbytes : (s₁.buffers c).bytes = (s.buffers c).bytes := by
      rw [htouched.frame c (by simpa using hc)]
    by_cases hci : c = .shared i
    · subst hci
      simpa [notified, hs₂] using hbytes
    · simpa [notified, hs₂, hci] using hbytes

theorem Finished.bytes_frame (h : Finished cfg s t status status' s') (hc : c ≠ .own t 0) :
    (s'.buffers c).bytes = (s.buffers c).bytes := by
  cases h with
  | @freed i =>
    by_cases hci : c = .shared i
    · subst hci
      simp
    · simp [hci]
  | dropped | first => rfl
  | updated hgood honce h => exact h.bytes_frame hc

/-- The load of a file that fits changes the contents of the buffers meant for it only. -/
theorem loadTable_completes (huse : UseInv s) (hinv : SizeInv cfg s) (hsized : TableSized cfg s t)
    (hlip : (s.registry t).loadInProgress = none) (vf : Bytes → Int)
    (hfit : ∀ work i std hdr info, workingBuffer cfg s t true = some work →
      scratchBuffer cfg s work = some i →
      FileAccepted cfg eds (s.registry t).name f std hdr info →
      ¬Exceeds f hdr cfg.maxSnglTableSize) :
    Completes (loadTable cfg eds (.file f) vf t) (fun _ s' => OnlyTargets s t s') s := by
  unfold loadTable
  rw [Completes, wp_bind]
  refine wp_imp (getWorkingBuffer_completes hinv hsized (huse.table t) true) fun r s₁ h₁ => ?_
  obtain ⟨hwork, hr⟩ := h₁
  cases r with
  | error =>
    cases hwork
    exact fun _ _ => rfl
  | ok work =>
    have hb := hr.symm
    have hsizes₁ : SameSizes cfg s s₁ := hwork.sameSizes
    obtain ⟨lip, hregistry₁⟩ := hwork.registry
    have hname : (s₁.registry t).name = (s.registry t).name := by simp [hregistry₁]
    have hloaded : Completes (loadData cfg eds (.file f) work t)
        (fun _ s₂ => Touched (insert work (freeBuffs s₁)) s₁ s₂) s₁ := by
      refine loadData_completes fun i std hdr info hi hfile => ?_
      rw [hwork.findFreeLoadBuff hlip] at hi
      rw [hname] at hfile
      rw [hsizes₁.length, hinv.shared]
      exact hfit work i std hdr info hb hi hfile
    refine wp_seq hloaded fun status s₂ h₂ => ?_
    have hsizes₂ : SameSizes cfg s s₂ := hsizes₁.trans (.of_touched h₂)
    refine wp_seq (validateLoad_completes ?_) fun status' s₃ h₃ => ?_
    · rw [hsizes₂.size, hsizes₂.length]
      exact size_le_workingBuffer hinv hsized (huse.table t) hb
    · have hsizes₃ : SameSizes cfg s s₃ := hsizes₂.trans h₃.sameSizes
      have hregistry₃ : s₃.registry = s₁.registry := h₃.registry.trans h₂.registry
      refine wp_imp (finishLoad_completes ?_ ?_) fun _ s₄ h₄ => ?_
      · exact hsized.same hsizes₃
      · -- the first load is the only one of a single buffered table without a shared buffer
        rw [hregistry₃]
        exact hwork.inRange hlip
      · obtain ⟨htarget, hfree⟩ := hwork.target hlip
        intro c hc
        have hcw : c ≠ work := fun heq => hc (heq ▸ htarget)
        have hcf : c ∉ freeBuffs s₁ := fun hmem => hc (.inr (hfree hmem))
        have hown : c ≠ .own t 0 := fun heq => hc (.inl ⟨0, heq⟩)
        rw [h₄.bytes_frame hown, h₃.bytes_frame hcw, h₂.frame c (by simp [hcw, hcf]),
          hwork.bytes_frame hcw]

theorem registered_of_validateAccess (hok : validateAccess cfg s h app = .success) :
    Registered s (s.handles h).regIndex :=
  .inr ⟨h, used_of_validateAccess (not_not.2 hok), rfl⟩

theorem load_completes (huse : UseInv s) (hinv : SizeInv cfg s) (vf : Bytes → Int)
    (hfit : ¬AppOverrun cfg eds s app h f) :
    Completes (load cfg eds app h (.file f) vf)
      (fun _ s' => (s.registry (s.handles h).regIndex).dumpOnly = false →
        OnlyTargets s (s.handles h).regIndex s') s := by
  have hsame : OnlyTargets s (s.handles h).regIndex s := fun _ _ => rfl
  unfold load
  simp only [Completes, wp_bind, wp_get]
  split
  · exact fun _ => hsame
  rename_i haccess
  have haccess := not_not.1 haccess
  split
  · rename_i hdump
    -- a dump only table is given its address, and nothing is copied
    unfold loadUserDefined
    simp only [wp_bind, wp_get]
    split
    · exact fun _ => hsame
    · exact fun hload => absurd hdump (by simp [hload])
  rename_i hdump
  have hdump : (s.registry (s.handles h).regIndex).dumpOnly = false := by simpa using hdump
  split
  · exact fun _ => hsame
  rename_i hlip
  have hlip := not_not.1 hlip
  have hsized := hinv.table _ (registered_of_validateAccess haccess) hdump
  refine wp_imp (loadTable_completes huse hinv hsized hlip vf ?_) fun _ _ h _ => h
  intro work i std hdr info hwork hscratch hfile hexceeds
  exact hfit ⟨haccess, hdump, hlip, work, i, std, hdr, info, hwork, hscratch, hfile, hexceeds⟩

theorem load_overruns (huse : UseInv s) (hinv : SizeInv cfg s) (vf : Bytes → Int)
    (hover : AppOverrun cfg eds s app h f) : Overruns (load cfg eds app h (.file f) vf) s := by
  obtain ⟨haccess, hdump, hlip, work, i, std, hdr, info, hb, hscratch, hfile, hexceeds⟩ := hover
  have hsized := hinv.table _ (registered_of_validateAccess haccess) hdump
  unfold load
  simp only [Overruns, wp_bind, wp_get]
  rw [if_neg (not_not.2 haccess), if_neg (by simp [hdump]), if_neg (not_not.2 hlip)]
  unfold loadTable
  rw [wp_bind]
  refine wp_mono (getWorkingBuffer_completes hinv hsized (huse.table _) true)
    (fun r s₁ h₁ => ?_) (fun _ h => h.elim)
  obtain ⟨hwork, hr⟩ := h₁
  rw [hb] at hr
  cases r with
  | error => cases hr
  | ok work' =>
    obtain rfl : work' = work := Option.some.inj hr
    obtain ⟨lip, hregistry₁⟩ := hwork.registry
    have hfile₁ : FileAccepted cfg eds (s₁.registry (s.handles h).regIndex).name f std hdr info := by
      simpa [hregistry₁] using hfile
    have hexceeds₁ : Exceeds f hdr (s₁.buffers (.shared i)).bytes.length := by
      rwa [hwork.sameSizes.length, hinv.shared]
    exact wp_seq (loadData_overruns ((hwork.findFreeLoadBuff hlip).trans hscratch) hfile₁ hexceeds₁)
      fun _ _ h => h.elim

/-! ### Both loads -/

/-- A program that completes or overruns does one of the two. -/
theorem faults_iff {α : Type} {x : TblM α} {Q : α → TblState → Prop} {P : Prop}
    (hfits : ¬P → Completes x Q s) (hover : P → Overruns x s) :
    ((∃ b offset length, x.run s = .error (.outOfBuffer b offset length)) ↔ P) ∧
      ∀ a s', x.run s = .ok (a, s') → Q a s' := by
  have hends : ∀ e, x.run s = .error e → P := by
    intro e he
    by_contra hP
    exact wp_error (hfits hP) he
  refine ⟨⟨?_, fun hP => ?_⟩, fun a s' hrun => ?_⟩
  · rintro ⟨b, offset, length, he⟩
    exact hends _ he
  · cases hx : x.run s with
    | ok r =>
      exact (wp_ok (hover hP) hx).elim
    | error =>
      obtain ⟨b, offset, length, rfl⟩ := wp_error (hover hP) hx
      exact ⟨b, offset, length, rfl⟩
  · by_cases hP : P
    · exact (wp_ok (hover hP) hrun).elim
    · exact wp_ok (hfits hP) hrun

/-- The ground load command and the load of a file by an application write outside of a
buffer exactly for the files of `GroundOverrun` and `AppOverrun`. For all other files
they write into the working buffer only, the second also into its scratch buffer and, for
the update, into the buffers of the table. -/
theorem load_in_buffer (eds : EdsLib) (huse : UseInv s) (hinv : SizeInv cfg s) :
    (∀ f, ((∃ b offset length,
        (loadCmd cfg f).run s = .error (.outOfBuffer b offset length)) ↔ GroundOverrun cfg s f) ∧
      ∀ r s', (loadCmd cfg f).run s = .ok (r, s') →
        ∀ c, (s'.buffers c).bytes ≠ (s.buffers c).bytes → groundTarget cfg s f = some c) ∧
    ∀ app h f vf, ((∃ b offset length,
        (load cfg eds app h (.file f) vf).run s = .error (.outOfBuffer b offset length)) ↔
          AppOverrun cfg eds s app h f) ∧
      ∀ r s', (load cfg eds app h (.file f) vf).run s = .ok (r, s') →
        (s.registry (s.handles h).regIndex).dumpOnly = false →
        ∀ c, (s'.buffers c).bytes ≠ (s.buffers c).bytes → AppTarget s (s.handles h).regIndex c := by
  refine ⟨fun f => faults_iff (loadCmd_completes huse hinv) (loadCmd_overruns huse hinv),
    fun app h f vf => ?_⟩
  have hfits : ¬AppOverrun cfg eds s app h f → Completes (load cfg eds app h (.file f) vf) _ s :=
    load_completes huse hinv vf
  obtain ⟨hiff, hok⟩ := faults_iff hfits (load_overruns huse hinv vf)
  refine ⟨hiff, fun r s' hrun hdump c hchanged => ?_⟩
  by_contra hc
  exact hchanged (hok r s' hrun hdump c hc)

/-- A file whose offset and size do not add up to more than 32 bits fits. -/
theorem not_groundOverrun (huse : UseInv s) (hinv : SizeInv cfg s)
    (hwrap : ∀ std hdr, readHeaders f = .ok (std, hdr) →
      hdr.offset.toNat + hdr.numBytes.toNat < 2 ^ 32) : ¬GroundOverrun cfg s f := by
  rintro ⟨-, std, hdr, t, b, hread, ht, hdump, -, haccepted, hb, -, hout⟩
  have hsized := hinv.table t (registered_of_findTable ht) hdump
  have hsize := size_le_workingBuffer hinv hsized (huse.table t) hb
  have hsum := hwrap std hdr hread
  simp only [loadAccepted, Bool.and_eq_true, decide_eq_true_eq, BitVec.toNat_add] at haccepted
  have hlength := f.length_read_le hdr.numBytes
  omega

/-- For an application the packed size must be one that the scratch buffer has room for. -/
theorem not_appOverrun (hwrap : ∀ std hdr, readHeaders f = .ok (std, hdr) →
      hdr.offset.toNat + hdr.numBytes.toNat < 2 ^ 32 ∧
      ∀ info, eds.getTypeInfo hdr.edsId = some info → info.packedSize ≤ cfg.maxSnglTableSize) :
    ¬AppOverrun cfg eds s app h f := by
  rintro ⟨-, -, -, work, i, std, hdr, info, -, -, hfile, -, hout⟩
  obtain ⟨hsum, hpacked⟩ := hwrap std hdr hfile.headers
  have hscratch := hpacked info hfile.typeInfo
  have hsize := hfile.size
  rw [BitVec.toNat_add] at hsize
  have hlength := f.length_read_le hdr.numBytes
  omega

end Writes

/-- A double buffered table of two bytes that has been loaded. -/
def doubleTable : List Event :=
  [.register 1 ['T'] 2 ⟨true, false, false, false⟩ false true true,
    .load 1 0 (.address [] [1, 2]) fun _ => 0]

/-- The state in which the table has been loaded. -/
def doubleTableState : TblState :=
  stateAfter smallTbl smallEds (TblState.earlyInit smallTbl) doubleTable

theorem run_doubleTable : Run smallTbl smallEds doubleTable doubleTableState :=
  Run.start.exec (exec_stateAfter (by decide +kernel))

theorem sizeInv_doubleTable : SizeInv smallTbl doubleTableState := by
  refine (run_doubleTable.sizeInv fun e he h => ?_).1
  simp only [doubleTable, mem_cons, not_mem_nil, or_false] at he
  rcases he with rfl | rfl
  · simp
  · simp

/-- A file with two bytes for the last byte of the address space and the first. -/
def wrappingFile : TableFile := tableFile 1 0xFFFFFFFF [8, 9]

/-- The small database with a type 3 of eight bytes. -/
def wideEds : EdsLib :=
  { smallEds with getTypeInfo := fun id => if id = 3 then some ⟨64, 8⟩ else smallEds.getTypeInfo id }

/-- Both loads of an ordinary file stay inside. -/
theorem load_in_buffer_doubleTable : UseInv doubleTableState ∧ SizeInv smallTbl doubleTableState ∧
    (¬∃ b offset length, (loadCmd smallTbl (tableFile 1 0 [3, 4])).run doubleTableState =
      .error (.outOfBuffer b offset length)) ∧
    ¬∃ b offset length, (load smallTbl smallEds 1 0 (.file (tableFile 1 0 [3, 4]))
      fun _ => 0).run doubleTableState = .error (.outOfBuffer b offset length) := by
  have huse := run_doubleTable.useInv
  have hinv := sizeInv_doubleTable
  obtain ⟨hground, happ⟩ := load_in_buffer smallEds huse hinv
  refine ⟨huse, hinv, ?_, ?_⟩
  · rw [(hground _).1]
    refine not_groundOverrun huse hinv fun std hdr hread => ?_
    obtain ⟨-, rfl⟩ := Prod.mk.inj (Except.ok.inj hread)
    decide
  · rw [(happ _ _ _ _).1]
    refine not_appOverrun fun std hdr hread => ?_
    obtain ⟨-, rfl⟩ := Prod.mk.inj (Except.ok.inj hread)
    refine ⟨by decide, fun info hinfo => ?_⟩
    obtain rfl : (⟨16, 2⟩ : TypeInfo) = info := Option.some.inj hinfo
    decide

/-- The sum of the offset and the size of the file is 1, and its two bytes are stored far
behind the buffer: by the ground load behind the inactive buffer, by the application behind
the scratch buffer. A file of eight bytes for a type that is that long is stored into a
scratch buffer of four. -/
theorem load_leaves_buffer : Run smallTbl smallEds doubleTable doubleTableState ∧
    exec smallTbl smallEds doubleTableState [.loadCmd wrappingFile] =
      .error (.outOfBuffer (.own 0 1) 0xFFFFFFFF 2) ∧
    exec smallTbl smallEds doubleTableState [.load 1 0 (.file wrappingFile) fun _ => 0] =
      .error (.outOfBuffer (.shared 0) 0xFFFFFFFF 2) ∧
    exec smallTbl wideEds doubleTableState
        [.load 1 0 (.file (tableFile 3 0 [1, 2, 3, 4, 5, 6, 7, 8])) fun _ => 0] =
      .error (.outOfBuffer (.shared 0) 0 8) := by
  refine ⟨run_doubleTable, ?_, ?_, ?_⟩ <;> exact exec_faultAfter (by decide +kernel)

end CfsEds.Tbl
