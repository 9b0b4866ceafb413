import CfsEds.Es.CdsInv
import CfsEds.Lib.RefCount

/-!
# Ownership of the blocks of the critical data store over whole runs

A run begins with a start-up that finds no valid store and makes a new one, and
goes on with registrations, deletions, writes and processor resets in any order.
`CdsOwned` is what should hold at every point: no two registry entries in use have
the same block, and the pool regards the block of an entry as allocated with the
recorded size.

It does not hold of every run. `CFE_ES_RegisterCDSEx` gives the old block back
before it asks for one of the new size, and when that fails it returns without
writing the registry. A reset then reads the old registry, whose entry still has
the block that is free now, and the next registration hands it out again.

The invariant `CdsInv` therefore only asks that the registry in storage has every
entry of the one in RAM; `RegistryCurrent` is the converse, which a reset needs.
Each call is shown to keep both, a registration only if it does not lose a block:
every path that changes the registry in RAM ends with writing it, or changes a
record that is in use in neither copy.
-/

namespace CfsEds.Es

open CfsEds.Lib.Loop CfsEds.Lib.Memory CfsEds.Lib.RefCount List Option

variable {criticalTbl : Bool} {cfg : CdsConfig} {s s' : CdsState} {data name : List (BitVec 8)}
  {blocks : List Block} {m : Mem} {fuel i newBlockSize userBlockSize : Nat} {free : Nat → List Nat}
  {ps : PoolState}

/-- An entry in use is in the slot that its ID locates. -/
def IdsOk (cfg : CdsConfig) (reg : List CdsRegRec) : Prop :=
  ∀ i, (reg.getD i default).blockID ≠ resourceIdUndefined →
    locateCDSBlockRecordByID cfg (reg.getD i default).blockID = some i

/-- The state of a store and the picture of its pool. -/
structure CdsBase (cfg : CdsConfig) (s : CdsState) (blocks : List Block)
    (free : Nat → List Nat) : Prop where
  store : StoreInv cfg s.poolState blocks free
  owned : Owned blocks s.registry
  length : s.registry.length = cfg.maxNumEntries
  fits : ∀ r ∈ s.registry, RecFits cfg r
  ids : IdsOk cfg s.registry

/-- Between calls the registry in storage has every entry of the registry in RAM
that has a block. (It may have more: those that lost theirs in a failed resize.) -/
structure CdsInv (cfg : CdsConfig) (s : CdsState) (blocks : List Block)
    (free : Nat → List Nat) : Prop extends CdsBase cfg s blocks free where
  synced : ∀ i, InUse s.registry i →
    (readRegistry cfg s.mem).getD i default = s.registry.getD i default
  storedIds : IdsOk cfg (readRegistry cfg s.mem)

/-- The registry in storage is not stale: its entries in use that have a block are
those of the registry in RAM. -/
def RegistryCurrent (cfg : CdsConfig) (s : CdsState) : Prop :=
  ∀ i, InUse (readRegistry cfg s.mem) i → (readRegistry cfg s.mem).getD i default = s.record i

theorem RegistryCurrent.of_eq (h : readRegistry cfg s.mem = s.registry) : RegistryCurrent cfg s :=
  fun i _ => congrArg (fun reg => reg.getD i default) h

/-- A step on entry `i` leaves the other entries and the bytes of their blocks
alone. -/
def KeepsOthers (s s' : CdsState) (i : Nat) : Prop :=
  ∀ j, j ≠ i → s'.record j = s.record j ∧ (InUse s.registry j →
    ∀ k, (s.record j).blockOffset ≤ k → k < (s.record j).blockOffset + (s.record j).blockSize →
      s'.mem k = s.mem k)

theorem KeepsOthers.refl (s : CdsState) (i : Nat) : KeepsOthers s s i :=
  fun _ _ => ⟨rfl, fun _ _ _ _ => rfl⟩

section Records

variable {reg : List CdsRegRec} {i j : Nat} {f : CdsRegRec → CdsRegRec}

theorem lt_of_isUsed (h : (reg.getD i default).blockID ≠ resourceIdUndefined) : i < reg.length := by
  by_contra hge
  rw [getD_eq_default _ _ (by omega)] at h
  exact h rfl

/-- The records of a registry after a change to one of them. -/
theorem fits_modify (h : ∀ r ∈ reg, RecFits cfg r) (hf : ∀ r, RecFits cfg r → RecFits cfg (f r)) :
    ∀ r ∈ reg.modify i f, RecFits cfg r := by
  intro r hr
  obtain ⟨k, hk, rfl⟩ := mem_iff_getElem.1 hr
  rw [length_modify] at hk
  rw [getElem_modify]
  split
  · exact hf _ (h _ (getElem_mem hk))
  · exact h _ (getElem_mem hk)

/-- The IDs of a registry after a change to one record that may free it. -/
theorem ids_modify (h : IdsOk cfg reg)
    (hf : ∀ r, (f r).blockID = resourceIdUndefined ∨ (f r).blockID = r.blockID) :
    IdsOk cfg (reg.modify i f) := by
  intro j hj
  by_cases hji : j = i
  · have hlt := lt_of_isUsed hj
    rw [length_modify] at hlt
    rw [hji] at hlt hj ⊢
    rw [getD_modify_self hlt] at hj ⊢
    rcases hf (reg.getD i default) with h0 | h0
    · exact absurd h0 hj
    · rw [h0] at hj ⊢
      exact h i hj
  · rw [getD_modify_of_ne hji] at hj ⊢
    exact h j hj

/-- An entry that is as before is in use if it was. -/
theorem InUse.of_eq {reg' : List CdsRegRec} (h : InUse reg' i)
    (heq : reg'.getD i default = reg.getD i default) : InUse reg i := by
  unfold InUse at h ⊢
  rwa [heq] at h

end Records

theorem KeepsOthers.trans {s'' : CdsState} (h : KeepsOthers s s' i) (h' : KeepsOthers s' s'' i) :
    KeepsOthers s s'' i := by
  intro j hji
  obtain ⟨hrec, hmem⟩ := h j hji
  obtain ⟨hrec', hmem'⟩ := h' j hji
  rw [hrec] at hrec' hmem'
  exact ⟨hrec', fun hj k hk hk' =>
    (hmem' (hj.of_eq hrec.symm) k hk hk').trans (hmem hj k hk hk')⟩

theorem locateCDSBlockRecordByID_undefined (cfg : CdsConfig) :
    locateCDSBlockRecordByID cfg resourceIdUndefined = none := by
  unfold locateCDSBlockRecordByID resourceIdToIndex
  exact if_pos (.inl (by decide))

/-- The handle locates entry `i`, which is its own and has a block of that size. -/
structure HasBlock (cfg : CdsConfig) (s : CdsState) (handle blockSize i : Nat) : Prop where
  located : locateCDSBlockRecordByID cfg handle = some i
  blockID : (s.record i).blockID = handle
  blockOffset : (s.record i).blockOffset ≠ 0
  blockSize : (s.record i).blockSize = blockSize

theorem HasBlock.inUse {handle blockSize : Nat} (h : HasBlock cfg s handle blockSize i) :
    InUse s.registry i := by
  refine ⟨fun h0 => ?_, h.blockOffset⟩
  have hlocated := h.located
  rw [← h.blockID, show (s.record i).blockID = resourceIdUndefined from h0,
    locateCDSBlockRecordByID_undefined] at hlocated
  cases hlocated

/-- The block of an entry in use. -/
theorem CdsBase.block (h : CdsBase cfg s blocks free) (hin : InUse s.registry i) :
    ∃ b ∈ blocks, b.free = false ∧ b.size ≠ 0 ∧ (s.record i).blockOffset = b.offset ∧
      (s.record i).blockSize = b.size := by
  obtain ⟨b, hb, hfree, hsize, hoff, hrec⟩ := h.owned.backed i hin
  exact ⟨b, hb, hfree, hsize, hoff.symm, hrec.symm⟩

theorem blankRecord_fits (cfg : CdsConfig) : RecFits cfg (blankRecord cfg) :=
  ⟨show 0 < 2 ^ 32 by decide, show 0 < 2 ^ 64 by decide, show 0 < 2 ^ 64 by decide,
    length_replicate⟩

theorem length_copyName (cfg : CdsConfig) (name : List (BitVec 8)) :
    (copyName cfg name).length = cfg.maxFullNameLen := by
  have hle : ((cString name).take (cfg.maxFullNameLen - 1)).length ≤ cfg.maxFullNameLen := by
    rw [length_take]
    omega
  unfold copyName
  rw [length_append, length_replicate]
  omega

/-! ## Parts of a registration -/

/-- Writing the registry. -/
theorem CdsBase.update (h : CdsBase cfg s blocks free) :
    CdsInv cfg (updateCDSRegistry cfg s) blocks free := by
  have hend := cfg.registry_end
  have hout : ∀ i, i < cdsRegOffset ∨ cfg.poolOffset ≤ i →
      writeRegRecs cfg s.mem cdsRegOffset s.registry i = s.mem i := by
    intro i hi
    refine writeRegRecs_of_outside (fun r hr => (h.fits r hr).name) ?_
    rw [h.length]
    omega
  have hstored : readRegistry cfg (updateCDSRegistry cfg s).mem = s.registry :=
    readRegistry_writeRegRecs h.length h.fits
  refine ⟨⟨h.store.of_mem (fun b hb i hi _ => ?_) (fun i hi => ?_), h.owned, h.length, h.fits,
    h.ids⟩, fun i _ => congrArg (fun reg => reg.getD i default) hstored, hstored.symm ▸ h.ids⟩
  · have hlow := (h.store.pool.offset_bounds hb).1
    exact hout i (by omega)
  · have htail : cfg.poolOffset ≤ s.poolState.pool.tailPosition := chain_le h.store.pool.chain
    exact hout i (by omega)

theorem CdsBase.update_current (h : CdsBase cfg s blocks free) :
    CdsInv cfg (updateCDSRegistry cfg s) blocks free ∧
      readRegistry cfg (updateCDSRegistry cfg s).mem = (updateCDSRegistry cfg s).registry :=
  ⟨h.update, readRegistry_writeRegRecs h.length h.fits⟩

/-- Writing the registry touches no block. -/
theorem CdsBase.update_keeps (h : CdsBase cfg s blocks free) (i : Nat) :
    KeepsOthers s (updateCDSRegistry cfg s) i := by
  refine fun j _ => ⟨rfl, fun hj k hk _ => ?_⟩
  obtain ⟨b, hb, _, _, hoff, _⟩ := h.block hj
  have hlow := (h.store.pool.offset_bounds hb).1
  have hend := cfg.registry_end
  refine writeRegRecs_of_outside (fun r hr => (h.fits r hr).name) (.inr ?_)
  rw [h.length]
  omega

/-- An entry in use gives its block back, and is changed so that it does not have
it any more. -/
theorem CdsInv.release (h : CdsInv cfg s blocks free) (hin : InUse s.registry i)
    (f : CdsRegRec → CdsRegRec)
    (hf : ∀ r, (f r).blockID = resourceIdUndefined ∨ (f r).blockOffset = 0)
    (hid : ∀ r, (f r).blockID = resourceIdUndefined ∨ (f r).blockID = r.blockID)
    (hfits : ∀ r, RecFits cfg r → RecFits cfg (f r)) :
    (∃ size, (genPoolPutBlock s.poolState (s.record i).blockOffset).1 = .ok size) ∧
    KeepsOthers s
      ((s.withPool (genPoolPutBlock s.poolState (s.record i).blockOffset).2).modifyRecord i f) i ∧
    ∃ blocks' free', CdsInv cfg
      ((s.withPool (genPoolPutBlock s.poolState (s.record i).blockOffset).2).modifyRecord i f)
      blocks' free' := by
  obtain ⟨b, hb, hfree, hsize, hoff, _⟩ := h.block hin
  have hlt := lt_of_isUsed hin.1
  obtain ⟨hok, hstore⟩ := h.store.put hb hfree hsize
  have hmem := (h.store.pool.put_outside hb).2
  rw [hoff]
  have hgone : ¬ InUse (s.registry.modify i f) i := by
    intro hin'
    unfold InUse at hin'
    rw [getD_modify_self hlt] at hin'
    rcases hf (s.registry.getD i default) with h0 | h0
    · exact hin'.1 h0
    · exact hin'.2 h0
  have hkeep : ∀ j, InUse (s.registry.modify i f) j →
      j ≠ i ∧ (s.registry.modify i f).getD j default = s.registry.getD j default := by
    intro j hj
    have hji : j ≠ i := fun heq => hgone (heq ▸ hj)
    exact ⟨hji, getD_modify_of_ne hji⟩
  have hreg : readRegistry cfg (genPoolPutBlock s.poolState b.offset).2.mem =
      readRegistry cfg s.mem :=
    readRegistry_congr fun k _ hk => hmem k (.inl hk)
  refine ⟨⟨b.size, hok⟩, fun j hji => ⟨getD_modify_of_ne hji, fun hj k hk hk' => ?_⟩,
    replaceBlock { b with free := true } blocks, _,
    ⟨hstore, ?_, ?_, fits_modify h.fits hfits, ids_modify h.ids hid⟩, ?_, ?_⟩
  · obtain ⟨c, hc, _, _, hcoff, hcsize⟩ := h.block hj
    rw [hcoff] at hk hk'
    rw [hcsize] at hk'
    exact h.store.pool.put_mem hb k (h.store.outside_descriptor hb hc hk hk')
  · refine (h.owned.clear fun j hj => (hkeep j hj).2).release fun j hj heq => ?_
    obtain ⟨hji, hsame⟩ := hkeep j hj
    rw [hsame, ← hoff] at heq
    exact hji (h.owned.distinct j i (hj.of_eq hsame) hin heq)
  · show (s.registry.modify i f).length = cfg.maxNumEntries
    rw [length_modify]
    exact h.length
  · intro j hj
    have hsame := (hkeep j hj).2
    show (readRegistry cfg (genPoolPutBlock s.poolState b.offset).2.mem).getD j default =
      (s.registry.modify i f).getD j default
    rw [hreg, hsame]
    exact h.synced j (hj.of_eq hsame)
  · show IdsOk cfg (readRegistry cfg (genPoolPutBlock s.poolState b.offset).2.mem)
    rw [hreg]
    exact h.storedIds

theorem CdsInv.release_old (h : CdsInv cfg s blocks free) (newBlockSize : Nat)
    (hused : (s.record i).blockOffset ≠ 0 → (s.record i).blockID ≠ resourceIdUndefined) :
    ∃ s' blocks' free', releaseOldBlock s i newBlockSize = (.ok (), s') ∧
      CdsInv cfg s' blocks' free' ∧ KeepsOthers s s' i ∧
      (s'.record i).blockID = (s.record i).blockID ∧
      ((s'.record i).blockOffset ≠ 0 → s' = s) ∧
      ((s.record i).blockOffset = 0 ∨ newBlockSize = (s.record i).blockSize → s' = s) := by
  unfold releaseOldBlock
  by_cases hold : (s.record i).blockOffset ≠ 0 ∧ newBlockSize ≠ (s.record i).blockSize
  · simp only [if_pos hold]
    obtain ⟨⟨size, hok⟩, hkeep, blocks', free', hinv⟩ := h.release ⟨hused hold.1, hold.1⟩
      (fun r => { r with blockOffset := 0, blockSize := 0 }) (fun _ => .inr rfl)
      (fun _ => .inr rfl) fun _ hr =>
        { hr with
          blockOffset := show 0 < 2 ^ 64 by decide
          blockSize := show 0 < 2 ^ 64 by decide }
    rcases hput : genPoolPutBlock s.poolState (s.record i).blockOffset with ⟨status, ps⟩
    rw [hput] at hok hinv hkeep
    simp only at hok hinv hkeep
    rw [hok]
    have hself := getD_modify_self (l := s.registry)
      (g := fun r => { r with blockOffset := 0, blockSize := 0 }) (lt_of_isUsed (hused hold.1))
    have hblockID := congrArg CdsRegRec.blockID hself
    have hblockOffset := congrArg CdsRegRec.blockOffset hself
    exact ⟨_, blocks', free', rfl, hinv, hkeep, hblockID, fun hne => absurd hblockOffset hne,
      fun hor => (hor.elim hold.1 hold.2).elim⟩
  · simp only [if_neg hold]
    exact ⟨s, blocks, free, rfl, h, KeepsOthers.refl s i, rfl, fun _ => rfl, fun _ => rfl⟩

theorem modifyRecord_modifyRecord {f g : CdsRegRec → CdsRegRec} :
    (s.modifyRecord i f).modifyRecord i g = s.modifyRecord i (g ∘ f) := by
  unfold CdsState.modifyRecord
  simp only [modify_modify_eq]

/-- A record that has got a block is completed, and the registry written. -/
theorem CdsBase.acquire (h : CdsBase cfg s blocks free) {off pendingBlockId : Nat}
    {f : CdsRegRec → CdsRegRec} (hi : i < s.registry.length) (hne : newBlockSize ≠ 0)
    (hwidth : newBlockSize < 2 ^ 64)
    (hget : genPoolGetBlock s.poolState newBlockSize = .ok (off, ps))
    (hoff : ∀ r, (f r).blockOffset = off) (hsize : ∀ r, (f r).blockSize = newBlockSize)
    (hblockID : (f (s.record i)).blockID = pendingBlockId)
    (hid : locateCDSBlockRecordByID cfg pendingBlockId = some i)
    (hfits : off < 2 ^ 64 → ∀ r, RecFits cfg r → RecFits cfg (f r)) :
    let s' := updateCDSRegistry cfg ((s.withPool ps).modifyRecord i f)
    (∃ blocks' free', CdsInv cfg s' blocks' free') ∧ KeepsOthers s s' i ∧
      HasBlock cfg s' pendingBlockId newBlockSize i ∧ readRegistry cfg s'.mem = s'.registry := by
  obtain ⟨blocks', free', hstore, hnew, hmem, hold⟩ := h.store.get hwidth hget
  obtain ⟨b, hb, _, hboff, _⟩ := id hnew
  have hlow := (hstore.pool.offset_bounds hb).1
  have hself : (s.registry.modify i f).getD i default = f (s.record i) := getD_modify_self hi
  have hother : ∀ j, j ≠ i → (s.registry.modify i f).getD j default = s.registry.getD j default :=
    fun j => getD_modify_of_ne
  have hbase : CdsBase cfg ((s.withPool ps).modifyRecord i f) blocks' free' := by
    refine ⟨hstore, h.owned.acquire hother ((congrArg _ hself).trans (hoff _))
      ((congrArg _ hself).trans (hsize _)) hne hnew hold,
      (length_modify ..).trans h.length, fits_modify h.fits (hfits ?_), fun j hj => ?_⟩
    · rw [← hboff]
      exact (hstore.pool.offset_bounds hb).2
    · by_cases hji : j = i
      · subst hji
        refine (congrArg _ ?_).trans hid
        exact (congrArg CdsRegRec.blockID hself).trans hblockID
      have hj' : ((s.registry.modify i f).getD j default).blockID ≠ resourceIdUndefined := hj
      rw [hother j hji] at hj'
      have hid' := h.ids j hj'
      rwa [← hother j hji] at hid'
  have hkeeps : KeepsOthers s ((s.withPool ps).modifyRecord i f) i := by
    refine fun j hji => ⟨hother j hji, fun hj k hk hk' => hmem k ?_⟩
    obtain ⟨c, hc, hcfree, _, hcoff, hcsize⟩ := h.block hj
    rw [hcoff] at hk hk'
    rw [hcsize] at hk'
    rw [← hboff]
    exact hstore.outside_descriptor hb (hold c hc hcfree).1 hk hk'
  refine ⟨⟨blocks', free', hbase.update⟩, hkeeps.trans (hbase.update_keeps i),
    ⟨hid, (congrArg CdsRegRec.blockID hself).trans hblockID, fun hzero => ?_,
      (congrArg CdsRegRec.blockSize hself).trans (hsize _)⟩, hbase.update_current.2⟩
  have hoff' : ((s.registry.modify i f).getD i default).blockOffset = 0 := hzero
  rw [hself, hoff] at hoff'
  unfold descriptorSize at hlow
  omega

/-- What a registration with the record `i` does: no other entry is touched, the
answer that the name exists means that nothing changed, and success that the entry
has its block and the registry was written. Without an old block to give back
nothing changes but on success. -/
structure Registered (cfg : CdsConfig) (s : CdsState) (i pendingBlockId newBlockSize : Nat)
    (isNewEntry : Bool) (r : CdsStatus × CdsState) : Prop where
  inv : ∃ blocks free, CdsInv cfg r.2 blocks free
  keeps : KeepsOthers s r.2 i
  unchanged : r.1 = .alreadyExists → isNewEntry = false ∧ r.2 = s
  stored : r.1 = .success → HasBlock cfg r.2 pendingBlockId newBlockSize i ∧
    readRegistry cfg r.2.mem = r.2.registry
  kept : (s.record i).blockOffset = 0 ∨ newBlockSize = (s.record i).blockSize →
    r.1 = .success ∨ r.2 = s

/-- A registration from the point where the record is known: an entry in use, or
a blank one. -/
theorem CdsInv.register_record (h : CdsInv cfg s blocks free)
    {i pendingBlockId newBlockSize : Nat} {isNewEntry : Bool} {name : List (BitVec 8)}
    {criticalTbl : Bool} (hi : i < s.registry.length)
    (hid : locateCDSBlockRecordByID cfg pendingBlockId = some i)
    (hnew : isNewEntry = true → (s.record i).blockOffset = 0 ∧ pendingBlockId < 2 ^ 32)
    (hused : isNewEntry = false → (s.record i).blockID = pendingBlockId)
    (hne : newBlockSize ≠ 0) (hwidth : newBlockSize < 2 ^ 64) :
    Registered cfg s i pendingBlockId newBlockSize isNewEntry
      (registerRecord cfg s i pendingBlockId isNewEntry newBlockSize name criticalTbl) := by
  have hblock : (s.record i).blockOffset ≠ 0 → (s.record i).blockID ≠ resourceIdUndefined := by
    intro hoff
    cases isNewEntry with
    | true => exact absurd (hnew rfl).1 hoff
    | false =>
      intro h0
      rw [← hused rfl, h0] at hid
      cases hid
  obtain ⟨s₁, blocks₁, free₁, hrelease, h₁, hkeep, hblockID, hsame, hnone⟩ :=
    h.release_old newBlockSize hblock
  have hi₁ : i < s₁.registry.length := by
    rw [h₁.length, ← h.length]
    exact hi
  unfold registerRecord
  simp only [hrelease]
  unfold allocateBlock
  by_cases hoff : (s₁.record i).blockOffset = 0
  · simp only [if_pos hoff]
    cases hget : genPoolGetBlock s₁.poolState newBlockSize with
    | error => exact ⟨⟨blocks₁, free₁, h₁⟩, hkeep, nofun, nofun, fun hor => .inr (hnone hor)⟩
    | ok r =>
      obtain ⟨off, ps⟩ := r
      simp only [if_true]
      cases isNewEntry with
      | false =>
        simp only [Bool.false_eq_true]
        obtain ⟨hinv, hacquire, hstored⟩ := h₁.toCdsBase.acquire
          (f := fun r => { r with blockOffset := off, blockSize := newBlockSize })
          hi₁ hne hwidth hget (fun _ => rfl) (fun _ => rfl) (hblockID.trans (hused rfl)) hid
          fun hlt _ hr => { hr with blockOffset := hlt, blockSize := hwidth }
        exact ⟨hinv, hkeep.trans hacquire, nofun, fun _ => hstored, fun _ => .inl rfl⟩
      | true =>
        simp only [modifyRecord_modifyRecord]
        obtain ⟨hinv, hacquire, hstored⟩ := h₁.toCdsBase.acquire (f := fun r => { r with
            blockOffset := off, blockSize := newBlockSize, table := criticalTbl
            name := copyName cfg name, blockID := pendingBlockId })
          hi₁ hne hwidth hget (fun _ => rfl) (fun _ => rfl) rfl hid
          fun hlt _ hr => { hr with
            blockOffset := hlt
            blockSize := hwidth
            blockID := (hnew rfl).2
            name := length_copyName cfg name }
        exact ⟨hinv, hkeep.trans hacquire, nofun, fun _ => hstored, fun _ => .inl rfl⟩
  · -- nothing to allocate: the entry existed and has its block still
    simp only [if_neg hoff]
    cases isNewEntry with
    | true =>
      rw [hnone (.inl (hnew rfl).1)] at hoff
      exact absurd (hnew rfl).1 hoff
    | false => exact ⟨⟨blocks₁, free₁, h₁⟩, hkeep, fun _ => ⟨rfl, hsame hoff⟩, nofun,
        fun _ => .inr (hsame hoff)⟩

/-! ## The calls -/

theorem locateCDSBlockRecordByID_lt {blockID : Nat}
    (h : locateCDSBlockRecordByID cfg blockID = some i) : i < cfg.maxNumEntries := by
  unfold locateCDSBlockRecordByID resourceIdToIndex at h
  simp only at h
  split at h
  · cases h
  · rw [← Option.some.inj h]
    exact Nat.mod_lt _ (by have := cfg.hentries; omega)

theorem locateCDSBlockRecordByName_isUsed (h : locateCDSBlockRecordByName s name = some i) :
    i < s.registry.length ∧ (s.record i).blockID ≠ resourceIdUndefined := by
  obtain ⟨hi, hr, _⟩ := findIdx?_eq_some_iff_getElem.1 h
  refine ⟨hi, ?_⟩
  have hused := (Bool.and_eq_true _ _ ▸ hr).1
  unfold CdsState.record
  rw [getD_eq_getElem _ _ hi]
  simpa [CdsRegRec.isUsed] using hused

/-- Clearing a slot that is not in use leaves the stored registry current. -/
theorem RegistryCurrent.blank (h : RegistryCurrent cfg s) (hunused : ¬ InUse s.registry i)
    (blockID : Nat) : RegistryCurrent cfg
      { s.modifyRecord i fun _ => blankRecord cfg with lastCDSBlockId := blockID } := by
  intro j hj
  have hsame : (readRegistry cfg s.mem).getD j default = s.record j := h j hj
  have hji : j ≠ i := fun heq => hunused (heq ▸ hj.of_eq hsame)
  exact hsame.trans (getD_modify_of_ne hji).symm

/-- A new registration clears the slot it has found. -/
theorem CdsInv.blank (h : CdsInv cfg s blocks free) {i : Nat} (hi : i < s.registry.length)
    (blockID : Nat) :
    CdsInv cfg { s.modifyRecord i fun _ => blankRecord cfg with lastCDSBlockId := blockID }
      blocks free := by
  have hkeep : ∀ j, InUse (s.registry.modify i fun _ => blankRecord cfg) j →
      (s.registry.modify i fun _ => blankRecord cfg).getD j default =
        s.registry.getD j default := by
    refine fun j hj => getD_modify_of_ne fun heq => hj.1 ?_
    rw [heq, getD_modify_self hi]
    rfl
  exact ⟨⟨h.store, h.owned.clear hkeep, (length_modify _ _ _).trans h.length,
    fits_modify h.fits fun _ _ => blankRecord_fits cfg, ids_modify h.ids fun _ => .inl rfl⟩,
    fun j hj => (h.synced j (hj.of_eq (hkeep j hj))).trans (hkeep j hj).symm, h.storedIds⟩

theorem resourceIdFindNext_lt (startId : Nat) (checkFunc : Nat → Bool) :
    resourceIdFindNext startId cfg.maxNumEntries checkFunc < 2 ^ 32 :=
  findNextLoop_lt _ _

/-- The slot of a new entry is not in use. -/
theorem not_inUse_of_findNext {i : Nat}
    (hid : locateCDSBlockRecordByID cfg (resourceIdFindNext s.lastCDSBlockId cfg.maxNumEntries
      (checkCDSHandleSlotUsed cfg s)) = some i) : ¬ InUse s.registry i := by
  rcases @findNextLoop_free (s.lastCDSBlockId &&& (2 ^ 32 - 1 - resourceIdMax)) cfg.maxNumEntries
    (checkCDSHandleSlotUsed cfg s) cfg.maxNumEntries (s.lastCDSBlockId &&& resourceIdMax) with
    h0 | hfree
  · have hnone := locateCDSBlockRecordByID_undefined cfg
    rw [← h0] at hnone
    exact absurd (hid.symm.trans hnone) (by simp)
  intro hin
  have hcheck : checkCDSHandleSlotUsed cfg s (resourceIdFindNext s.lastCDSBlockId
      cfg.maxNumEntries (checkCDSHandleSlotUsed cfg s)) = (s.record i).isUsed := by
    rw [checkCDSHandleSlotUsed, hid]
    rfl
  have hunused : (s.record i).isUsed = false := hcheck.symm.trans hfree
  have hzero : (s.record i).blockID = resourceIdUndefined := by
    simpa [CdsRegRec.isUsed] using hunused
  exact hin.1 hzero

/-- What a registration does: the answer that the name exists means that nothing
changed; success means that the handle has a block of the size, that the registry
was written, and that no other entry was touched; and the stored registry stays
current if no block is given back. -/
structure RegisterOutcome (cfg : CdsConfig) (s : CdsState) (newBlockSize : Nat)
    (name : List (BitVec 8)) (r : (CdsStatus × Option Nat) × CdsState) : Prop where
  inv : ∃ blocks free, CdsInv cfg r.2 blocks free
  unchanged : r.1.1 = .alreadyExists → r.2 = s
  stored : r.1.1 = .success → ∃ i id, r.1.2 = some id ∧ HasBlock cfg r.2 id newBlockSize i ∧
    readRegistry cfg r.2.mem = r.2.registry ∧ KeepsOthers s r.2 i ∧
    (InUse s.registry i → (s.record i).blockID = id)
  current : RegistryCurrent cfg s → (∀ i, locateCDSBlockRecordByName s name = some i →
    (s.record i).blockOffset = 0 ∨ newBlockSize = (s.record i).blockSize) →
      RegistryCurrent cfg r.2

theorem CdsInv.register_new (h : CdsInv cfg s blocks free) (name : List (BitVec 8))
    (criticalTbl : Bool) (hne : newBlockSize ≠ 0) (hwidth : newBlockSize < 2 ^ 64) :
    RegisterOutcome cfg s newBlockSize name (registerNewEntry cfg s
      (resourceIdFindNext s.lastCDSBlockId cfg.maxNumEntries (checkCDSHandleSlotUsed cfg s))
      newBlockSize name criticalTbl) := by
  have hfits : resourceIdFindNext s.lastCDSBlockId cfg.maxNumEntries
      (checkCDSHandleSlotUsed cfg s) < 2 ^ 32 := resourceIdFindNext_lt _ _
  have hunused := fun i => @not_inUse_of_findNext cfg s i
  generalize resourceIdFindNext s.lastCDSBlockId cfg.maxNumEntries (checkCDSHandleSlotUsed cfg s) =
    pendingBlockId at hfits hunused ⊢
  unfold registerNewEntry
  cases hid : locateCDSBlockRecordByID cfg pendingBlockId with
  | none => exact ⟨⟨blocks, free, h⟩, fun _ => rfl, nofun, fun hcurrent _ => hcurrent⟩
  | some i =>
    have hlt : i < s.registry.length := by
      rw [h.length]
      exact locateCDSBlockRecordByID_lt hid
    have hzero : ((s.registry.modify i fun _ => blankRecord cfg).getD i default).blockOffset = 0 := by
      rw [getD_modify_self hlt]
      rfl
    have hreg := @CdsInv.register_record _ _ _ _ (h.blank hlt pendingBlockId) i pendingBlockId
      newBlockSize true name criticalTbl (by
        show i < (s.registry.modify i fun _ => blankRecord cfg).length
        rw [length_modify]
        exact hlt) hid (fun _ => ⟨hzero, hfits⟩) (nofun) hne hwidth
    -- clearing the slot touched no entry in use
    have hblank : KeepsOthers s { s.modifyRecord i fun _ => blankRecord cfg with
        lastCDSBlockId := pendingBlockId } i :=
      fun j hji => ⟨getD_modify_of_ne hji, fun _ _ _ _ => rfl⟩
    refine ⟨hreg.inv, fun hf => absurd (hreg.unchanged hf).1 (by simp), fun hok =>
      ⟨i, pendingBlockId, rfl, (hreg.stored hok).1, (hreg.stored hok).2, hblank.trans hreg.keeps,
        fun hin => absurd hin (hunused i hid)⟩, fun hcurrent _ => ?_⟩
    rcases hreg.kept (.inl hzero) with hok | hsame
    · exact .of_eq (hreg.stored hok).2
    · show RegistryCurrent cfg (registerRecord cfg _ i pendingBlockId true newBlockSize name
        criticalTbl).2
      rw [hsame]
      exact hcurrent.blank (hunused i hid) pendingBlockId

section

variable (hsize : ¬ (userBlockSize = 0 ∨ userBlockSize > cdsAbsMaxBlockSize))
include hsize

/-- A registration of a name that is not in the registry. -/
theorem registerCDSEx_of_none (hname : locateCDSBlockRecordByName s name = none) :
    registerCDSEx cfg s userBlockSize name criticalTbl =
      registerNewEntry cfg s (resourceIdFindNext s.lastCDSBlockId cfg.maxNumEntries
        (checkCDSHandleSlotUsed cfg s)) (sizeT (userBlockSize + blockHeaderSize)) name
        criticalTbl := by
  unfold registerCDSEx
  rw [if_neg hsize, hname]

/-- A registration of a name that is in the registry. -/
theorem registerCDSEx_of_some (hname : locateCDSBlockRecordByName s name = some i) :
    registerCDSEx cfg s userBlockSize name criticalTbl =
      (((registerRecord cfg s i (s.record i).blockID false
          (sizeT (userBlockSize + blockHeaderSize)) name criticalTbl).1,
        some (s.record i).blockID),
      (registerRecord cfg s i (s.record i).blockID false
        (sizeT (userBlockSize + blockHeaderSize)) name criticalTbl).2) := by
  unfold registerCDSEx
  rw [if_neg hsize, hname]

/-- The size of the new block, which fits the types. -/
theorem newBlockSize_eq :
    sizeT (userBlockSize + blockHeaderSize) = userBlockSize + blockHeaderSize ∧
      userBlockSize ≠ 0 ∧ userBlockSize + blockHeaderSize ≤ 2 ^ 30 := by
  unfold cdsAbsMaxBlockSize at hsize
  unfold sizeT
  unfold blockHeaderSize at hsize ⊢
  refine ⟨Nat.mod_eq_of_lt (by omega), by omega, by omega⟩

end

theorem registerCDSEx_size_pos
    (h : (registerCDSEx cfg s userBlockSize name criticalTbl).1.1 = .success) :
    0 < userBlockSize := by
  by_contra hzero
  unfold registerCDSEx at h
  rw [if_pos (.inl (by omega))] at h
  cases h

theorem CdsInv.register (h : CdsInv cfg s blocks free) (userBlockSize : Nat)
    (name : List (BitVec 8)) (criticalTbl : Bool) :
    RegisterOutcome cfg s (userBlockSize + blockHeaderSize) name
      (registerCDSEx cfg s userBlockSize name criticalTbl) := by
  by_cases hsize : userBlockSize = 0 ∨ userBlockSize > cdsAbsMaxBlockSize
  · unfold registerCDSEx
    rw [if_pos hsize]
    exact ⟨⟨blocks, free, h⟩, fun _ => rfl, nofun, fun hcurrent _ => hcurrent⟩
  obtain ⟨hnew, hpos, hbound⟩ := newBlockSize_eq hsize
  cases hname : locateCDSBlockRecordByName s name with
  | some i =>
    obtain ⟨hlt, hused⟩ := locateCDSBlockRecordByName_isUsed hname
    rw [registerCDSEx_of_some hsize hname, hnew]
    have hreg := @CdsInv.register_record _ _ _ _ h i (s.record i).blockID
      (userBlockSize + blockHeaderSize) false name criticalTbl hlt (h.ids i hused)
      (nofun) (fun _ => rfl) (by omega) (by omega)
    refine ⟨hreg.inv, fun he => (hreg.unchanged he).2, fun hok =>
      ⟨i, (s.record i).blockID, rfl, (hreg.stored hok).1, (hreg.stored hok).2, hreg.keeps,
        fun _ => rfl⟩, fun hcurrent hkept => ?_⟩
    rcases hreg.kept (hkept i hname) with hok | hsame
    · exact .of_eq (hreg.stored hok).2
    · rw [hsame]
      exact hcurrent
  | none =>
    rw [registerCDSEx_of_none hsize hname, hnew]
    exact h.register_new name criticalTbl (by omega) (by omega)

theorem CdsInv.delete (h : CdsInv cfg s blocks free) (cdsName : List (BitVec 8))
    (calledByTblServices : Bool) (appRegistered : List (BitVec 8) → Bool) :
    (∃ blocks' free', CdsInv cfg (deleteCDS cfg s cdsName calledByTblServices appRegistered).2
      blocks' free') ∧ (RegistryCurrent cfg s →
        RegistryCurrent cfg (deleteCDS cfg s cdsName calledByTblServices appRegistered).2) := by
  have hsame : (∃ blocks free, CdsInv cfg s blocks free) ∧
      (RegistryCurrent cfg s → RegistryCurrent cfg s) := ⟨⟨blocks, free, h⟩, id⟩
  unfold deleteCDS
  split
  · exact hsame
  next i hi =>
  obtain ⟨hlt, hused⟩ := locateCDSBlockRecordByName_isUsed hi
  simp only
  split
  · exact hsame
  split
  · exact hsame
  by_cases hoff : (s.record i).blockOffset = 0
  · -- the entry lost its block in a failed resize: the pool rejects offset zero
    have hput : genPoolPutBlock s.poolState 0 = (.error .bufferNotInPool, s.poolState) := by
      have herr : allocatedBlock s.poolState 0 = .error .bufferNotInPool := by
        unfold allocatedBlock
        rw [if_pos (.inr (by decide))]
      unfold genPoolPutBlock
      rw [herr]
    rw [hoff, hput]
    exact hsame
  · obtain ⟨⟨size, hok⟩, _, blocks', free', hinv⟩ := h.release ⟨hused, hoff⟩
      (fun r => { r with blockID := resourceIdUndefined }) (fun _ => .inl rfl)
      (fun _ => .inl rfl) fun _ hr =>
        { hr with blockID := show 0 < 2 ^ 32 by decide }
    rcases hput : genPoolPutBlock s.poolState (s.record i).blockOffset with ⟨status, ps⟩
    rw [hput] at hok hinv
    simp only at hok hinv
    rw [hok]
    obtain ⟨hupdate, hstored⟩ := hinv.toCdsBase.update_current
    exact ⟨⟨blocks', free', hupdate⟩, fun _ => .of_eq hstored⟩

/-- The pool knows the block of an entry, with the recorded size. -/
theorem CdsInv.genPoolGetBlockSize_eq (h : CdsInv cfg s blocks free) (hin : InUse s.registry i) :
    genPoolGetBlockSize s.poolState (s.record i).blockOffset = .ok (s.record i).blockSize := by
  obtain ⟨b, hb, hfree, hsize, hoff, hrec⟩ := h.block hin
  rw [hoff, hrec]
  exact h.store.genPoolGetBlockSize_eq hb hfree hsize

/-- A write that gets as far as the storage is made by an entry in use. -/
theorem inUse_of_write {handle blockSize : Nat} (hid : locateCDSBlockRecordByID cfg handle = some i)
    (hmatch : (s.record i).blockID = handle)
    (hget : genPoolGetBlockSize s.poolState (s.record i).blockOffset = .ok blockSize) :
    InUse s.registry i := by
  have hoff : (s.record i).blockOffset ≠ 0 := by
    intro h0
    rw [h0] at hget
    unfold genPoolGetBlockSize allocatedBlock at hget
    rw [if_pos (.inr (by decide))] at hget
    exact absurd hget (by simp [Except.map])
  exact HasBlock.inUse ⟨hid, hmatch, hoff, rfl⟩

/-- The data of a block begin behind its header, without wrapping. -/
theorem CdsInv.dataOffset_eq (h : CdsInv cfg s blocks free) (hin : InUse s.registry i) :
    sizeT ((s.record i).blockOffset + blockHeaderSize) =
      (s.record i).blockOffset + blockHeaderSize := by
  obtain ⟨b, hb, _, _, hboff, _⟩ := h.block hin
  rw [hboff]
  have hhigh := (chain_mem h.store.pool.chain hb).2
  have hmax := h.store.maxOffset_eq
  have htail := h.store.tail_le
  have hlayout := CdsConfig.layout h.store.room
  have htotal := cfg.totalSize_lt
  unfold blockHeaderSize
  exact Nat.mod_eq_of_lt (by omega)

/-- The state after data were written to the block of entry `i`. -/
def writeBlock (cfg : CdsConfig) (s : CdsState) (i : Nat) (data : List (BitVec 8)) : CdsState :=
  { s with
    mem := writeBytes (writeLE s.mem (s.record i).blockOffset blockHeaderSize
      (cfg.calculateCRC data).toNat) ((s.record i).blockOffset + blockHeaderSize) data }

/-- Header and data of a write lie inside the block of the entry. -/
theorem writeBlock_of_outside {k : Nat}
    (hsize : (s.record i).blockSize = data.length + blockHeaderSize)
    (hk : k < (s.record i).blockOffset ∨ (s.record i).blockOffset + (s.record i).blockSize ≤ k) :
    (writeBlock cfg s i data).mem k = s.mem k := by
  show writeBytes _ _ data k = s.mem k
  rw [writeBytes_of_outside (by omega), writeLE_of_outside (by omega)]

/-- A write to the block of an entry does not reach the registry. -/
theorem CdsInv.readRegistry_writeBlock (h : CdsInv cfg s blocks free) (hin : InUse s.registry i)
    (hsize : (s.record i).blockSize = data.length + blockHeaderSize) :
    readRegistry cfg (writeBlock cfg s i data).mem = readRegistry cfg s.mem := by
  obtain ⟨b, hb, _, _, hoff, _⟩ := h.block hin
  have hlow := (h.store.pool.offset_bounds hb).1
  exact readRegistry_congr fun k _ hk => writeBlock_of_outside hsize (.inl (by omega))

theorem CdsInv.of_writeBlock (h : CdsInv cfg s blocks free) (hin : InUse s.registry i)
    (hsize : (s.record i).blockSize = data.length + blockHeaderSize) :
    CdsInv cfg (writeBlock cfg s i data) blocks free := by
  have hreg := h.readRegistry_writeBlock hin hsize
  obtain ⟨b, hb, _, _, hoff, hrec⟩ := h.block hin
  have hlen := (h.store.pool.stored b hb).size
  obtain ⟨hlow, hhigh⟩ := chain_mem h.store.pool.chain hb
  have hstart := cfg.registry_end
  refine ⟨⟨h.store.of_mem (fun c hc k hk hk' => writeBlock_of_outside hsize ?_)
    (fun k hk => writeBlock_of_outside hsize ?_), h.owned, h.length, h.fits, h.ids⟩,
    fun i hi => ?_, ?_⟩
  · rcases chain_apart h.store.pool.chain hb hc with rfl | hlt | hlt <;> omega
  · omega
  · rw [hreg]
    exact h.synced i hi
  · rw [hreg]
    exact h.storedIds

/-- What a write does: it fails and changes nothing, or it writes the block of the
handle. -/
theorem CdsInv.write_outcome (h : CdsInv cfg s blocks free) (handle : Nat) (dataToWrite : Mem) :
    ((cdsBlockWrite cfg s handle dataToWrite).1 ≠ .success ∧
      (cdsBlockWrite cfg s handle dataToWrite).2 = s) ∨
    ∃ i n, 0 < n ∧ HasBlock cfg s handle (n + blockHeaderSize) i ∧
      cdsBlockWrite cfg s handle dataToWrite =
        (.success, writeBlock cfg s i (readBytes dataToWrite 0 n)) := by
  unfold cdsBlockWrite
  cases hid : locateCDSBlockRecordByID cfg handle with
  | none => exact .inl ⟨by simp, rfl⟩
  | some i =>
    rw [show (some i).elim (CdsStatus.resourceIdNotValid, s)
      (fun i => writeRecord cfg s i handle dataToWrite) = writeRecord cfg s i handle dataToWrite
      from rfl]
    unfold writeRecord
    simp only
    split
    · exact .inl ⟨by simp, rfl⟩
    rename_i hmatch
    split
    · exact .inl ⟨by simp, rfl⟩
    rename_i blockSize hget
    split
    · exact .inl ⟨by simp, rfl⟩
    rename_i hsize
    have hin := inUse_of_write hid (Decidable.not_not.1 hmatch) hget
    rw [h.dataOffset_eq hin]
    exact .inr ⟨i, (s.record i).blockSize - blockHeaderSize, by omega,
      ⟨hid, Decidable.not_not.1 hmatch, hin.2, by omega⟩, rfl⟩

theorem CdsInv.write (h : CdsInv cfg s blocks free) (handle : Nat) (dataToWrite : Mem) :
    CdsInv cfg (cdsBlockWrite cfg s handle dataToWrite).2 blocks free ∧ (RegistryCurrent cfg s →
      RegistryCurrent cfg (cdsBlockWrite cfg s handle dataToWrite).2) := by
  rcases h.write_outcome handle dataToWrite with ⟨_, hsame⟩ | ⟨i, n, _, hblock, hwrite⟩
  · rw [hsame]
    exact ⟨h, id⟩
  · rw [hwrite]
    have hsize : (s.record i).blockSize =
        (readBytes dataToWrite 0 n).length + blockHeaderSize := by
      rw [length_readBytes]
      exact hblock.blockSize
    refine ⟨h.of_writeBlock hblock.inUse hsize, fun hcurrent j hj => ?_⟩
    rw [h.readRegistry_writeBlock hblock.inUse hsize] at hj ⊢
    exact hcurrent j hj

/-! ## Start-up -/

/-- The loop of `CFE_ES_ClearCDS` has zeroed the storage up to its offset. -/
structure ClearInv (total : Nat) (st : ClearState) : Prop where
  size : st.size = 16 ∨ st.offset = total
  offset : st.offset ≤ total
  zero : ∀ i < st.offset, st.mem i = 0

theorem ClearInv.step {total : Nat} {st : ClearState} (htotal : total < 2 ^ 32)
    (h : ClearInv total st) (hlt : st.offset < total) : ClearInv total (clearBody total st) := by
  obtain ⟨hsize, _, hzero⟩ := h
  unfold clearBody
  simp only
  generalize hn : (if total - st.offset < 16 then total - st.offset else st.size) = n
  have hle : st.offset + n ≤ total ∧ (n = 16 ∨ st.offset + n = total) := by
    split at hn <;> omega
  have hnext : sizeT (st.offset + n) = st.offset + n := by
    unfold sizeT
    exact Nat.mod_eq_of_lt (by omega)
  refine ⟨?_, ?_, ?_⟩
  · rw [hnext]
    exact hle.2
  · rw [hnext]
    exact hle.1
  · intro i hi
    have hi' : i < st.offset + n := by rwa [← hnext]
    show writeBytes st.mem st.offset (List.replicate n 0) i = 0
    by_cases hlow : i < st.offset
    · rw [writeBytes_of_outside (.inl hlow)]
      exact hzero i hlow
    · unfold writeBytes
      rw [length_replicate, if_pos (by omega), getD_replicate _ (by omega)]

theorem clearCDS_zero {m' : Mem} (h : clearCDS fuel cfg m = some m') :
    ∀ i < cfg.totalSize, m' i = 0 := by
  obtain ⟨st, hst, rfl⟩ := map_eq_some_iff.1 h
  have hrun : Yields (fun st : ClearState => decide (st.offset < cfg.totalSize))
      (clearBody cfg.totalSize) ⟨0, 16, m⟩ st := ⟨fuel, hst⟩
  obtain ⟨hinv, hend⟩ := hrun.invariant (ClearInv cfg.totalSize)
    (fun st hst hlt => hst.step cfg.totalSize_lt (of_decide_eq_true hlt))
    ⟨.inl rfl, Nat.zero_le _, fun i hi => absurd hi (Nat.not_lt_zero i)⟩
  have hge := of_decide_eq_false hend
  intro i hi
  exact hinv.zero i (by omega)

theorem createCDSPool_error {e : CdsStatus} (h : createCDSPool fuel cfg = some (.error e)) :
    e ≠ .success := by
  unfold createCDSPool at h
  split at h
  · intro he
    rw [he] at h
    cases h
  obtain ⟨r, _, hr⟩ := map_eq_some_iff.1 h
  intro he
  rw [he] at hr
  cases r with
  | error e' | ok p => exact absurd hr (by simp [Except.mapError])

/-- What a successful creation of a store did. -/
theorem createCDS_success (h : createCDS fuel cfg s = some (.success, s')) :
    ∃ m pool, clearCDS fuel cfg s.mem = some m ∧ createCDSPool fuel cfg = some (.ok pool) ∧
      s' = initCDSRegistry cfg { s with mem := initCDSSignatures cfg m, pool := pool } := by
  obtain ⟨m, hclear, hrest⟩ := bind_eq_some_iff.1 h
  obtain ⟨r, hcreate, hr⟩ := map_eq_some_iff.1 hrest
  cases r with
  | error => exact absurd (congrArg Prod.fst hr) (createCDSPool_error hcreate)
  | ok pool => exact ⟨m, pool, hclear, hcreate, (congrArg Prod.snd hr).symm⟩

/-- The storage of a new store: the header fields, and zeros in the pool. -/
theorem headerOk_init (hroom : cfg.minRequiredSize ≤ cfg.totalSize)
    (hzero : ∀ i < cfg.totalSize, m i = 0) :
    HeaderOk cfg (writeLE (initCDSSignatures cfg m) cdsRegSizeOffset 4 cfg.maxNumEntries) ∧
      ∀ i, cfg.poolOffset ≤ i → i < cfg.poolOffset + cfg.dataSize →
        writeLE (initCDSSignatures cfg m) cdsRegSizeOffset 4 cfg.maxNumEntries i = 0 := by
  have hlayout := CdsConfig.layout hroom
  have hend := cfg.registry_end
  have htrailer : cdsTrailerSize = 8 := rfl
  have hlen : signatureBegin.length = 8 ∧ signatureEnd.length = 8 := ⟨rfl, rfl⟩
  have hoffsets : cdsSigBeginOffset = 0 ∧ cdsRegSizeOffset = 8 ∧ cdsRegOffset = 12 :=
    ⟨rfl, rfl, rfl⟩
  have hn : cfg.maxNumEntries < 256 ^ 4 := by
    have h := cfg.hentries.2
    unfold resourceIdMax at h
    omega
  refine ⟨⟨?_, readLE_writeLE_of_lt hn, ?_⟩, ?_⟩
  · rw [← readBytes_writeBytes m 0 signatureBegin]
    refine readBytes_congr fun i _ hi => ?_
    have hi' : i < 0 + 8 := hi
    rw [writeLE_of_outside (by omega)]
    exact writeBytes_of_outside (by omega)
  · rw [← readBytes_writeBytes (writeBytes m 0 signatureBegin) (cfg.totalSize - cdsTrailerSize)
      signatureEnd]
    refine readBytes_congr fun i hi _ => ?_
    rw [writeLE_of_outside (by omega)]
    rfl
  · intro i hi hi'
    rw [writeLE_of_outside (by omega)]
    unfold initCDSSignatures
    rw [writeBytes_of_outside (by omega), writeBytes_of_outside (by omega)]
    exact hzero i (by omega)

/-- A new store: no blocks, and a registry of blank records, in RAM and in storage. -/
theorem createCDS_inv (hroom : cfg.minRequiredSize ≤ cfg.totalSize)
    (h : createCDS fuel cfg s = some (.success, s')) :
    (CdsInv cfg s' [] fun _ => []) ∧ readRegistry cfg s'.mem = s'.registry := by
  obtain ⟨m, pool, hclear, hcreate, rfl⟩ := createCDS_success h
  have hlayout := CdsConfig.layout hroom
  have htotal := cfg.totalSize_lt
  obtain ⟨hheader, hzero⟩ := headerOk_init hroom (clearCDS_zero hclear)
  have hpool : pool.tailPosition = cfg.poolOffset ∧
      pool.poolMaxOffset = sizeT (cfg.dataSize + cfg.poolOffset) := by
    obtain ⟨_, sizes, _, rfl⟩ := genPoolInitialize_ok (createCDSPool_ok hcreate)
    exact ⟨rfl, rfl⟩
  have hmax : sizeT (cfg.dataSize + cfg.poolOffset) = cfg.dataSize + cfg.poolOffset := by
    unfold sizeT
    exact Nat.mod_eq_of_lt (by omega)
  have hblank : ∀ i, ((List.replicate cfg.maxNumEntries (blankRecord cfg)).getD i default).blockID =
      resourceIdUndefined := by
    intro i
    rw [getD_eq_getElem?_getD, getElem?_replicate]
    split <;> rfl
  refine CdsBase.update_current ⟨⟨hroom, poolInv_init (createCDSPool_ok hcreate) _,
    fun b hb => absurd hb (by simp), ⟨fuel, pool, hcreate, SameShape.refl _⟩, fun i hi hi' => ?_,
    hheader⟩, ⟨fun i hi => absurd (hblank i) hi.1, fun i _ hi => absurd (hblank i) hi.1⟩,
    length_replicate, fun r hr => ?_, fun i hi => absurd (hblank i) hi⟩
  · have hlow : pool.tailPosition ≤ i := hi
    have hhigh : i < pool.poolMaxOffset := hi'
    exact hzero i (by omega) (by omega)
  · rw [eq_of_mem_replicate hr]
    exact blankRecord_fits cfg

/-- A start-up that does not find a store. -/
theorem cdsEarlyInit_new (hinvalid : validateCDS cfg m = .invalid)
    (h : cdsEarlyInit fuel cfg m = some ⟨.success, true, s⟩) :
    (CdsInv cfg s [] fun _ => []) ∧ readRegistry cfg s.mem = s.registry := by
  unfold cdsEarlyInit at h
  by_cases hroom : cfg.totalSize < cfg.minRequiredSize
  · rw [if_pos hroom] at h
    cases h
  rw [if_neg hroom, hinvalid] at h
  obtain ⟨r, hr, hboot⟩ := map_eq_some_iff.1 h
  have hcreate := hr
  have hstatus : r.1 = .success := congrArg CdsBoot.status hboot
  have hstate : r.2 = s := congrArg CdsBoot.state hboot
  rw [show r = (CdsStatus.success, s) from Prod.ext hstatus hstate] at hcreate
  exact createCDS_inv (by omega) hcreate

theorem createCDSPool_mono {fuel' : Nat} {r : Except CdsStatus GenPoolRecord} (hle : fuel ≤ fuel')
    (h : createCDSPool fuel cfg = some r) : createCDSPool fuel' cfg = some r := by
  unfold createCDSPool at h ⊢
  split at h
  · next hsize => rwa [if_pos hsize]
  rename_i hsize
  rw [if_neg hsize]
  obtain ⟨x, hx, rfl⟩ := map_eq_some_iff.1 h
  rw [genPoolInitialize_mono hle hx]
  rfl

/-- Rebuilding over the storage of a store ends with the same blocks, on whatever
fuel it ends. -/
theorem StoreInv.rebuild {ps : PoolState} {blocks : List Block} {free : Nat → List Nat}
    (h : StoreInv cfg ps blocks free) :
    ∃ ps' free' fuel, StoreInv cfg ps' blocks free' ∧
      (∀ i, (∀ b ∈ blocks, i < b.offset - descriptorSize ∨ b.offset ≤ i) → ps'.mem i = ps.mem i) ∧
      ∀ fuel' s, s.mem = ps.mem →
        (fuel ≤ fuel' → rebuildCDSPool fuel' cfg s = some (.success, s.withPool ps')) ∧
        ∀ r, rebuildCDSPool fuel' cfg s = some r → r = (.success, s.withPool ps') := by
  obtain ⟨fuel₀, p, hcreate, hshape⟩ := h.created
  have htail := h.tail_le
  have hmax := h.maxOffset_eq
  have htotal := cfg.totalSize_lt
  have hprobe : ps.pool.tailPosition + descriptorSize + ps.pool.alignMask < 2 ^ 64 := by
    rw [h.alignMask_eq]
    unfold descriptorSize
    omega
  obtain ⟨fuel₁, ps', free', hrebuild, hsame, hinv, hmem⟩ :=
    @PoolInv.rebuild cfg.poolParams _ _ _ h.pool h.zero hprobe _ _ (createCDSPool_ok hcreate) hshape
  have htail' := (h.pool.restored hinv hsame).tailPosition
  have hout : ∀ i, i < cfg.poolOffset ∨ ps.pool.tailPosition ≤ i → ps'.mem i = ps.mem i := by
    refine fun i hi => hmem i fun b hb => ?_
    have hlow := (chain_mem h.pool.chain hb).1
    have hhigh := (chain_mem h.pool.chain hb).2
    omega
  have hstore : StoreInv cfg ps' blocks free' :=
    h.of_outside hinv h.bucket hsame (Nat.le_of_eq htail'.symm) (htail'.symm ▸ hout)
  have hresult : ∀ fuel' s, s.mem = ps.mem → max fuel₀ fuel₁ ≤ fuel' →
      rebuildCDSPool fuel' cfg s = some (.success, s.withPool ps') := by
    intro fuel' s hs hle
    unfold rebuildCDSPool
    rw [createCDSPool_mono (by omega) hcreate, hs]
    show (genPoolRebuild fuel' ⟨p, ps.mem⟩).map _ = _
    rw [genPoolRebuild_mono (by omega) hrebuild]
    rfl
  refine ⟨ps', free', max fuel₀ fuel₁, hstore, hmem, fun fuel' s hs => ⟨hresult fuel' s hs, ?_⟩⟩
  intro r hr
  -- a result on less fuel is the result on enough fuel
  obtain ⟨x, hx, hrest⟩ := bind_eq_some_iff.1 hr
  have hx' := createCDSPool_mono (Nat.le_max_left fuel' fuel₀) hx
  rw [createCDSPool_mono (Nat.le_max_right fuel' fuel₀) hcreate] at hx'
  obtain rfl := Option.some.inj hx'
  obtain ⟨y, hy, rfl⟩ := map_eq_some_iff.1 hrest
  have hy' := genPoolRebuild_mono (Nat.le_max_left fuel' fuel₁) hy
  rw [hs, genPoolRebuild_mono (Nat.le_max_right fuel' fuel₁) hrebuild] at hy'
  rw [Option.some.inj hy']

/-- The state after a reset: the registry is the stored one. -/
def restarted (cfg : CdsConfig) (ps : PoolState) (m : Mem) : CdsState :=
  { startState cfg m with registry := readRegistry cfg m }.withPool ps

theorem HeaderOk.validate (h : HeaderOk cfg m) : validateCDS cfg m = .success := by
  unfold validateCDS
  rw [if_neg (not_not.2 h.sigBegin), if_neg (not_not.2 h.sigEnd)]

/-- A reset over the storage of a store takes the rebuilding path. -/
theorem StoreInv.cdsEarlyInit_eq (h : StoreInv cfg ps blocks free) (fuel : Nat) :
    cdsEarlyInit fuel cfg ps.mem = ((rebuildCDSPool fuel cfg { startState cfg ps.mem with
          registry := readRegistry cfg ps.mem }).bind fun r =>
        if r.1 = .invalid then createCDS fuel cfg r.2 else some r).map fun r =>
          ⟨r.1, r.1 = .success, r.2⟩ := by
  have hroom := h.room
  unfold cdsEarlyInit
  rw [if_neg (by omega), if_pos h.header.validate]
  have hsize : readLE (startState cfg ps.mem).mem cdsRegSizeOffset 4 = cfg.maxNumEntries :=
    h.header.regSize
  unfold rebuildCDS
  rw [if_neg (not_not.2 hsize)]
  rfl

/-- A reset over the storage of a store ends, with the same blocks. -/
theorem StoreInv.restart (h : StoreInv cfg ps blocks free) :
    ∃ ps' free', StoreInv cfg ps' blocks free' ∧
      (∀ i, (∀ b ∈ blocks, i < b.offset - descriptorSize ∨ b.offset ≤ i) → ps'.mem i = ps.mem i) ∧
      readRegistry cfg ps'.mem = readRegistry cfg ps.mem ∧
      (∃ fuel, cdsEarlyInit fuel cfg ps.mem = some ⟨.success, true, restarted cfg ps' ps.mem⟩) ∧
      ∀ fuel b, cdsEarlyInit fuel cfg ps.mem = some b →
        b = ⟨.success, true, restarted cfg ps' ps.mem⟩ := by
  obtain ⟨ps', free', fuel, hstore, hmem, hrebuild⟩ := h.rebuild
  refine ⟨ps', free', hstore, hmem, readRegistry_congr fun i _ hi => hmem i fun b hb => ?_,
    ⟨fuel, ?_⟩, fun fuel' b hb => ?_⟩
  · have hlow := (h.pool.offset_bounds hb).1
    omega
  · rw [h.cdsEarlyInit_eq, (hrebuild fuel _ rfl).1 (Nat.le_refl _)]
    rfl
  · rw [h.cdsEarlyInit_eq] at hb
    obtain ⟨r, hr, rfl⟩ := map_eq_some_iff.1 hb
    obtain ⟨x, hx, hrest⟩ := bind_eq_some_iff.1 hr
    obtain rfl := (hrebuild fuel' _ rfl).2 x hx
    have hr' := Option.some.inj hrest
    rw [← hr']
    rfl

/-! ## Runs -/

/-- The states a store can reach from a start-up that found none, with every
registration `Fits` for the state it is made in, and every processor reset made in
a state that is `Ok`. -/
inductive CdsRun (cfg : CdsConfig) (Fits : CdsState → Nat → List (BitVec 8) → Prop)
    (Ok : CdsState → Prop) : CdsState → Prop where
  | boot {fuel : Nat} {m : Mem} {s : CdsState} (hinvalid : validateCDS cfg m = .invalid)
      (h : cdsEarlyInit fuel cfg m = some ⟨.success, true, s⟩) : CdsRun cfg Fits Ok s
  | register {s : CdsState} (hrun : CdsRun cfg Fits Ok s) (userBlockSize : Nat)
      (name : List (BitVec 8)) (criticalTbl : Bool) (hfits : Fits s userBlockSize name) :
      CdsRun cfg Fits Ok (registerCDSEx cfg s userBlockSize name criticalTbl).2
  | delete {s : CdsState} (hrun : CdsRun cfg Fits Ok s) (cdsName : List (BitVec 8))
      (calledByTblServices : Bool) (appRegistered : List (BitVec 8) → Bool) :
      CdsRun cfg Fits Ok (deleteCDS cfg s cdsName calledByTblServices appRegistered).2
  | write {s : CdsState} (hrun : CdsRun cfg Fits Ok s) (handle : Nat) (dataToWrite : Mem) :
      CdsRun cfg Fits Ok (cdsBlockWrite cfg s handle dataToWrite).2
  | reset {fuel : Nat} {s s' : CdsState} (hrun : CdsRun cfg Fits Ok s) (hok : Ok s)
      (h : cdsEarlyInit fuel cfg s.mem = some ⟨.success, true, s'⟩) : CdsRun cfg Fits Ok s'

/-- No condition on the registrations of a run. -/
abbrev AnyCall : CdsState → Nat → List (BitVec 8) → Prop := fun _ _ _ => True

/-- A reset while the stored registry is current keeps the ownership, and the
registry is current again. -/
theorem CdsInv.reset (h : CdsInv cfg s blocks free) (hcurrent : RegistryCurrent cfg s) {b : CdsBoot}
    (hboot : cdsEarlyInit fuel cfg s.mem = some b) :
    (∃ free', CdsInv cfg b.state blocks free') ∧ RegistryCurrent cfg b.state := by
  obtain ⟨ps', free', hstore, _, hreg, _, hunique⟩ := h.store.restart
  obtain rfl := hunique fuel b hboot
  refine ⟨⟨free', ⟨hstore, h.owned.clear hcurrent, length_readRegistry cfg s.mem, fun r hr => ?_,
    h.storedIds⟩, fun i _ => ?_, ?_⟩, .of_eq hreg⟩
  · obtain ⟨i, _, rfl⟩ := mem_map.1 hr
    exact readRegRec_fits cfg s.mem _
  · exact congrArg (fun reg => reg.getD i default) hreg
  · show IdsOk cfg (readRegistry cfg ps'.mem)
    rw [hreg]
    exact h.storedIds

theorem CdsRun.exists_cdsInv {Fits : CdsState → Nat → List (BitVec 8) → Prop}
    (h : CdsRun cfg Fits (RegistryCurrent cfg) s) :
    ∃ blocks free, CdsInv cfg s blocks free := by
  induction h with
  | boot hinvalid h => exact ⟨_, _, (cdsEarlyInit_new hinvalid h).1⟩
  | register hrun userBlockSize name criticalTbl _ ih =>
    obtain ⟨blocks, free, hinv⟩ := ih
    exact (hinv.register userBlockSize name criticalTbl).inv
  | delete hrun cdsName calledByTblServices appRegistered ih =>
    obtain ⟨blocks, free, hinv⟩ := ih
    exact (hinv.delete cdsName calledByTblServices appRegistered).1
  | write hrun handle dataToWrite ih =>
    obtain ⟨blocks, free, hinv⟩ := ih
    exact ⟨blocks, free, (hinv.write handle dataToWrite).1⟩
  | reset hrun hok h ih =>
    obtain ⟨blocks, free, hinv⟩ := ih
    obtain ⟨⟨free', hinv'⟩, _⟩ := hinv.reset hok h
    exact ⟨blocks, free', hinv'⟩

/-- The block sizes of the sample configuration, with a registry of eight entries
in eight kilobytes. -/
def smallCds : CdsConfig where
  maxNumEntries := 8
  maxFullNameLen := 40
  maxApiName := 20
  memPoolDefSize := [80000, 32768, 16384, 8192, 4096, 2048, 1024, 512, 256, 160, 128, 96, 64, 48,
    32, 16, 8]
  platformSize := 8192
  calculateCRC := fun data => data.foldl (fun crc byte => (crc + byte.toNat) % 2 ^ 16) 0
  hentries := by decide
  hname := by decide
  hsizes := by decide
  hblocks := by decide
  hplatform := by decide

/-- The state a start-up leaves. -/
def bootState (fuel : Nat) (cfg : CdsConfig) (m : Mem) : CdsState :=
  ((cdsEarlyInit fuel cfg m).map CdsBoot.state).getD (startState cfg m)

theorem cdsEarlyInit_bootState {fuel : Nat} {m : Mem}
    (h : (cdsEarlyInit fuel cfg m).map (fun b => (b.status, b.cdsIsAvailable)) =
      some (.success, true)) :
    cdsEarlyInit fuel cfg m = some ⟨.success, true, bootState fuel cfg m⟩ := by
  obtain ⟨b, hb, hstatus⟩ := map_eq_some_iff.1 h
  have hstate : bootState fuel cfg m = b.state := by
    unfold bootState
    rw [hb]
    rfl
  obtain ⟨hsuccess, havailable⟩ := Prod.mk.inj hstatus
  rw [hb, hstate, ← hsuccess, ← havailable]

end CfsEds.Es
