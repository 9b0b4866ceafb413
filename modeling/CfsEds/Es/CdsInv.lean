import CfsEds.Es.Cds
import CfsEds.Es.PoolRebuild

/-!
# Invariants of the critical data store

Two pictures carry the proofs. `StoreInv` is about the storage: the header is in
place, the pool consists of a list of blocks, and behind the last block the pool
is zero, so that a scan after a reset stops there. `Owned` is about the registry:
every entry in use that has a block has one of those blocks, allocated, with the
recorded size, and no two entries have the same.

Each pool operation, each registry update and each write into a block is shown to
keep `StoreInv`; `Owned` is kept when an entry gives its block up (`Owned.clear`,
then `Owned.release`) and when it gets a new one (`Owned.acquire`).
-/

namespace CfsEds.Es

open CfsEds.Lib.Loop CfsEds.Lib.Memory List

/-! ## Layout -/

section Layout

variable {cfg : CdsConfig}

theorem minBlockSize_lt {bound : Nat} (hbound : 0 < bound) {l : List Nat}
    (h : ∀ x ∈ l, x < bound) : minBlockSize l < bound := by
  cases l with
  | nil => exact hbound
  | cons b rest =>
    have hrest : ∀ x ∈ rest, x < bound := fun x hx => h x (mem_cons_of_mem b hx)
    have hb := h b (by simp)
    clear h
    induction rest generalizing b with
    | nil => exact hb
    | cons x rest ih =>
      have hx := hrest x (by simp)
      refine ih _ (fun y hy => hrest y (mem_cons_of_mem x hy)) ?_
      show (if x < b then x else b) < bound
      split
      · exact hx
      · exact hb

theorem genPoolCalcMinSize_le (n : Nat) : genPoolCalcMinSize cfg.memPoolDefSize n ≤ n * 2 ^ 33 := by
  have hmin := minBlockSize_lt (by decide) cfg.hblocks
  refine (Nat.mod_le _ _).trans (Nat.mul_le_mul_left n ((Nat.mod_le _ _).trans ?_))
  unfold descriptorSize
  omega

theorem CdsConfig.totalSize_lt (cfg : CdsConfig) : cfg.totalSize < 2 ^ 32 :=
  Nat.lt_of_le_of_lt Nat.and_le_left cfg.hplatform

/-- When the storage is large enough, header, pool and trailer fill it. -/
theorem CdsConfig.layout (h : cfg.minRequiredSize ≤ cfg.totalSize) :
    cfg.poolOffset + cfg.dataSize + cdsTrailerSize = cfg.totalSize := by
  have hmin := @genPoolCalcMinSize_le cfg cfg.maxNumEntries
  have hn : cfg.maxNumEntries * 2 ^ 33 ≤ resourceIdMax * 2 ^ 33 :=
    Nat.mul_le_mul_right _ cfg.hentries.2
  have hpool := cfg.poolOffset_lt
  have htotal := cfg.totalSize_lt
  have htrailer : cdsTrailerSize = 8 := rfl
  unfold resourceIdMax at hn
  unfold CdsConfig.minRequiredSize sizeT at h
  unfold CdsConfig.dataSize sizeT
  unfold CdsConfig.reservedMinSize at h ⊢
  omega

/-- The registry lies between the header fields and the pool. -/
theorem CdsConfig.registry_end (cfg : CdsConfig) :
    cdsRegOffset + cfg.maxNumEntries * cfg.regRecSize ≤ cfg.poolOffset := by
  unfold CdsConfig.poolOffset
  have hround : cfg.maxNumEntries * cfg.regRecSize ≤
      cdsReserveSpace (cfg.maxNumEntries * cfg.regRecSize) := by
    unfold cdsReserveSpace
    omega
  omega

end Layout

/-! ## The registry in storage -/

/-- The fields of a record have the widths of their C types. -/
structure RecFits (cfg : CdsConfig) (r : CdsRegRec) : Prop where
  blockID : r.blockID < 2 ^ 32
  blockOffset : r.blockOffset < 2 ^ 64
  blockSize : r.blockSize < 2 ^ 64
  name : r.name.length = cfg.maxFullNameLen

section Registry

variable {cfg : CdsConfig} {m : Mem}

theorem CdsConfig.le_regRecSize (cfg : CdsConfig) :
    24 + cfg.maxFullNameLen + 1 ≤ cfg.regRecSize := by
  unfold CdsConfig.regRecSize
  omega

theorem readRegRec_fits (cfg : CdsConfig) (m : Mem) (off : Nat) :
    RecFits cfg (readRegRec cfg m off) :=
  ⟨readLE_lt m 4 off, readLE_lt m 8 (off + 8), readLE_lt m 8 (off + 16), by
    simp [readRegRec, readBytes]⟩

/-- A record depends on its own bytes only. -/
theorem readRegRec_congr {m' : Mem} {off : Nat}
    (h : ∀ i, off ≤ i → i < off + cfg.regRecSize → m i = m' i) :
    readRegRec cfg m off = readRegRec cfg m' off := by
  have hsize := cfg.le_regRecSize
  have hid := readLE_congr 4 off fun i hi hi' => h i (by omega) (by omega)
  have hoffset := readLE_congr 8 (off + 8) fun i hi hi' => h i (by omega) (by omega)
  have hblock := readLE_congr 8 (off + 16) fun i hi hi' => h i (by omega) (by omega)
  have hname := @readBytes_congr m m' (off + 24) cfg.maxFullNameLen
    fun i hi hi' => h i (by omega) (by omega)
  have htable := h (off + 24 + cfg.maxFullNameLen) (by omega) (by omega)
  simp only [readRegRec, hid, hoffset, hblock, hname, htable]

theorem readRegRec_writeRegRec {off : Nat} {r : CdsRegRec} (h : RecFits cfg r) :
    readRegRec cfg (writeRegRec cfg m off r) off = r := by
  have hname := h.name
  have hid : readLE (writeRegRec cfg m off r) off 4 = r.blockID := by
    unfold writeRegRec
    rw [readLE_writeLE_of_disjoint (by omega),
      readLE_congr 4 off fun i _ hi => writeBytes_of_outside (by omega),
      readLE_writeLE_of_disjoint (by omega), readLE_writeLE_of_disjoint (by omega),
      readLE_writeLE_of_lt h.blockID]
  have hoffset : readLE (writeRegRec cfg m off r) (off + 8) 8 = r.blockOffset := by
    unfold writeRegRec
    rw [readLE_writeLE_of_disjoint (by omega),
      readLE_congr 8 (off + 8) fun i _ hi => writeBytes_of_outside (by omega),
      readLE_writeLE_of_disjoint (by omega), readLE_writeLE_of_lt h.blockOffset]
  have hblock : readLE (writeRegRec cfg m off r) (off + 16) 8 = r.blockSize := by
    unfold writeRegRec
    rw [readLE_writeLE_of_disjoint (by omega),
      readLE_congr 8 (off + 16) fun i _ hi => writeBytes_of_outside (by omega),
      readLE_writeLE_of_lt h.blockSize]
  have hbytes : readBytes (writeRegRec cfg m off r) (off + 24) cfg.maxFullNameLen = r.name := by
    unfold writeRegRec
    rw [readBytes_congr fun i _ hi => writeLE_of_outside (by omega), ← hname]
    exact readBytes_writeBytes _ _ _
  have htable : writeRegRec cfg m off r (off + 24 + cfg.maxFullNameLen) =
      BitVec.ofNat 8 r.table.toNat := by
    unfold writeRegRec
    rw [writeLE, if_pos (by omega), Nat.sub_self, Nat.pow_zero, Nat.div_one]
  have hflag : decide (BitVec.ofNat 8 r.table.toNat ≠ 0) = r.table := by
    cases r.table <;> rfl
  simp only [readRegRec, hid, hoffset, hblock, hbytes, htable, hflag]

theorem writeRegRec_of_outside {off i : Nat} {r : CdsRegRec}
    (hname : r.name.length = cfg.maxFullNameLen) (h : i < off ∨ off + cfg.regRecSize ≤ i) :
    writeRegRec cfg m off r i = m i := by
  have hsize := cfg.le_regRecSize
  unfold writeRegRec
  rw [writeLE_of_outside (by omega), writeBytes_of_outside (by omega),
    writeLE_of_outside (by omega), writeLE_of_outside (by omega), writeLE_of_outside (by omega)]

theorem writeRegRecs_of_outside : ∀ {l : List CdsRegRec} {m : Mem} {off i : Nat},
      (∀ r ∈ l, r.name.length = cfg.maxFullNameLen) →
      (i < off ∨ off + l.length * cfg.regRecSize ≤ i) → writeRegRecs cfg m off l i = m i := by
  intro l
  induction l with
  | nil => intro m off i _ _; rfl
  | cons r l ih =>
    intro m off i hnames h
    rw [length_cons, Nat.succ_mul] at h
    rw [writeRegRecs, ih (fun x hx => hnames x (mem_cons_of_mem r hx)) (by omega),
      writeRegRec_of_outside (hnames r (by simp)) (by omega)]

/-- Each record of a registry that was written can be read back. -/
theorem readRegRec_writeRegRecs : ∀ {l : List CdsRegRec} {m : Mem} {off i : Nat} {r : CdsRegRec},
      (∀ r ∈ l, RecFits cfg r) → l[i]? = some r →
      readRegRec cfg (writeRegRecs cfg m off l) (off + i * cfg.regRecSize) = r := by
  intro l
  induction l with
  | nil => intro m off i r _ h; cases h
  | cons x l ih =>
    intro m off i r hfits h
    have hrest : ∀ r ∈ l, RecFits cfg r := fun y hy => hfits y (mem_cons_of_mem x hy)
    rw [writeRegRecs]
    cases i with
    | zero =>
      obtain rfl := Option.some.inj h
      rw [Nat.zero_mul, Nat.add_zero]
      rw [readRegRec_congr fun i _ hi => writeRegRecs_of_outside (fun r hr => (hrest r hr).name)
        (.inl hi)]
      exact readRegRec_writeRegRec (hfits x (by simp))
    | succ i =>
      rw [Nat.succ_mul, show off + (i * cfg.regRecSize + cfg.regRecSize) =
        off + cfg.regRecSize + i * cfg.regRecSize by omega]
      exact ih hrest h

/-- The whole registry can be read back. -/
theorem readRegistry_writeRegRecs {reg : List CdsRegRec} (hlen : reg.length = cfg.maxNumEntries)
    (hfits : ∀ r ∈ reg, RecFits cfg r) :
    readRegistry cfg (writeRegRecs cfg m cdsRegOffset reg) = reg := by
  apply ext_getElem?
  intro i
  unfold readRegistry
  rw [getElem?_map]
  by_cases hi : i < cfg.maxNumEntries
  · rw [getElem?_range hi, getElem?_eq_getElem (hlen ▸ hi)]
    exact congrArg some (readRegRec_writeRegRecs hfits (getElem?_eq_getElem (hlen ▸ hi)))
  · rw [getElem?_eq_none (by simp; omega), getElem?_eq_none (by omega)]
    rfl

/-- The registry read depends on the bytes between the header fields and the pool. -/
theorem readRegistry_congr {m' : Mem}
    (h : ∀ i, cdsRegOffset ≤ i → i < cfg.poolOffset → m i = m' i) :
    readRegistry cfg m = readRegistry cfg m' := by
  have hend := cfg.registry_end
  refine map_congr_left fun i hi => readRegRec_congr fun k hk hk' => h k (by omega) ?_
  have hi' := mem_range.1 hi
  have hrecs : (i + 1) * cfg.regRecSize ≤ cfg.maxNumEntries * cfg.regRecSize :=
    Nat.mul_le_mul_right _ hi'
  rw [Nat.succ_mul] at hrecs
  omega

theorem length_readRegistry (cfg : CdsConfig) (m : Mem) :
    (readRegistry cfg m).length = cfg.maxNumEntries := by
  unfold readRegistry
  rw [length_map, length_range]

end Registry

/-! ## Storage -/

/-- The fields of header and trailer that a start-up checks. -/
structure HeaderOk (cfg : CdsConfig) (m : Mem) : Prop where
  sigBegin : readBytes m cdsSigBeginOffset signatureLen = signatureBegin
  regSize : readLE m cdsRegSizeOffset 4 = cfg.maxNumEntries
  sigEnd : readBytes m (cfg.totalSize - cdsTrailerSize) signatureLen = signatureEnd

theorem HeaderOk.congr {cfg : CdsConfig} {m m' : Mem} (h : HeaderOk cfg m)
    (hm : ∀ i, i < cdsRegOffset ∨ cfg.totalSize - cdsTrailerSize ≤ i → m' i = m i) :
    HeaderOk cfg m' := by
  refine ⟨?_, ?_, ?_⟩
  · rw [← h.sigBegin]
    exact readBytes_congr fun i _ hi => hm i (.inl (Nat.lt_of_lt_of_le hi (by decide)))
  · rw [← h.regSize]
    exact readLE_congr _ _ fun i _ hi => hm i (.inl (Nat.lt_of_lt_of_le hi (by decide)))
  · rw [← h.sigEnd]
    exact readBytes_congr fun i hi _ => hm i (.inr hi)

/-- The storage, and the pool record that belongs to it. -/
structure StoreInv (cfg : CdsConfig) (s : PoolState) (blocks : List Block)
    (free : Nat → List Nat) : Prop where
  room : cfg.minRequiredSize ≤ cfg.totalSize
  pool : PoolInv cfg.poolOffset s blocks free
  bucket : ∀ b ∈ blocks, b.free = false → b.idx = bucketFor s.pool b.size
  created : ∃ fuel p, createCDSPool fuel cfg = some (.ok p) ∧ SameShape p s.pool
  zero : ∀ i, s.pool.tailPosition ≤ i → i < s.pool.poolMaxOffset → s.mem i = 0
  header : HeaderOk cfg s.mem

theorem createCDSPool_ok {fuel : Nat} {cfg : CdsConfig} {p : GenPoolRecord}
    (h : createCDSPool fuel cfg = some (.ok p)) :
    genPoolInitialize fuel cfg.poolParams = some (.ok p) := by
  unfold createCDSPool at h
  split at h
  · cases h
  obtain ⟨r, hr, hp⟩ := Option.map_eq_some_iff.1 h
  cases r with
  | error => exact absurd hp (by simp [Except.mapError])
  | ok =>
    rw [hr]
    simpa [Except.mapError] using hp

section Store

variable {cfg : CdsConfig} {s s' : PoolState} {blocks blocks' : List Block}
  {free free' : Nat → List Nat}

namespace StoreInv

section

variable (h : StoreInv cfg s blocks free)
include h

/-- The pool ends where the trailer begins. -/
theorem maxOffset_eq : s.pool.poolMaxOffset + cdsTrailerSize = cfg.totalSize := by
  obtain ⟨fuel, p, hcreate, hshape⟩ := h.created
  obtain ⟨_, sizes, _, rfl⟩ := genPoolInitialize_ok (createCDSPool_ok hcreate)
  have hlayout := CdsConfig.layout h.room
  have htotal := cfg.totalSize_lt
  have hmax : s.pool.poolMaxOffset = sizeT (cfg.dataSize + cfg.poolOffset) := hshape.poolMaxOffset
  rw [hmax]
  unfold sizeT
  omega

theorem tail_le : s.pool.tailPosition ≤ s.pool.poolMaxOffset := by
  have hlayout := CdsConfig.layout h.room
  have hmax := h.maxOffset_eq
  exact chain_tail_le h.pool.chain (by omega) h.pool.fits

theorem blockSize_lt (i : Nat) : (s.pool.bucket i).blockSize < 2 ^ 32 := by
  obtain ⟨fuel, p, hcreate, hshape⟩ := h.created
  obtain ⟨_, sizes, hperm, rfl⟩ := genPoolInitialize_ok (createCDSPool_ok hcreate)
  rw [hshape.blockSize, bucket_freshPool]
  show sizes.getD i 0 < 2 ^ 32
  rw [getD_eq_getElem?_getD]
  cases hi : sizes[i]? with
  | none => decide
  | some b => exact cfg.hblocks b (hperm.mem_iff.1 (mem_of_getElem? hi))

theorem alignMask_eq : s.pool.alignMask = 3 := by
  obtain ⟨fuel, p, hcreate, hshape⟩ := h.created
  obtain ⟨_, sizes, _, rfl⟩ := genPoolInitialize_ok (createCDSPool_ok hcreate)
  exact hshape.alignMask

/-- No sum in the pool of the store wraps around. -/
theorem getFits (reqSize : Nat) : GetFits s reqSize := by
  intro _
  have hsize := h.blockSize_lt (bucketFor s.pool reqSize)
  have htail := h.tail_le
  have hmax := h.maxOffset_eq
  have htotal := cfg.totalSize_lt
  obtain ⟨k, hk, hmask⟩ := h.pool.align
  have hnext : nextBlockOffset s.pool.alignMask s.pool.tailPosition =
      exactBlockOffset s.pool.alignMask s.pool.tailPosition := by
    apply nextBlockOffset_of_lt hmask hk
    rw [h.alignMask_eq]
    unfold descriptorSize
    omega
  have hexact : exactBlockOffset s.pool.alignMask s.pool.tailPosition ≤ 2 ^ 32 + 27 := by
    unfold exactBlockOffset descriptorSize
    rw [h.alignMask_eq]
    omega
  unfold CreateFits
  unfold sizeT
  omega

/-- An operation that changes storage only in the pool, before the new tail. -/
theorem of_outside (hpool : PoolInv cfg.poolOffset s' blocks' free')
    (hbucket : ∀ b ∈ blocks', b.free = false → b.idx = bucketFor s.pool b.size)
    (hshape : SameShape s.pool s'.pool) (htail : s.pool.tailPosition ≤ s'.pool.tailPosition)
    (hmem : ∀ i, i < cfg.poolOffset ∨ s'.pool.tailPosition ≤ i → s'.mem i = s.mem i) :
    StoreInv cfg s' blocks' free' := by
  obtain ⟨fuel, p, hcreate, hp⟩ := h.created
  have hlayout := CdsConfig.layout h.room
  have hmax := h.maxOffset_eq
  have hmax' := hshape.poolMaxOffset
  have hreg := cfg.registry_end
  have htail' : s'.pool.tailPosition ≤ s'.pool.poolMaxOffset :=
    chain_tail_le hpool.chain (by omega) hpool.fits
  refine ⟨h.room, hpool, fun b hb hfree => ?_, ⟨fuel, p, hcreate, hp.trans hshape⟩, ?_,
    h.header.congr ?_⟩
  · rw [hshape.bucketFor_eq]
    exact hbucket b hb hfree
  · intro i hi hi'
    rw [hmem i (.inr hi)]
    exact h.zero i (by omega) (by omega)
  · intro i hi
    exact hmem i (by omega)

/-- A change of storage that touches no descriptor, no header field and nothing
behind the tail. -/
theorem of_mem {m : Mem}
    (hdesc : ∀ b ∈ blocks, ∀ i, b.offset - descriptorSize ≤ i → i < b.offset → m i = s.mem i)
    (hmem : ∀ i, i < cdsRegOffset ∨ s.pool.tailPosition ≤ i → m i = s.mem i) :
    StoreInv cfg { s with mem := m } blocks free := by
  have htail := h.tail_le
  have hmax := h.maxOffset_eq
  refine ⟨h.room, h.pool.of_mem hdesc, h.bucket, h.created, ?_,
    h.header.congr fun i hi => hmem i ?_⟩
  · intro i hi hi'
    exact (hmem i (.inr hi)).trans (h.zero i hi hi')
  · omega

/-- The pool knows the size of an allocated block. -/
theorem genPoolGetBlockSize_eq {b : Block} (hb : b ∈ blocks) (hfree : b.free = false)
    (hsize : b.size ≠ 0) : genPoolGetBlockSize s b.offset = .ok b.size := by
  unfold genPoolGetBlockSize
  rw [h.pool.allocatedBlock_ok hb hfree hsize]
  show Except.ok (readBD s.mem (b.offset - descriptorSize)).actualSize = _
  rw [(h.pool.stored b hb).actualSize]

/-- Giving an allocated block back. -/
theorem put {b : Block} (hb : b ∈ blocks) (hfree : b.free = false) (hsize : b.size ≠ 0) :
    (genPoolPutBlock s b.offset).1 = .ok b.size ∧
      StoreInv cfg (genPoolPutBlock s b.offset).2 (replaceBlock { b with free := true } blocks)
        (Function.update free b.idx (b.offset :: free b.idx)) := by
  obtain ⟨hok, hinv⟩ := h.pool.put hb hfree hsize
  obtain ⟨htail, hmem⟩ := h.pool.put_outside hb
  refine ⟨hok, h.of_outside hinv (fun c hc hcfree => ?_) (genPoolPutBlock_shape s b.offset)
    (Nat.le_of_eq htail.symm) ?_⟩
  · rcases mem_replaceBlock hc with rfl | ⟨hc, _⟩
    · cases hcfree
    · exact h.bucket c hc hcfree
  · rw [htail]
    exact hmem

/-- No descriptor lies inside a block. -/
theorem outside_descriptor {b c : Block} (hb : b ∈ blocks) (hc : c ∈ blocks) {k : Nat}
    (hlow : c.offset ≤ k) (hhigh : k < c.offset + c.size) :
    k < b.offset - descriptorSize ∨ b.offset ≤ k := by
  have hsize := (h.pool.stored c hc).size
  rcases chain_apart h.pool.chain hb hc with rfl | hlt | hlt <;> omega

/-- Getting a block: it was no allocated block before, and the allocated blocks
are still there. -/
theorem get {reqSize off : Nat} (hwidth : reqSize < 2 ^ 64)
    (hget : genPoolGetBlock s reqSize = .ok (off, s')) :
    ∃ blocks' free', StoreInv cfg s' blocks' free' ∧
      (∃ b ∈ blocks', b.free = false ∧ b.offset = off ∧ b.size = reqSize) ∧
      (∀ k, k < off - descriptorSize ∨ off ≤ k → s'.mem k = s.mem k) ∧
      ∀ c ∈ blocks, c.free = false → c ∈ blocks' ∧ c.offset ≠ off := by
  have hfit := h.getFits reqSize
  obtain ⟨_, hshape, blocks', free', hinv, hcase⟩ := h.pool.get hwidth hfit hget
  obtain ⟨htail, hmem⟩ := h.pool.get_outside hfit hget
  have hbucket : ∀ b ∈ blocks', b.free = false → b.idx = bucketFor s.pool b.size := by
    intro c hc hcfree
    rcases hcase with ⟨b, _, _, _, _, rfl⟩ | ⟨_, rfl⟩
    · rcases mem_replaceBlock hc with rfl | ⟨hc, _⟩
      · rfl
      · exact h.bucket c hc hcfree
    · rcases mem_append.1 hc with hc | hc
      · exact h.bucket c hc hcfree
      · rw [mem_singleton.1 hc]
  refine ⟨blocks', free', h.of_outside hinv hbucket hshape htail hmem, ?_⟩
  rcases hcase with ⟨b, hb, hoff, _, hbfree, rfl⟩ | ⟨hlow, rfl⟩
  · refine ⟨⟨_, mem_replaceBlock_self hb hoff, rfl, rfl, rfl⟩,
      (h.pool.get_mem hfit hget).2.2.2, fun c hc hcfree => ?_⟩
    have hne : c.offset ≠ off := by
      intro heq
      rw [chain_inj h.pool.chain hc hb (heq.trans hoff.symm), hbfree] at hcfree
      cases hcfree
    exact ⟨mem_replaceBlock_of_ne hc hne, hne⟩
  · refine ⟨⟨_, mem_append_right blocks (mem_singleton.2 rfl), rfl, rfl, rfl⟩,
      (h.pool.get_mem hfit hget).2.2.2, fun c hc _ => ?_⟩
    have hend := (chain_mem h.pool.chain hc).2
    refine ⟨mem_append_left _ hc, ?_⟩
    unfold descriptorSize at hlow
    omega

end

end StoreInv

end Store

/-! ## Ownership -/

/-- A registry entry that is in use and has a block. -/
def InUse (reg : List CdsRegRec) (i : Nat) : Prop :=
  (reg.getD i default).blockID ≠ resourceIdUndefined ∧ (reg.getD i default).blockOffset ≠ 0

instance (reg : List CdsRegRec) (i : Nat) : Decidable (InUse reg i) :=
  inferInstanceAs (Decidable (_ ∧ _))

/-- The entries in use have allocated blocks of their own. -/
structure Owned (blocks : List Block) (reg : List CdsRegRec) : Prop where
  backed : ∀ i, InUse reg i → ∃ b ∈ blocks, b.free = false ∧ b.size ≠ 0 ∧
    b.offset = (reg.getD i default).blockOffset ∧ b.size = (reg.getD i default).blockSize
  distinct : ∀ i j, InUse reg i → InUse reg j →
    (reg.getD i default).blockOffset = (reg.getD j default).blockOffset → i = j

section Ownership

variable {blocks blocks' : List Block} {reg reg' : List CdsRegRec}

/-- Entries may become unused or lose their block. -/
theorem Owned.clear (h : Owned blocks reg)
    (hreg : ∀ i, InUse reg' i → reg'.getD i default = reg.getD i default) : Owned blocks reg' := by
  have hin : ∀ i, InUse reg' i → InUse reg i := by
    intro i hi
    have heq := hreg i hi
    unfold InUse at hi ⊢
    rwa [heq] at hi
  refine ⟨fun i hi => ?_, fun i j hi hj hoff => ?_⟩
  · rw [hreg i hi]
    exact h.backed i (hin i hi)
  · rw [hreg i hi, hreg j hj] at hoff
    exact h.distinct i j (hin i hi) (hin j hj) hoff

/-- A block that no entry has may be given back. -/
theorem Owned.release (h : Owned blocks reg) {b : Block}
    (hnone : ∀ i, InUse reg i → (reg.getD i default).blockOffset ≠ b.offset) :
    Owned (replaceBlock { b with free := true } blocks) reg := by
  refine ⟨fun i hi => ?_, h.distinct⟩
  obtain ⟨c, hc, hfree, hsize, hoff, hrec⟩ := h.backed i hi
  exact ⟨c, mem_replaceBlock_of_ne hc (hoff ▸ hnone i hi), hfree, hsize, hoff, hrec⟩

/-- An entry may get a block that was not allocated before. -/
theorem Owned.acquire (h : Owned blocks reg) {i off size : Nat}
    (hother : ∀ j, j ≠ i → reg'.getD j default = reg.getD j default)
    (hoff : (reg'.getD i default).blockOffset = off)
    (hsize : (reg'.getD i default).blockSize = size) (hne : size ≠ 0)
    (hnew : ∃ b ∈ blocks', b.free = false ∧ b.offset = off ∧ b.size = size)
    (hold : ∀ c ∈ blocks, c.free = false → c ∈ blocks' ∧ c.offset ≠ off) : Owned blocks' reg' := by
  -- the other entries keep their blocks, none of which is the new one
  have hkeep : ∀ j, j ≠ i → InUse reg' j → InUse reg j ∧ ∃ c ∈ blocks', c.free = false ∧
      c.size ≠ 0 ∧ c.offset = (reg'.getD j default).blockOffset ∧
      c.size = (reg'.getD j default).blockSize ∧ c.offset ≠ off := by
    intro j hj hin
    have heq := hother j hj
    have hin' : InUse reg j := by
      unfold InUse at hin ⊢
      rwa [heq] at hin
    obtain ⟨c, hc, hfree, hcsize, hcoff, hrec⟩ := h.backed j hin'
    refine ⟨hin', c, (hold c hc hfree).1, hfree, hcsize, ?_, ?_, (hold c hc hfree).2⟩
    · rw [heq, hcoff]
    · rw [heq, hrec]
  refine ⟨fun j hj => ?_, fun j k hj hk heq => ?_⟩
  · by_cases hji : j = i
    · obtain ⟨b, hb, hfree, hboff, hbsize⟩ := hnew
      rw [hji, hoff, hsize]
      exact ⟨b, hb, hfree, hbsize ▸ hne, hboff, hbsize⟩
    · obtain ⟨_, c, hc, hfree, hcsize, hcoff, hrec, _⟩ := hkeep j hji hj
      exact ⟨c, hc, hfree, hcsize, hcoff, hrec⟩
  · by_cases hji : j = i
    · by_cases hki : k = i
      · rw [hji, hki]
      · obtain ⟨_, c, _, _, _, hcoff, _, hcne⟩ := hkeep k hki hk
        rw [hji, hoff] at heq
        exact absurd (hcoff.trans heq.symm) hcne
    obtain ⟨hinj, c, _, _, _, hcoff, _, hcne⟩ := hkeep j hji hj
    by_cases hki : k = i
    · rw [hki, hoff] at heq
      exact absurd (hcoff.trans heq) hcne
    · have hink := (hkeep k hki hk).1
      rw [hother j hji, hother k hki] at heq
      exact h.distinct j k hinj hink heq

end Ownership

end CfsEds.Es
