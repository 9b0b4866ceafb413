import CfsEds.Es.PoolSafety

/-!
# Rebuilding a pool from its storage

`CFE_ES_GenPoolRebuild` scans the descriptors from the start of the pool. On the
storage of a pool with blocks `b₁, …, bₙ` it meets exactly these blocks: it
computes each position the way the creation did, from the end of the block
before, and the descriptor found there has not been touched by the owners of
blocks. After the last block it looks behind the tail, where storage is still
zero, and stops.

The scan is followed block by block: after a prefix of the blocks, the record
under construction satisfies `PoolInv` for that prefix (`rebuildBody_block`), so
at the end it satisfies it for all blocks, with free stacks in another order.
-/

namespace CfsEds.Es

open CfsEds.Lib.Loop CfsEds.Lib.Memory CfsEds.Lib.LinkedList List

variable {b : Block} {p : GenPoolRecord} {fuel fuel' tail : Nat} {s : PoolState}

/-- The inspection of the descriptor of a block finds its bucket and its state. -/
theorem Stored.inspectBD_eq {m : Mem} (h : Stored p m b) (hn : p.numBuckets ≤ poolMaxBuckets) :
    inspectBD p (readBD m (b.offset - descriptorSize)) = some (b.idx, b.free) := by
  unfold inspectBD
  rw [if_pos h.checkBits]
  cases hf : b.free with
  | true => rw [h.deallocatedId hn hf, genPoolGetBucketState_id hn h.idx]
  | false =>
    rw [h.deallocatedId_allocated hn hf, h.allocatedId hn hf, genPoolGetBucketState_id hn h.idx]
    rfl

section Scan

variable {start : Nat} {st : RebuildState} {pre : List Block} {free : Nat → List Nat}

/-- The free stacks after a block has been scanned. -/
def scanFree (free : Nat → List Nat) (b : Block) : Nat → List Nat :=
  if b.free then Function.update free b.idx (b.offset :: free b.idx) else free

theorem scanFree_eq (j : Nat) : scanFree free b j =
    if b.free = true ∧ j = b.idx then b.offset :: free j else free j := by
  unfold scanFree
  by_cases hj : j = b.idx
  · subst hj
    cases b.free <;> simp
  · cases b.free <;> simp [hj]

/-- The record after a block has been scanned. -/
def scanPool (p : GenPoolRecord) (b : Block) : GenPoolRecord :=
  let p' := { p with
    tailPosition := b.offset + (p.bucket b.idx).blockSize
    allocationCount := uint32 (p.allocationCount + 1) }
  p'.modifyBucket b.idx fun x =>
    { x with
      allocationCount := uint32 (x.allocationCount + 1)
      firstOffset := if b.free then b.offset else x.firstOffset
      releaseCount := if b.free then uint32 (x.releaseCount + 1) else x.releaseCount }

/-- The storage after a block has been scanned: a free block is linked anew. -/
def scanMem (p : GenPoolRecord) (m : Mem) (b : Block) : Mem :=
  if b.free then
    writeBD m (b.offset - descriptorSize)
      { readBD m (b.offset - descriptorSize) with
        nextOffset := (p.bucket b.idx).firstOffset }
  else m

private theorem modify_modify (p : GenPoolRecord) (i : Nat) (f g : GenPoolBucket → GenPoolBucket) :
    (p.modifyBucket i f).modifyBucket i g = p.modifyBucket i (g ∘ f) := by
  unfold GenPoolRecord.modifyBucket
  simp only [modify_modify_eq]

/-- One iteration on a block of the chain. -/
theorem rebuildBody_eq (h : PoolInv start ⟨st.pool, st.mem⟩ pre free)
    (hst : Stored st.pool st.mem b)
    (hoff : b.offset = nextBlockOffset st.pool.alignMask st.pool.tailPosition)
    (hlow : st.pool.tailPosition + descriptorSize ≤ b.offset)
    (hhigh : b.offset + (st.pool.bucket b.idx).blockSize ≤ st.pool.poolMaxOffset) :
    rebuildBody st = { st with pool := scanPool st.pool b, mem := scanMem st.pool st.mem b } := by
  have hmax : st.pool.poolMaxOffset < 2 ^ 64 := h.maxOffset
  have hdesc : descOffset b.offset = b.offset - descriptorSize :=
    descOffset_eq (by omega) (by omega)
  have hend : sizeT (b.offset + (st.pool.bucket b.idx).blockSize) =
      b.offset + (st.pool.bucket b.idx).blockSize := Nat.mod_eq_of_lt (by omega)
  have hsize : ¬ (st.pool.bucket b.idx).blockSize <
      (readBD st.mem (b.offset - descriptorSize)).actualSize := by
    rw [hst.actualSize]
    exact Nat.not_lt.2 hst.size
  unfold rebuildBody
  simp only [← hoff, hdesc, hst.inspectBD_eq h.few, hend]
  rw [if_neg (by omega), if_neg hsize]
  cases hf : b.free with
  | true =>
    simp only [if_true, scanPool, scanMem, hf, modify_modify]
    rfl
  | false => simp [scanPool, scanMem, hf]

theorem scanPool_bucket (hb : b.idx < p.numBuckets) (j : Nat) :
    (scanPool p b).bucket j = { p.bucket j with
      allocationCount := if j = b.idx then uint32 ((p.bucket j).allocationCount + 1)
        else (p.bucket j).allocationCount
      firstOffset := if b.free = true ∧ j = b.idx then b.offset else (p.bucket j).firstOffset
      releaseCount := if b.free = true ∧ j = b.idx then uint32 ((p.bucket j).releaseCount + 1)
        else (p.bucket j).releaseCount } := by
  by_cases hj : j = b.idx
  · subst hj
    refine (bucket_modifyBucket_self hb).trans ?_
    simp
  · refine (bucket_modifyBucket_of_ne (Ne.symm hj)).trans ?_
    simp [hj]
    rfl

theorem scanPool_shape (hb : b.idx < p.numBuckets) : SameShape p (scanPool p b) := by
  refine ⟨rfl, rfl, numBuckets_modifyBucket, fun j => ?_⟩
  rw [scanPool_bucket hb]

theorem scanMem_of_outside {m : Mem} {i : Nat} (hlow : descriptorSize ≤ b.offset)
    (h : i < b.offset - descriptorSize ∨ b.offset ≤ i) : scanMem p m b i = m i := by
  unfold scanMem
  split
  · exact writeBD_of_outside (by omega)
  · rfl

/-- After a block has been scanned, the picture contains it. -/
theorem PoolInv.scan (h : PoolInv start ⟨st.pool, st.mem⟩ pre free) (hst : Stored st.pool st.mem b)
    (hoff : b.offset = nextBlockOffset st.pool.alignMask st.pool.tailPosition)
    (hlow : st.pool.tailPosition + descriptorSize ≤ b.offset)
    (hhigh : b.offset + (st.pool.bucket b.idx).blockSize ≤ st.pool.poolMaxOffset) :
    PoolInv start ⟨scanPool st.pool b, scanMem st.pool st.mem b⟩ (pre ++ [b])
      (scanFree free b) := by
  have hidx := hst.idx
  have hshape := scanPool_shape hidx
  have hbucket := scanPool_bucket hidx
  have hfits := readBD_fits st.mem (b.offset - descriptorSize)
  have hbd : (GenPoolBD.mk (readBD st.mem (b.offset - descriptorSize)).checkBits
      (readBD st.mem (b.offset - descriptorSize)).allocated
      (readBD st.mem (b.offset - descriptorSize)).actualSize
      (st.pool.bucket b.idx).firstOffset).Fits :=
    ⟨hfits.checkBits, hfits.allocated, hfits.actualSize, h.firstOffset_lt hidx⟩
  -- only the link of the scanned block may have changed
  have hread : ∀ c ∈ pre, readBD (scanMem st.pool st.mem b) (c.offset - descriptorSize) =
      readBD st.mem (c.offset - descriptorSize) := by
    intro c hc
    unfold scanMem
    split
    · exact h.readBD_behind hlow _ hc
    · rfl
  have hself : (readBD (scanMem st.pool st.mem b) (b.offset - descriptorSize)).checkBits =
        (readBD st.mem (b.offset - descriptorSize)).checkBits ∧
      (readBD (scanMem st.pool st.mem b) (b.offset - descriptorSize)).allocated =
        (readBD st.mem (b.offset - descriptorSize)).allocated ∧
      (readBD (scanMem st.pool st.mem b) (b.offset - descriptorSize)).actualSize =
        (readBD st.mem (b.offset - descriptorSize)).actualSize := by
    unfold scanMem
    split
    · rw [readBD_writeBD hbd]
      exact ⟨rfl, rfl, rfl⟩
    · exact ⟨rfl, rfl, rfl⟩
  have hfresh : ∀ j < st.pool.numBuckets, b.offset ∉ free j := by
    intro j hj hmem
    obtain ⟨c, hc, hco, _⟩ := (h.freeIff j hj b.offset).1 hmem
    have hend := (chain_mem h.chain hc).2
    have hlow' : st.pool.tailPosition + 24 ≤ b.offset := hlow
    simp only at hend
    omega
  refine h.append hshape rfl hoff hlow hhigh hread ?_ rfl ?_ ?_ ?_ ?_ ?_
  · refine ⟨?_, ?_, ?_, ?_, ?_⟩
    · rw [hshape.numBuckets]
      exact hidx
    · rw [hshape.blockSize]
      exact hst.size
    · rw [hself.1, hst.checkBits]
    · rw [hself.2.1, hst.code, hshape.numBuckets]
    · rw [hself.2.2, hst.actualSize]
  · intro j _
    show ((scanPool st.pool b).bucket j).allocationCount = _
    rw [hbucket]
  · intro j hj
    have hold := h.linked_of_readBD hread hj
    show Linked _ ((scanPool st.pool b).bucket j).firstOffset _
    rw [hbucket, scanFree_eq]
    dsimp only
    split_ifs with hboth
    · have hne : b.offset ≠ 0 := by
        have hlow' : st.pool.tailPosition + 24 ≤ b.offset := hlow
        omega
      refine hold.push hne ?_ fun _ _ => rfl
      unfold linkOf scanMem
      rw [if_pos hboth.1, readBD_writeBD hbd, hboth.2]
    · exact hold
  · intro j hj
    rw [scanFree_eq]
    split_ifs
    · exact nodup_cons.2 ⟨hfresh j hj, h.freeNodup j hj⟩
    · exact h.freeNodup j hj
  · intro j _ x
    rw [scanFree_eq]
    split_ifs with hboth
    · simp [hboth.1, hboth.2, or_comm]
    · refine ⟨.inl, fun hx => hx.resolve_right fun hx => hboth ⟨hx.1, hx.2.1.symm⟩⟩
  · intro j hj
    have hrel : (st.pool.bucket j).recycleCount < 2 ^ 32 ∧ (st.pool.bucket j).releaseCount =
      uint32 ((st.pool.bucket j).recycleCount + (free j).length) := h.released j hj
    show ((scanPool st.pool b).bucket j).recycleCount < 2 ^ 32 ∧
      ((scanPool st.pool b).bucket j).releaseCount =
        uint32 (((scanPool st.pool b).bucket j).recycleCount + (scanFree free b j).length)
    rw [hbucket, scanFree_eq]
    dsimp only
    split_ifs
    · refine ⟨hrel.1, ?_⟩
      rw [hrel.2, length_cons]
      unfold uint32
      omega
    · exact hrel

/-- The scan has processed `pre` and has `suf` before it; the pool behind `tail`
is zero. -/
structure ScanInv (start tail : Nat) (pre suf : List Block) (free : Nat → List Nat)
    (st : RebuildState) : Prop where
  running : st.running = true
  pool : PoolInv start ⟨st.pool, st.mem⟩ pre free
  rest : Chain st.pool.alignMask (fun i => (st.pool.bucket i).blockSize) st.pool.tailPosition suf
    tail
  fits : ∀ b ∈ suf, b.offset + (st.pool.bucket b.idx).blockSize ≤ st.pool.poolMaxOffset
  stored : ∀ b ∈ suf, Stored st.pool st.mem b
  zero : ∀ i, tail ≤ i → i < st.pool.poolMaxOffset → st.mem i = 0

/-- One iteration moves one block from the rest to the picture. -/
theorem ScanInv.step {tail : Nat} {b : Block} {suf : List Block}
    (h : ScanInv start tail pre (b :: suf) free st) :
    ScanInv start tail (pre ++ [b]) suf (scanFree free b) (rebuildBody st) ∧
      SameShape st.pool (rebuildBody st).pool ∧
      ∀ i, (∀ c ∈ b :: suf, i < c.offset - descriptorSize ∨ c.offset ≤ i) →
        (rebuildBody st).mem i = st.mem i := by
  obtain ⟨hoff, hlow, hrest⟩ := h.rest
  have hst := h.stored b (by simp)
  have hhigh := h.fits b (by simp)
  have hshape := scanPool_shape hst.idx
  rw [rebuildBody_eq h.pool hst hoff hlow hhigh]
  refine ⟨⟨h.running, h.pool.scan hst hoff hlow hhigh, hshape.chain hrest, ?_, ?_, ?_⟩, hshape,
    fun i hi => scanMem_of_outside (by omega) (hi b (by simp))⟩
  · intro c hc
    show c.offset + ((scanPool st.pool b).bucket c.idx).blockSize ≤ st.pool.poolMaxOffset
    rw [hshape.blockSize]
    exact h.fits c (mem_cons_of_mem b hc)
  · intro c hc
    -- the blocks still ahead begin behind the end of `b`
    have hcl := (chain_mem hrest hc).1
    refine (h.stored c (mem_cons_of_mem b hc)).congr hshape (readBD_congr fun i hi _ => ?_)
    exact scanMem_of_outside (by omega) (.inr (by omega))
  · intro i hi hmax
    have hend := chain_le hrest
    show scanMem st.pool st.mem b i = 0
    rw [scanMem_of_outside (by omega) (.inr (by omega))]
    exact h.zero i hi hmax

/-- Behind the last block the scan finds zeros, or the end of the pool, and stops. -/
theorem ScanInv.stop (h : ScanInv start tail pre [] free st)
    (hprobe : tail + descriptorSize + st.pool.alignMask < 2 ^ 64) :
    rebuildBody st = { st with running := false } := by
  have htail : st.pool.tailPosition = tail := h.rest
  obtain ⟨k, hk, hmask⟩ := h.pool.align
  unfold rebuildBody
  simp only [htail, nextBlockOffset_of_lt hmask hk hprobe]
  split
  · rfl
  next hle =>
  have hlow := @le_exactBlockOffset st.pool.alignMask tail
  have hmax : st.pool.poolMaxOffset < 2 ^ 64 := h.pool.maxOffset
  have hdesc := @descOffset_eq (exactBlockOffset st.pool.alignMask tail) (by omega) (by omega)
  have hcheck : (readBD st.mem (exactBlockOffset st.pool.alignMask tail -
      descriptorSize)).checkBits = 0 := by
    apply readLE_zero
    intro i hi hi'
    exact h.zero i (by omega) (by unfold descriptorSize at *; omega)
  have hnone : inspectBD st.pool (readBD st.mem (exactBlockOffset st.pool.alignMask tail -
      descriptorSize)) = none := by
    unfold inspectBD
    rw [if_neg]
    rw [hcheck]
    decide
  rw [hdesc, hnone]

/-- The scan ends, and then the picture holds all the blocks. -/
theorem ScanInv.yields : ∀ {suf pre : List Block} {free : Nat → List Nat} {st : RebuildState},
      ScanInv start tail pre suf free st →
      tail + descriptorSize + st.pool.alignMask < 2 ^ 64 →
      ∃ free' t, Yields RebuildState.running rebuildBody st t ∧ SameShape st.pool t.pool ∧
        PoolInv start ⟨t.pool, t.mem⟩ (pre ++ suf) free' ∧
        ∀ i, (∀ c ∈ suf, i < c.offset - descriptorSize ∨ c.offset ≤ i) → t.mem i = st.mem i := by
  intro suf
  induction suf with
  | nil =>
    intro pre free st h hprobe
    refine ⟨free, { st with running := false }, ?_, SameShape.refl st.pool, ?_, fun _ _ => rfl⟩
    · rw [yields_iff_of_pos h.running, h.stop hprobe]
      exact yields_of_neg rfl
    · rw [append_nil]
      exact h.pool
  | cons b suf ih =>
    intro pre free st h hprobe
    obtain ⟨hnext, hshape, hmem⟩ := h.step
    obtain ⟨free', t, ht, hsame, hinv, hmem'⟩ := ih hnext (by rw [hshape.alignMask]; exact hprobe)
    refine ⟨free', t, (yields_iff_of_pos h.running).2 ht, hshape.trans hsame, ?_, fun i hi => ?_⟩
    · rwa [append_assoc] at hinv
    · rw [hmem' i fun c hc => hi c (mem_cons_of_mem b hc), hmem i hi]

end Scan

/-! ## What a rebuild restores -/

/-- The storage of a pool holds these blocks. -/
structure PoolBlocks (start : Nat) (s : PoolState) (blocks : List Block) : Prop where
  chain : Chain s.pool.alignMask (fun i => (s.pool.bucket i).blockSize) start blocks
    s.pool.tailPosition
  stored : ∀ b ∈ blocks, Stored s.pool s.mem b

/-- `CFE_ES_BlockStats_t.NumFree` of a bucket. -/
def numFree (b : GenPoolBucket) : Nat := uint32 (b.releaseCount + 2 ^ 32 - b.recycleCount)

/-- The pool `s'` is the pool `s` again, up to the order of its free stacks. -/
structure Restored (start : Nat) (blocks : List Block) (s s' : PoolState) : Prop where
  tailPosition : s'.pool.tailPosition = s.pool.tailPosition
  allocationCount : s'.pool.allocationCount = s.pool.allocationCount
  created : ∀ i < s.pool.numBuckets,
    (s'.pool.bucket i).allocationCount = (s.pool.bucket i).allocationCount
  numFree : ∀ i < s.pool.numBuckets, numFree (s'.pool.bucket i) = numFree (s.pool.bucket i)
  /-- the same blocks with the same buckets, sizes and allocation states -/
  before : PoolBlocks start s blocks
  after : PoolBlocks start s' blocks
  free : ∀ i < s.pool.numBuckets, ∃ l l',
    Linked (linkOf s.mem) (s.pool.bucket i).firstOffset l ∧
      Linked (linkOf s'.mem) (s'.pool.bucket i).firstOffset l' ∧ l.Perm l'

/-- Two pools with the same blocks differ only in the order of their free stacks. -/
theorem PoolInv.restored {start : Nat} {s' : PoolState} {blocks : List Block}
    {free free' : Nat → List Nat} (h : PoolInv start s blocks free)
    (h' : PoolInv start s' blocks free') (hshape : SameShape s.pool s'.pool) :
    Restored start blocks s s' := by
  have hperm : ∀ i < s.pool.numBuckets, (free i).Perm (free' i) := by
    intro i hi
    have hi' : i < s'.pool.numBuckets := by
      rw [hshape.numBuckets]
      exact hi
    refine (perm_ext_iff_of_nodup (h.freeNodup i hi) (h'.freeNodup i hi')).2 fun x => ?_
    rw [h.freeIff i hi, h'.freeIff i hi']
  refine ⟨?_, ?_, ?_, ?_, ⟨h.chain, h.stored⟩, ⟨h'.chain, h'.stored⟩, ?_⟩
  · exact chain_end (hshape.symm.chain h'.chain) h.chain
  · rw [h.total, h'.total]
  · intro i hi
    rw [h.created i hi, h'.created i (by rw [hshape.numBuckets]; exact hi)]
  · intro i hi
    have hrel := h.released i hi
    have hrel' := h'.released i (by rw [hshape.numBuckets]; exact hi)
    unfold numFree
    rw [hrel.2, hrel'.2, (hperm i hi).length_eq]
    unfold uint32
    omega
  · intro i hi
    exact ⟨free i, free' i, h.linked i hi,
      h'.linked i (by rw [hshape.numBuckets]; exact hi), hperm i hi⟩

/-! ## Runs over zeroed storage -/

section Runs

variable {params : PoolParams} {m : Mem} {e : PoolEnv}

/-- Storage behind the tail is as it was at first. -/
theorem PoolRun.behind (h : PoolRun params m GetFits e) :
    ∀ i, e.state.pool.tailPosition ≤ i → e.state.mem i = m i := by
  induction h with
  | init => intro i _; rfl
  | @get e hrun reqSize hwidth hok ih =>
    obtain ⟨blocks, free, hinv⟩ := hrun.exists_runInv
    unfold PoolEnv.get
    split
    · next off s' hget =>
      obtain ⟨hle, hsame⟩ := hinv.pool.get_outside hok hget
      intro i hi
      have hi' : s'.pool.tailPosition ≤ i := hi
      show s'.mem i = m i
      rw [hsame i (.inr hi')]
      exact ih i (by omega)
    · exact ih
  | @put e hrun off hissued ih =>
    obtain ⟨blocks, free, hinv⟩ := hrun.exists_runInv
    obtain ⟨b, hb, rfl⟩ := hinv.issued off hissued
    obtain ⟨htail, hsame⟩ := hinv.pool.put_outside hb
    have hstate : (e.put b.offset).state = (genPoolPutBlock e.state b.offset).2 := by
      unfold PoolEnv.put
      split
      · next hs => rw [hs]
      · next hs => rw [hs]
    intro i hi
    rw [hstate, htail] at hi
    rw [hstate, hsame i (.inr hi)]
    exact ih i hi
  | @write e hrun x hx j hj v ih =>
    obtain ⟨blocks, free, hinv⟩ := hrun.exists_runInv
    obtain ⟨b, hb, _, rfl⟩ := (hinv.handedIff x).1 hx
    have hend := (chain_mem hinv.pool.chain hb).2
    have hsize := (hinv.pool.stored b hb).size
    intro i hi
    have hi' : e.state.pool.tailPosition ≤ i := hi
    show Function.update e.state.mem (b.offset + j) v i = m i
    rw [Function.update_of_ne (by omega)]
    exact ih i hi'

/-- A run begins with an initialization, and keeps the geometry it fixed. -/
theorem PoolRun.exists_init (h : PoolRun params m GetFits e) :
    ∃ fuel p, genPoolInitialize fuel params = some (.ok p) ∧ SameShape p e.state.pool := by
  induction h with
  | @init fuel p hinit => exact ⟨fuel, p, hinit, SameShape.refl p⟩
  | @get e hrun reqSize hwidth hok ih =>
    obtain ⟨fuel, p, hinit, hshape⟩ := ih
    obtain ⟨blocks, free, hinv⟩ := hrun.exists_runInv
    refine ⟨fuel, p, hinit, ?_⟩
    unfold PoolEnv.get
    split
    · next off s' hget => exact hshape.trans (hinv.pool.get hwidth hok hget).2.1
    · exact hshape
  | @put e hrun off hissued ih =>
    obtain ⟨fuel, p, hinit, hshape⟩ := ih
    have hput := genPoolPutBlock_shape e.state off
    refine ⟨fuel, p, hinit, ?_⟩
    unfold PoolEnv.put
    split
    · next s' hs =>
      rw [hs] at hput
      exact hshape.trans hput
    · next s' hs =>
      rw [hs] at hput
      exact hshape.trans hput
  | write hrun x hx j hj v ih => exact ih

/-- More fuel does not change the outcome of an initialization. -/
theorem genPoolInitialize_mono {r : Except PoolError GenPoolRecord} (hle : fuel ≤ fuel')
    (h : genPoolInitialize fuel params = some r) : genPoolInitialize fuel' params = some r := by
  unfold genPoolInitialize at h ⊢
  split at h
  · next halign => rwa [if_pos halign]
  rename_i halign
  rw [if_neg halign]
  split at h
  · cases h
  rename_i sizes hsort
  obtain ⟨x, hx, rfl⟩ := Option.map_eq_some_iff.1 hsort
  have hsort' : bubbleSort fuel' params.blockSizeList = some x.1 :=
    Option.map_eq_some_iff.2 ⟨x, whileFuel_mono hle hx, rfl⟩
  rw [hsort']
  exact h

/-- Initialization is a function of the parameters. -/
theorem genPoolInitialize_unique {r r' : Except PoolError GenPoolRecord}
    (h : genPoolInitialize fuel params = some r) (h' : genPoolInitialize fuel' params = some r') :
    r = r' := by
  have hmax := genPoolInitialize_mono (Nat.le_max_left fuel fuel') h
  have hmax' := genPoolInitialize_mono (Nat.le_max_right fuel fuel') h'
  exact Option.some.inj (hmax.symm.trans hmax')

theorem genPoolRebuild_mono {s' : PoolState} (hle : fuel ≤ fuel')
    (h : genPoolRebuild fuel s = some s') : genPoolRebuild fuel' s = some s' := by
  obtain ⟨t, ht, rfl⟩ := Option.map_eq_some_iff.1 h
  exact Option.map_eq_some_iff.2 ⟨t, whileFuel_mono hle ht, rfl⟩

/-- Rebuilding over the storage of a pool: it ends, with the same blocks, and has
written to descriptors only. -/
theorem PoolInv.rebuild {s : PoolState} {blocks : List Block} {free : Nat → List Nat}
    (h : PoolInv params.startOffset s blocks free)
    (hzero : ∀ i, s.pool.tailPosition ≤ i → i < s.pool.poolMaxOffset → s.mem i = 0)
    (hprobe : s.pool.tailPosition + descriptorSize + s.pool.alignMask < 2 ^ 64) {fuel : Nat}
    {p : GenPoolRecord} (hinit : genPoolInitialize fuel params = some (.ok p))
    (hshape : SameShape p s.pool) :
    ∃ fuel' s' free', genPoolRebuild fuel' ⟨p, s.mem⟩ = some s' ∧ SameShape s.pool s'.pool ∧
      PoolInv params.startOffset s' blocks free' ∧
      ∀ i, (∀ b ∈ blocks, i < b.offset - descriptorSize ∨ b.offset ≤ i) → s'.mem i = s.mem i := by
  have htail : p.tailPosition = params.startOffset := by
    obtain ⟨_, sizes, _, rfl⟩ := genPoolInitialize_ok hinit
    rfl
  have hscan : ScanInv params.startOffset s.pool.tailPosition [] blocks (fun _ => [])
      ⟨p, s.mem, true⟩ := by
    refine ⟨rfl, poolInv_init hinit s.mem, ?_, ?_, fun b hb => (h.stored b hb).congr hshape.symm rfl,
      hshape.poolMaxOffset ▸ hzero⟩
    · show Chain p.alignMask (fun i => (p.bucket i).blockSize) p.tailPosition blocks _
      rw [htail]
      exact hshape.symm.chain h.chain
    · intro b hb
      show b.offset + (p.bucket b.idx).blockSize ≤ p.poolMaxOffset
      rw [← hshape.blockSize, ← hshape.poolMaxOffset]
      exact h.fits b hb
  obtain ⟨free', t, ⟨fuel', ht⟩, hsame, hinv, hmem⟩ := hscan.yields (by
    show _ + p.alignMask < 2 ^ 64
    rw [← hshape.alignMask]
    exact hprobe)
  refine ⟨fuel', ⟨t.pool, t.mem⟩, free', ?_, hshape.symm.trans hsame, hinv, hmem⟩
  unfold genPoolRebuild
  rw [ht]
  rfl

/-- Rebuilding a pool whose storage started zeroed: after any run whose Gets fit,
and with the probe behind the tail below `2 ^ 64`, initializing again with the
same parameters and scanning the storage ends and gives the same pool, whatever
the owners wrote into their blocks. -/
theorem genPool_rebuild_restores (params : PoolParams) (e : PoolEnv)
    (h : PoolRun params (fun _ => 0) GetFits e)
    (hprobe : e.state.pool.tailPosition + descriptorSize + e.state.pool.alignMask < 2 ^ 64) :
    (∃ fuel p, genPoolInitialize fuel params = some (.ok p)) ∧
    ∃ blocks : List Block,
      (∀ x, x ∈ e.handed ↔ ∃ b ∈ blocks, b.free = false ∧ x = (b.offset, b.size)) ∧
      ∀ fuel p, genPoolInitialize fuel params = some (.ok p) →
        ∃ fuel' s', genPoolRebuild fuel' ⟨p, e.state.mem⟩ = some s' ∧
          Restored params.startOffset blocks e.state s' := by
  obtain ⟨fuel₀, p₀, hinit₀, hshape⟩ := h.exists_init
  obtain ⟨blocks, free, hinv⟩ := h.exists_runInv
  refine ⟨⟨fuel₀, p₀, hinit₀⟩, blocks, hinv.handedIff, fun fuel p hinit => ?_⟩
  obtain rfl := Except.ok.inj (genPoolInitialize_unique hinit₀ hinit)
  obtain ⟨fuel', s', free', hrebuild, hsame, hinv', _⟩ :=
    hinv.pool.rebuild (fun i hi _ => h.behind i hi) hprobe hinit hshape
  exact ⟨fuel', s', hrebuild, hinv.pool.restored hinv' hsame⟩

/-- The pool with two blocks in use and a free one is rebuilt. -/
theorem genPool_rebuild_restores_busy :
    ∃ (fuel : Nat) (p : GenPoolRecord) (fuel' : Nat) (s' : PoolState) (blocks : List Block),
      genPoolInitialize fuel smallPool = some (.ok p) ∧
      genPoolRebuild fuel' ⟨p, busyPool.state.mem⟩ = some s' ∧
      Restored 0 blocks busyPool.state s' ∧ s'.pool.allocationCount = 3 ∧
      numFree (s'.pool.bucket 1) = 1 := by
  have hcounts : busyPool.state.pool.allocationCount = 3 ∧
      1 < busyPool.state.pool.numBuckets ∧ numFree (busyPool.state.pool.bucket 1) = 1 := by
    decide +kernel
  obtain ⟨⟨fuel, p, hinit⟩, blocks, -, hall⟩ :=
    genPool_rebuild_restores smallPool busyPool busyPool_run (by decide +kernel)
  obtain ⟨fuel', s', hrebuild, hrestored⟩ := hall fuel p hinit
  exact ⟨fuel, p, fuel', s', blocks, hinit, hrebuild, hrestored,
    hrestored.allocationCount.trans hcounts.1,
    (hrestored.numFree 1 hcounts.2.1).trans hcounts.2.2⟩

/-- In the pool with the huge bucket two blocks of ten bytes overlap: the owner of
the first writes over the descriptor of the second, and the scan finds one block
instead of two. -/
theorem genPool_rebuild_loses_block_when_end_wraps :
    ∃ (e : PoolEnv) (p : GenPoolRecord), PoolRun hugeBucketPool (fun _ => 0) (fun _ _ => True) e ∧
      e.handed = [(47, 10), (24, 10)] ∧ e.state.pool.allocationCount = 2 ∧
      genPoolInitialize 3 hugeBucketPool = some (.ok p) ∧
      (genPoolRebuild 5 ⟨p, e.state.mem⟩).map (fun s' => s'.pool.allocationCount) = some 1 := by
  refine ⟨_, _, PoolRun.write (PoolRun.get (PoolRun.get (@PoolRun.init _ _ _ 3 _ rfl) 10 (by decide)
    trivial) 10 (by decide) trivial) (24, 10) (by decide +kernel) 0 (by decide) 0, ?_, ?_, rfl, ?_⟩
  · decide +kernel
  · decide +kernel
  · decide +kernel

end Runs

end CfsEds.Es
