import CfsEds.Es.PoolInv
import CfsEds.Lib.RefCount

/-!
# Get and Put on the abstract picture

Each operation of the pool, seen through `PoolInv`:

* a block is recycled: the top of a free stack becomes allocated
  (`PoolInv.recycle`);
* a block is created: a new allocated block is added behind the tail
  (`PoolInv.create`). This is the one place where the 64-bit sums of the C code
  matter: the block end it checks against the pool end may have wrapped, so the
  lemma asks for `CreateFits`;
* a block is put back: it becomes free and the top of its stack
  (`PoolInv.put`); the descriptor of a block that is not allocated is rejected
  (`PoolInv.allocatedBlock_error`).

The bucket ID in the `Allocated` word tells allocated and deallocated blocks
apart because the two base values are further apart than there are buckets.
-/

namespace CfsEds.Es

open CfsEds.Lib.Memory CfsEds.Lib.LinkedList CfsEds.Lib.RefCount List Function

variable {b : Block} {p : GenPoolRecord} {i newSize off reqSize : Nat}

/-! ## Buckets -/

section Buckets

variable {p : GenPoolRecord} {i j : Nat} {f : GenPoolBucket → GenPoolBucket}

@[simp] theorem numBuckets_modifyBucket : (p.modifyBucket i f).numBuckets = p.numBuckets := by
  simp [GenPoolRecord.numBuckets, GenPoolRecord.modifyBucket]

theorem bucket_modifyBucket_self (hi : i < p.numBuckets) :
    (p.modifyBucket i f).bucket i = f (p.bucket i) :=
  getD_modify_self hi

theorem bucket_modifyBucket_of_ne (hij : i ≠ j) : (p.modifyBucket i f).bucket j = p.bucket j :=
  getD_modify_of_ne hij.symm

/-- Changes of other fields than the block size keep every block size. -/
theorem blockSize_modifyBucket (hf : ∀ b, (f b).blockSize = b.blockSize) :
    ((p.modifyBucket i f).bucket j).blockSize = (p.bucket j).blockSize :=
  getD_modify_of_eq hf

theorem SameShape.of_modifyBucket (hf : ∀ b, (f b).blockSize = b.blockSize) :
    SameShape p (p.modifyBucket i f) :=
  ⟨rfl, rfl, numBuckets_modifyBucket, fun _ => blockSize_modifyBucket hf⟩

/-- What holds of every bucket and its stack still holds after a change of one of them. -/
theorem forall_modifyBucket {P : Nat → GenPoolBucket → List Nat → Prop} {g : Nat → List Nat}
    {l : List Nat} (hi : i < p.numBuckets) (hself : P i (f (p.bucket i)) l)
    (hother : ∀ j < p.numBuckets, j ≠ i → P j (p.bucket j) (g j)) :
    ∀ j < (p.modifyBucket i f).numBuckets,
      P j ((p.modifyBucket i f).bucket j) (update g i l j) := by
  intro j hj
  rw [numBuckets_modifyBucket] at hj
  by_cases hji : j = i
  · subst hji
    rw [bucket_modifyBucket_self hi, update_self]
    exact hself
  · rw [bucket_modifyBucket_of_ne (Ne.symm hji), update_of_ne hji]
    exact hother j hj hji

/-- The ID of bucket `i` leads back to it. -/
theorem genPoolGetBucketState_id (hn : p.numBuckets ≤ poolMaxBuckets) (hi : i < p.numBuckets) :
    genPoolGetBucketState p (p.numBuckets - i) = some i := by
  have hindex : uint16 (p.numBuckets + 2 ^ 16 - (p.numBuckets - i)) = i := by
    unfold uint16
    unfold poolMaxBuckets at hn
    omega
  simp only [genPoolGetBucketState, hindex]
  rw [if_neg (by omega)]

/-- An ID above the number of buckets leads nowhere. -/
theorem genPoolGetBucketState_none {id : Nat} (hlow : p.numBuckets < id) (hhigh : id < 2 ^ 16) :
    genPoolGetBucketState p id = none := by
  have hindex : uint16 (p.numBuckets + 2 ^ 16 - id) = p.numBuckets + 2 ^ 16 - id := by
    unfold uint16
    omega
  simp only [genPoolGetBucketState, hindex]
  rw [if_pos (by omega)]

/-- A bucket found for a request can hold it. -/
theorem genPoolFindBucket_spec (h : genPoolFindBucket p reqSize ≠ 0) :
    ∃ i < p.numBuckets, genPoolFindBucket p reqSize = p.numBuckets - i ∧
      reqSize ≤ (p.bucket i).blockSize := by
  unfold genPoolFindBucket GenPoolRecord.numBuckets at h
  have hlt : (p.buckets.findIdx fun b => reqSize ≤ b.blockSize) < p.buckets.length := by omega
  refine ⟨p.buckets.findIdx fun b => reqSize ≤ b.blockSize, hlt, rfl, ?_⟩
  have hfound := findIdx_getElem (w := hlt)
  unfold GenPoolRecord.bucket
  rw [getD_eq_getElem?_getD, getElem?_eq_getElem hlt]
  simpa using hfound

end Buckets

/-! ## The two codes of the `Allocated` word -/

section Codes

variable {p : GenPoolRecord} {m : Mem} {b : Block}

/-- The bucket ID read from the descriptor of an allocated block. -/
theorem Stored.allocatedId (h : Stored p m b) (hn : p.numBuckets ≤ poolMaxBuckets)
    (hfree : b.free = false) :
    uint16 ((readBD m (b.offset - descriptorSize)).allocated + 2 ^ 16 - memoryAllocated) =
      p.numBuckets - b.idx := by
  rw [h.code]
  unfold blockCode uint16 memoryAllocated poolMaxBuckets at *
  rw [hfree]
  simp only [Bool.false_eq_true, if_false]
  omega

/-- The bucket ID read from the descriptor of a free block. -/
theorem Stored.deallocatedId (h : Stored p m b) (hn : p.numBuckets ≤ poolMaxBuckets)
    (hfree : b.free = true) :
    uint16 ((readBD m (b.offset - descriptorSize)).allocated + 2 ^ 16 - memoryDeallocated) =
      p.numBuckets - b.idx := by
  rw [h.code]
  unfold blockCode uint16 memoryDeallocated poolMaxBuckets at *
  rw [hfree]
  simp only [if_true]
  omega

/-- A free block has no valid ID as an allocated one. -/
theorem Stored.allocatedId_free (h : Stored p m b) (hn : p.numBuckets ≤ poolMaxBuckets)
    (hfree : b.free = true) :
    genPoolGetBucketState p
      (uint16 ((readBD m (b.offset - descriptorSize)).allocated + 2 ^ 16 - memoryAllocated)) =
      none := by
  rw [h.code]
  unfold blockCode uint16 memoryAllocated memoryDeallocated poolMaxBuckets at *
  rw [hfree]
  simp only [if_true]
  apply genPoolGetBucketState_none
  · omega
  · omega

/-- An allocated block has no valid ID as a free one. -/
theorem Stored.deallocatedId_allocated (h : Stored p m b) (hn : p.numBuckets ≤ poolMaxBuckets)
    (hfree : b.free = false) :
    genPoolGetBucketState p
      (uint16 ((readBD m (b.offset - descriptorSize)).allocated + 2 ^ 16 - memoryDeallocated)) =
      none := by
  rw [h.code]
  unfold blockCode uint16 memoryAllocated memoryDeallocated poolMaxBuckets at *
  rw [hfree]
  simp only [Bool.false_eq_true, if_false]
  apply genPoolGetBucketState_none
  · omega
  · omega

theorem blockCode_lt (hn : p.numBuckets ≤ poolMaxBuckets) : blockCode p.numBuckets b < 2 ^ 16 := by
  unfold blockCode memoryAllocated memoryDeallocated poolMaxBuckets at *
  split <;> omega

end Codes

/-! ## Rewriting one descriptor -/

section Redescribe

variable {start : Nat} {s : PoolState} {blocks : List Block} {free : Nat → List Nat}

/-- The descriptor of another block is not touched. -/
theorem PoolInv.readBD_writeBD_of_ne (h : PoolInv start s blocks free) {c : Block} (hb : b ∈ blocks)
    (hc : c ∈ blocks) (hne : c.offset ≠ b.offset) (bd : GenPoolBD) :
    readBD (writeBD s.mem (b.offset - descriptorSize) bd) (c.offset - descriptorSize) =
      readBD s.mem (c.offset - descriptorSize) := by
  have hbl := (h.offset_bounds hb).1
  have hcl := (h.offset_bounds hc).1
  apply readBD_writeBD_of_disjoint
  rcases chain_apart h.chain hb hc with rfl | hlt | hlt
  · exact absurd rfl hne
  · omega
  · omega

/-- The block `b` becomes `b'`: its descriptor is rewritten to `bd`, the stack of
its bucket becomes `l'` and the bucket's counters change by `f`. -/
theorem PoolInv.redescribe (h : PoolInv start s blocks free) (hb : b ∈ blocks) (b' : Block)
    (bd : GenPoolBD) (f : GenPoolBucket → GenPoolBucket) (l' : List Nat)
    (hoff : b'.offset = b.offset) (hidx : b'.idx = b.idx)
    (hsize : b'.size ≤ (s.pool.bucket b.idx).blockSize) (hbd : bd.Fits)
    (hcheck : bd.checkBits = checkPattern) (hcode : bd.allocated = blockCode s.pool.numBuckets b')
    (hactual : bd.actualSize = b'.size) (hfsize : ∀ x, (f x).blockSize = x.blockSize)
    (hfcount : ∀ x, (f x).allocationCount = x.allocationCount)
    (hlinked : Linked (linkOf (writeBD s.mem (b.offset - descriptorSize) bd))
      (f (s.pool.bucket b.idx)).firstOffset l') (hnodup : l'.Nodup)
    (hmem : ∀ x, x ∈ l' ↔ (x ∈ free b.idx ∧ x ≠ b.offset) ∨ (b'.free = true ∧ x = b.offset))
    (hreleased : (f (s.pool.bucket b.idx)).recycleCount < 2 ^ 32 ∧
      (f (s.pool.bucket b.idx)).releaseCount =
        uint32 ((f (s.pool.bucket b.idx)).recycleCount + l'.length)) :
    PoolInv start ⟨s.pool.modifyBucket b.idx f, writeBD s.mem (b.offset - descriptorSize) bd⟩
      (replaceBlock b' blocks) (update free b.idx l') := by
  have hbi : b.idx < s.pool.numBuckets := (h.stored b hb).idx
  have hshape : SameShape s.pool (s.pool.modifyBucket b.idx f) := .of_modifyBucket hfsize
  have hsame : ∀ c ∈ blocks, c.offset = b'.offset → c.idx = b'.idx := by
    intro c hc hco
    rw [chain_inj h.chain hc hb (hco.trans hoff), hidx]
  have hother : ∀ i, i ≠ b.idx → ∀ c ∈ blocks, c.idx = i → c.offset ≠ b.offset := by
    intro i hi c hc hci hco
    rw [chain_inj h.chain hc hb hco] at hci
    exact hi hci.symm
  refine ⟨?_, h.align, hshape.chain (chain_replaceBlock h.chain hsame), h.maxOffset, ?_, ?_, ?_,
    ?_, ?_, ?_, ?_, ?_⟩
  · rw [numBuckets_modifyBucket]
    exact h.few
  · intro c hc
    rw [hshape.blockSize]
    rcases mem_replaceBlock hc with rfl | ⟨hc, _⟩
    · rw [hoff, hidx]
      exact h.fits b hb
    · exact h.fits c hc
  · intro c hc
    rcases mem_replaceBlock hc with rfl | ⟨hc, hne⟩
    · have hread : readBD (writeBD s.mem (b.offset - descriptorSize) bd)
          (c.offset - descriptorSize) = bd := by
        rw [hoff]
        exact readBD_writeBD hbd
      refine ⟨?_, ?_, ?_, ?_, ?_⟩
      · rw [numBuckets_modifyBucket, hidx]
        exact hbi
      · rw [hshape.blockSize, hidx]
        exact hsize
      · rw [hread, hcheck]
      · rw [hread, hcode, numBuckets_modifyBucket]
      · rw [hread, hactual]
    · exact (h.stored c hc).congr hshape (h.readBD_writeBD_of_ne hb hc (hoff ▸ hne) bd)
  · refine forall_modifyBucket (P := fun _ bucket l => Linked _ bucket.firstOffset l) hbi hlinked
      fun i hi hib => ?_
    refine (h.linked i hi).congr fun x hx => ?_
    obtain ⟨c, hc, rfl, hci, _⟩ := (h.freeIff i hi x).1 hx
    unfold linkOf
    rw [h.readBD_writeBD_of_ne hb hc (hother i hib c hc hci)]
  · exact forall_modifyBucket (P := fun _ _ l => l.Nodup) hbi hnodup fun i hi _ => h.freeNodup i hi
  · refine forall_modifyBucket (P := fun i _ l => ∀ x, x ∈ l ↔ ∃ c ∈ replaceBlock b' blocks,
      c.offset = x ∧ c.idx = i ∧ c.free = true) hbi (fun x => ?_) fun i hi hib x => ?_
    · rw [hmem, h.freeIff b.idx hbi]
      refine ⟨fun hx => ?_, fun ⟨c, hc, hcx, hci, hcf⟩ => ?_⟩
      · rcases hx with ⟨⟨c, hc, rfl, hci, hcf⟩, hne⟩ | ⟨hfree, rfl⟩
        · exact ⟨c, mem_replaceBlock_of_ne hc (hoff ▸ hne), rfl, hci, hcf⟩
        · exact ⟨b', mem_replaceBlock_self hb hoff.symm, hoff, hidx, hfree⟩
      · rcases mem_replaceBlock hc with rfl | ⟨hc, hne⟩
        · exact .inr ⟨hcf, hcx ▸ hoff⟩
        · exact .inl ⟨⟨c, hc, hcx, hci, hcf⟩, hcx ▸ hoff ▸ hne⟩
    · rw [h.freeIff i hi]
      refine ⟨fun ⟨c, hc, hcx, hci, hcf⟩ => ?_, fun ⟨c, hc, hcx, hci, hcf⟩ => ?_⟩
      · exact ⟨c, mem_replaceBlock_of_ne hc (hoff ▸ hother i hib c hc hci), hcx, hci, hcf⟩
      · rcases mem_replaceBlock hc with rfl | ⟨hc, _⟩
        · exact absurd (hci.symm.trans hidx) hib
        · exact ⟨c, hc, hcx, hci, hcf⟩
  · rw [length_replaceBlock]
    exact h.total
  · refine forall_modifyBucket (P := fun i bucket _ => bucket.allocationCount = uint32
      ((replaceBlock b' blocks).countP fun c => c.idx = i)) (l := l') (g := free) hbi ?_
      fun i hi _ => ?_
    · rw [countP_replaceBlock hsame, hfcount, h.created b.idx hbi]
    · rw [countP_replaceBlock hsame, h.created i hi]
  · exact forall_modifyBucket (P := fun _ bucket l => bucket.recycleCount < 2 ^ 32 ∧
      bucket.releaseCount = uint32 (bucket.recycleCount + l.length)) hbi hreleased
      fun i hi _ => h.released i hi

end Redescribe

/-! ## Recycling -/

section Operations

variable {start : Nat} {s s' : PoolState} {blocks : List Block} {free : Nat → List Nat}

/-- Everything a successful recycling does. -/
theorem genPoolRecyclePoolBlock_ok (hn : s.pool.numBuckets ≤ poolMaxBuckets)
    (hi : i < s.pool.numBuckets)
    (hrec : genPoolRecyclePoolBlock s (s.pool.numBuckets - i) newSize = .ok (off, s')) :
    off = (s.pool.bucket i).firstOffset ∧ off ≠ 0 ∧ s' = ⟨s.pool.modifyBucket i fun b =>
          { b with firstOffset := (readBD s.mem (descOffset off)).nextOffset
                   recycleCount := uint32 (b.recycleCount + 1) },
        writeBD s.mem (descOffset off) { readBD s.mem (descOffset off) with
            allocated := uint16 (memoryAllocated + (s.pool.numBuckets - i))
            actualSize := newSize
            nextOffset := 0 }⟩ := by
  simp only [genPoolRecyclePoolBlock, genPoolGetBucketState_id hn hi] at hrec
  split at hrec
  · cases hrec
  rename_i hnone
  split at hrec
  · cases hrec
  · obtain ⟨hoff, hs⟩ := Prod.mk.inj (Except.ok.inj hrec)
    subst hoff
    exact ⟨rfl, fun h0 => hnone (.inr h0), hs.symm⟩

/-- Recycling allocates the top of the bucket's stack. -/
theorem PoolInv.recycle (h : PoolInv start s blocks free) (hi : i < s.pool.numBuckets)
    (hsize : newSize ≤ (s.pool.bucket i).blockSize) (hwidth : newSize < 2 ^ 64)
    (hrec : genPoolRecyclePoolBlock s (s.pool.numBuckets - i) newSize = .ok (off, s')) :
    ∃ b ∈ blocks, b.offset = off ∧ b.idx = i ∧ b.free = true ∧
      PoolInv start s' (replaceBlock ⟨off, i, newSize, false⟩ blocks)
        (update free i (free i).tail) := by
  obtain ⟨hoff, hne, hs'⟩ := genPoolRecyclePoolBlock_ok h.few hi hrec
  have hlink := h.linked i hi
  rw [← hoff] at hlink
  obtain ⟨rest, hfree, hrest⟩ := hlink.head_ne_zero hne
  obtain ⟨b, hb, hboff, hbi, hbfree⟩ := (h.freeIff i hi off).1 (by rw [hfree]; simp)
  have hdesc : descOffset off = b.offset - descriptorSize := by
    rw [← hboff]
    exact h.descOffset_block hb
  have hnodup := h.freeNodup i hi
  rw [hfree] at hnodup
  obtain ⟨hfresh, hnodup⟩ := nodup_cons.1 hnodup
  refine ⟨b, hb, hboff, hbi, hbfree, ?_⟩
  have hst := h.stored b hb
  have hfits := readBD_fits s.mem (b.offset - descriptorSize)
  subst hs'
  rw [hdesc, ← hbi]
  rw [← hbi] at hi hsize hfree
  have hcode : uint16 (memoryAllocated + (s.pool.numBuckets - b.idx)) =
      blockCode s.pool.numBuckets ⟨off, b.idx, newSize, false⟩ :=
    Nat.mod_eq_of_lt (blockCode_lt (b := ⟨off, b.idx, newSize, false⟩) h.few)
  refine h.redescribe hb ⟨off, b.idx, newSize, false⟩
    ⟨(readBD s.mem (b.offset - descriptorSize)).checkBits,
      uint16 (memoryAllocated + (s.pool.numBuckets - b.idx)), newSize, 0⟩
    (fun x => { x with firstOffset := (readBD s.mem (b.offset - descriptorSize)).nextOffset
                       recycleCount := uint32 (x.recycleCount + 1) })
    (free b.idx).tail hboff.symm rfl hsize ?_ hst.checkBits hcode rfl (fun _ => rfl)
    (fun _ => rfl) ?_ ?_ ?_ ?_
  · exact ⟨hfits.checkBits, Nat.mod_lt _ (by decide), hwidth, by simp⟩
  · -- the popped stack does not contain the rewritten descriptor
    have hpop : Linked (linkOf s.mem) (linkOf s.mem b.offset) rest := hboff ▸ hrest
    rw [hfree, tail_cons]
    refine hpop.congr fun x hx => ?_
    obtain ⟨c, hc, rfl, _⟩ := (h.freeIff b.idx hi x).1 (by rw [hfree]; simp [hx])
    unfold linkOf
    rw [h.readBD_writeBD_of_ne hb hc]
    intro hcb
    exact hfresh (hboff ▸ hcb ▸ hx)
  · rw [hfree, tail_cons]
    exact hnodup
  · intro x
    rw [hfree, tail_cons]
    refine ⟨fun hx => .inl ⟨by simp [hx], ?_⟩, fun hx => ?_⟩
    · intro hxb
      exact hfresh (hboff ▸ hxb ▸ hx)
    · rcases hx with ⟨hx, hxb⟩ | ⟨hfalse, _⟩
      · rcases mem_cons.1 hx with rfl | hx
        · exact absurd hboff.symm hxb
        · exact hx
      · cases hfalse
  · obtain ⟨_, hrel⟩ := h.released b.idx hi
    rw [hfree, length_cons] at hrel
    refine ⟨Nat.mod_lt _ (by decide), ?_⟩
    show (s.pool.bucket b.idx).releaseCount =
      uint32 (uint32 ((s.pool.bucket b.idx).recycleCount + 1) + (free b.idx).tail.length)
    rw [hrel, hfree, tail_cons]
    unfold uint32
    omega

/-! ## Putting back -/

/-- The validity check on an allocated block of non-zero size. -/
theorem PoolInv.allocatedBlock_ok (h : PoolInv start s blocks free) (hb : b ∈ blocks)
    (hfree : b.free = false) (hsize : b.size ≠ 0) :
    allocatedBlock s b.offset = .ok (b.idx, readBD s.mem (b.offset - descriptorSize)) := by
  have hst := h.stored b hb
  have hbounds := h.offset_bounds hb
  have htail := (chain_mem h.chain hb).2
  have hroom := hst.size
  have hactual := hst.actualSize
  unfold allocatedBlock
  rw [if_neg (by omega)]
  simp only [h.descOffset_block hb, hst.allocatedId h.few hfree,
    genPoolGetBucketState_id h.few hst.idx]
  rw [if_neg]
  intro hbad
  rcases hbad with hc | hz | hlt
  · exact hc hst.checkBits
  · omega
  · omega

/-- The validity check on a block that is free, or of size zero. -/
theorem PoolInv.allocatedBlock_error (h : PoolInv start s blocks free) (hb : b ∈ blocks)
    (hbad : b.free = true ∨ b.size = 0) : ∃ e, allocatedBlock s b.offset = .error e := by
  have hst := h.stored b hb
  unfold allocatedBlock
  split
  · exact ⟨_, rfl⟩
  simp only [h.descOffset_block hb]
  cases hfree : b.free with
  | true =>
    rw [hst.allocatedId_free h.few hfree]
    exact ⟨_, rfl⟩
  | false =>
    have hzero : b.size = 0 := by
      rcases hbad with hf | hz
      · rw [hfree] at hf
        cases hf
      · exact hz
    rw [hst.allocatedId h.few hfree, genPoolGetBucketState_id h.few hst.idx]
    simp only
    rw [if_pos (.inr (.inl (hst.actualSize.trans hzero)))]
    exact ⟨_, rfl⟩

/-- Only the error counter of a record may differ. -/
def SameButErrors (p p' : GenPoolRecord) : Prop :=
  p' = { p with validationErrorCount := p'.validationErrorCount }

/-- A rejected Put changes nothing but the error counter. -/
theorem genPoolPutBlock_error {e : PoolError} (he : allocatedBlock s off = .error e) :
    genPoolPutBlock s off = (.error e, (genPoolPutBlock s off).2) ∧
      SameButErrors s.pool (genPoolPutBlock s off).2.pool ∧
      (genPoolPutBlock s off).2.mem = s.mem := by
  unfold genPoolPutBlock
  rw [he]
  cases e <;> exact ⟨rfl, rfl, rfl⟩

/-- The error counter is no part of the picture. -/
theorem PoolInv.of_sameButErrors (h : PoolInv start s blocks free)
    (hp : SameButErrors s.pool s'.pool) (hm : s'.mem = s.mem) : PoolInv start s' blocks free := by
  obtain ⟨pool, mem⟩ := s
  obtain ⟨pool', mem'⟩ := s'
  subst hm
  have hp' : pool' = { pool with validationErrorCount := pool'.validationErrorCount } := hp
  rw [hp']
  exact ⟨h.few, h.align, h.chain, h.maxOffset, h.fits,
    fun b hb => ⟨(h.stored b hb).idx, (h.stored b hb).size, (h.stored b hb).checkBits,
      (h.stored b hb).code, (h.stored b hb).actualSize⟩,
    h.linked, h.freeNodup, h.freeIff, h.total, h.created, h.released⟩

/-- Putting an allocated block back frees it and reports its size. -/
theorem PoolInv.put (h : PoolInv start s blocks free) {b : Block} (hb : b ∈ blocks)
    (hfree : b.free = false) (hsize : b.size ≠ 0) :
    (genPoolPutBlock s b.offset).1 = .ok b.size ∧
      PoolInv start (genPoolPutBlock s b.offset).2 (replaceBlock { b with free := true } blocks)
        (update free b.idx (b.offset :: free b.idx)) := by
  have hst := h.stored b hb
  have hlow := (h.offset_bounds hb).1
  have hfits := readBD_fits s.mem (b.offset - descriptorSize)
  have hid := hst.allocatedId h.few hfree
  have hput : genPoolPutBlock s b.offset = (.ok b.size, ⟨s.pool.modifyBucket b.idx fun x =>
          { x with firstOffset := b.offset, releaseCount := uint32 (x.releaseCount + 1) },
        writeBD s.mem (b.offset - descriptorSize) { readBD s.mem (b.offset - descriptorSize) with
            allocated := uint16 (memoryDeallocated + (s.pool.numBuckets - b.idx))
            nextOffset := (s.pool.bucket b.idx).firstOffset }⟩) := by
    unfold genPoolPutBlock
    rw [h.allocatedBlock_ok hb hfree hsize]
    simp only [hid, h.descOffset_block hb, hst.actualSize]
  -- a block that is allocated is not on its bucket's stack
  have hfresh : b.offset ∉ free b.idx := by
    intro hmem
    obtain ⟨c, hc, hco, _, hcf⟩ := (h.freeIff b.idx hst.idx b.offset).1 hmem
    rw [chain_inj h.chain hc hb hco, hfree] at hcf
    cases hcf
  have hcode : uint16 (memoryDeallocated + (s.pool.numBuckets - b.idx)) =
      blockCode s.pool.numBuckets { b with free := true } :=
    Nat.mod_eq_of_lt (blockCode_lt (b := { b with free := true }) h.few)
  have hlink := h.linked b.idx hst.idx
  rw [hput]
  have hbd : (GenPoolBD.mk (readBD s.mem (b.offset - descriptorSize)).checkBits
      (uint16 (memoryDeallocated + (s.pool.numBuckets - b.idx)))
      (readBD s.mem (b.offset - descriptorSize)).actualSize
      (s.pool.bucket b.idx).firstOffset).Fits :=
    ⟨hfits.checkBits, Nat.mod_lt _ (by decide), hfits.actualSize, h.firstOffset_lt hst.idx⟩
  refine ⟨rfl, h.redescribe hb { b with free := true } _
    (fun x => { x with firstOffset := b.offset, releaseCount := uint32 (x.releaseCount + 1) })
    (b.offset :: free b.idx) rfl rfl hst.size hbd hst.checkBits hcode hst.actualSize
    (fun _ => rfl) (fun _ => rfl) ?_ ?_ ?_ ?_⟩
  · have hne : b.offset ≠ 0 := by
      unfold descriptorSize at hlow
      omega
    refine hlink.push hne ?_ ?_
    · unfold linkOf
      rw [readBD_writeBD hbd]
    · intro x hx
      obtain ⟨c, hc, rfl, _⟩ := (h.freeIff b.idx hst.idx x).1 hx
      unfold linkOf
      rw [h.readBD_writeBD_of_ne hb hc]
      intro hcb
      exact hfresh (hcb ▸ hx)
  · exact nodup_cons.2 ⟨hfresh, h.freeNodup b.idx hst.idx⟩
  · intro x
    rw [mem_cons]
    refine ⟨fun hx => ?_, fun hx => ?_⟩
    · rcases hx with rfl | hx
      · exact .inr ⟨rfl, rfl⟩
      · exact .inl ⟨hx, fun hxb => hfresh (hxb ▸ hx)⟩
    · rcases hx with ⟨hx, _⟩ | ⟨_, hx⟩
      · exact .inr hx
      · exact .inl hx
  · obtain ⟨hrec, hrel⟩ := h.released b.idx hst.idx
    refine ⟨hrec, ?_⟩
    show uint32 ((s.pool.bucket b.idx).releaseCount + 1) =
      uint32 ((s.pool.bucket b.idx).recycleCount + (b.offset :: free b.idx).length)
    rw [hrel, length_cons]
    unfold uint32
    omega

/-! ## Creating -/

/-- The end of the next block of bucket `i`, computed without wrap-around, lies in
the pool; or the end the code computes is beyond it, so that nothing is created. -/
def CreateFits (p : GenPoolRecord) (i : Nat) : Prop :=
  exactBlockOffset p.alignMask p.tailPosition + (p.bucket i).blockSize ≤ p.poolMaxOffset ∨
    p.poolMaxOffset < sizeT (nextBlockOffset p.alignMask p.tailPosition + (p.bucket i).blockSize)

/-- Everything a successful creation does. -/
theorem genPoolCreatePoolBlock_ok (hn : s.pool.numBuckets ≤ poolMaxBuckets)
    (hi : i < s.pool.numBuckets)
    (hcreate : genPoolCreatePoolBlock s (s.pool.numBuckets - i) newSize = .ok (off, s')) :
    off = nextBlockOffset s.pool.alignMask s.pool.tailPosition ∧
      sizeT (off + (s.pool.bucket i).blockSize) ≤ s.pool.poolMaxOffset ∧
      s' = ⟨{ s.pool.modifyBucket i fun b =>
            { b with allocationCount := uint32 (b.allocationCount + 1) } with
          tailPosition := sizeT (off + (s.pool.bucket i).blockSize)
          allocationCount := uint32 (s.pool.allocationCount + 1) },
        writeBD s.mem (descOffset off)
          ⟨checkPattern, uint16 (memoryAllocated + (s.pool.numBuckets - i)), newSize, 0⟩⟩ := by
  simp only [genPoolCreatePoolBlock, genPoolGetBucketState_id hn hi] at hcreate
  split at hcreate
  · cases hcreate
  rename_i hle
  obtain ⟨hoff, hs⟩ := Prod.mk.inj (Except.ok.inj hcreate)
  subst hoff
  exact ⟨rfl, Nat.le_of_not_lt hle, hs.symm⟩

/-- Where a creation that fits puts the block. -/
theorem PoolInv.create_bounds (h : PoolInv start s blocks free) (hfit : CreateFits s.pool i)
    (hle : sizeT (nextBlockOffset s.pool.alignMask s.pool.tailPosition +
      (s.pool.bucket i).blockSize) ≤ s.pool.poolMaxOffset) :
    s.pool.tailPosition + descriptorSize ≤
        nextBlockOffset s.pool.alignMask s.pool.tailPosition ∧
      nextBlockOffset s.pool.alignMask s.pool.tailPosition + (s.pool.bucket i).blockSize ≤
        s.pool.poolMaxOffset := by
  obtain ⟨k, hk, hmask⟩ := h.align
  have hmax := h.maxOffset
  rcases hfit with hfit | hfit
  · have hexact : exactBlockOffset s.pool.alignMask s.pool.tailPosition < 2 ^ 64 := by omega
    have hlt := lt_of_exactBlockOffset_lt hmask hk hexact
    rw [nextBlockOffset_of_lt hmask hk hlt]
    exact ⟨le_exactBlockOffset, hfit⟩
  · omega

section

variable (h : PoolInv start s blocks free)
include h

/-- One more block at the tail: what has to hold of the new record and storage. -/
theorem PoolInv.append {free' : Nat → List Nat} (hshape : SameShape s.pool s'.pool)
    (htail : s'.pool.tailPosition = b.offset + (s.pool.bucket b.idx).blockSize)
    (hoff : b.offset = nextBlockOffset s.pool.alignMask s.pool.tailPosition)
    (hlow : s.pool.tailPosition + descriptorSize ≤ b.offset)
    (hhigh : b.offset + (s.pool.bucket b.idx).blockSize ≤ s.pool.poolMaxOffset)
    (hread : ∀ c ∈ blocks, readBD s'.mem (c.offset - descriptorSize) =
      readBD s.mem (c.offset - descriptorSize)) (hst : Stored s'.pool s'.mem b)
    (htotal : s'.pool.allocationCount = uint32 (s.pool.allocationCount + 1))
    (hcreated : ∀ j < s.pool.numBuckets, (s'.pool.bucket j).allocationCount =
      if j = b.idx then uint32 ((s.pool.bucket j).allocationCount + 1)
      else (s.pool.bucket j).allocationCount)
    (hlinked : ∀ j < s.pool.numBuckets,
      Linked (linkOf s'.mem) (s'.pool.bucket j).firstOffset (free' j))
    (hnodup : ∀ j < s.pool.numBuckets, (free' j).Nodup)
    (hmem : ∀ j < s.pool.numBuckets, ∀ x,
      x ∈ free' j ↔ x ∈ free j ∨ b.free = true ∧ b.idx = j ∧ x = b.offset)
    (hreleased : ∀ j < s.pool.numBuckets, (s'.pool.bucket j).recycleCount < 2 ^ 32 ∧
      (s'.pool.bucket j).releaseCount =
        uint32 ((s'.pool.bucket j).recycleCount + (free' j).length)) :
    PoolInv start s' (blocks ++ [b]) free' := by
  have hnum := hshape.numBuckets
  refine ⟨?_, ?_, ?_, ?_, ?_, ?_, ?_, ?_, ?_, ?_, ?_, ?_⟩
  · rw [hnum]
    exact h.few
  · rw [hshape.alignMask]
    exact h.align
  · rw [htail]
    exact hshape.chain (chain_append.2 ⟨s.pool.tailPosition, h.chain, hoff, hlow, rfl⟩)
  · rw [hshape.poolMaxOffset]
    exact h.maxOffset
  · intro c hc
    rw [hshape.poolMaxOffset, hshape.blockSize]
    rcases mem_append.1 hc with hc | hc
    · exact h.fits c hc
    · rw [mem_singleton.1 hc]
      exact hhigh
  · intro c hc
    rcases mem_append.1 hc with hc | hc
    · exact (h.stored c hc).congr hshape (hread c hc)
    · rw [mem_singleton.1 hc]
      exact hst
  · rw [hnum]
    exact hlinked
  · rw [hnum]
    exact hnodup
  · rw [hnum]
    intro j hj x
    rw [hmem j hj, h.freeIff j hj]
    refine ⟨fun hx => ?_, fun ⟨c, hc, hcx, hcj, hcf⟩ => ?_⟩
    · rcases hx with ⟨c, hc, hrest⟩ | ⟨hbf, hbj, rfl⟩
      · exact ⟨c, mem_append_left _ hc, hrest⟩
      · exact ⟨b, by simp, rfl, hbj, hbf⟩
    · rcases mem_append.1 hc with hc | hc
      · exact .inl ⟨c, hc, hcx, hcj, hcf⟩
      · rw [mem_singleton.1 hc] at hcx hcj hcf
        exact .inr ⟨hcf, hcj, hcx.symm⟩
  · rw [htotal, h.total, length_append, length_singleton]
    unfold uint32
    omega
  · rw [hnum]
    intro j hj
    rw [hcreated j hj, h.created j hj, countP_append]
    by_cases hjb : j = b.idx
    · unfold uint32
      simp [hjb]
    · rw [if_neg hjb]
      simp [Ne.symm hjb]
  · rw [hnum]
    exact hreleased

/-- A descriptor written behind the tail leaves the others alone. -/
theorem PoolInv.readBD_behind (hlow : s.pool.tailPosition + descriptorSize ≤ off) (bd : GenPoolBD)
    {c : Block} (hc : c ∈ blocks) :
    readBD (writeBD s.mem (off - descriptorSize) bd) (c.offset - descriptorSize) =
      readBD s.mem (c.offset - descriptorSize) := by
  have hend := (chain_mem h.chain hc).2
  have hcl := (h.offset_bounds hc).1
  apply readBD_writeBD_of_disjoint
  omega

/-- The links of free blocks only depend on the descriptors of the blocks. -/
theorem PoolInv.linked_of_readBD {m : Mem}
    (hread : ∀ c ∈ blocks, readBD m (c.offset - descriptorSize) =
      readBD s.mem (c.offset - descriptorSize)) {j : Nat} (hj : j < s.pool.numBuckets) :
    Linked (linkOf m) (s.pool.bucket j).firstOffset (free j) := by
  refine (h.linked j hj).congr fun x hx => ?_
  obtain ⟨c, hc, rfl, _⟩ := (h.freeIff j hj x).1 hx
  unfold linkOf
  rw [hread c hc]

/-- A creation that fits adds an allocated block behind the tail. -/
theorem PoolInv.create (hi : i < s.pool.numBuckets) (hsize : newSize ≤ (s.pool.bucket i).blockSize)
    (hwidth : newSize < 2 ^ 64) (hfit : CreateFits s.pool i)
    (hcreate : genPoolCreatePoolBlock s (s.pool.numBuckets - i) newSize = .ok (off, s')) :
    s.pool.tailPosition + descriptorSize ≤ off ∧
      PoolInv start s' (blocks ++ [⟨off, i, newSize, false⟩]) free := by
  obtain ⟨hoff, hle, hs'⟩ := genPoolCreatePoolBlock_ok h.few hi hcreate
  obtain ⟨hlow, hhigh⟩ := h.create_bounds hfit (hoff ▸ hle)
  rw [← hoff] at hlow hhigh
  have hmax := h.maxOffset
  have hdesc : descOffset off = off - descriptorSize := descOffset_eq (by omega) (by omega)
  have hend : sizeT (off + (s.pool.bucket i).blockSize) = off + (s.pool.bucket i).blockSize :=
    Nat.mod_eq_of_lt (by omega)
  have hcode : uint16 (memoryAllocated + (s.pool.numBuckets - i)) =
      blockCode s.pool.numBuckets ⟨off, i, newSize, false⟩ :=
    Nat.mod_eq_of_lt (blockCode_lt (b := ⟨off, i, newSize, false⟩) h.few)
  have hbd : (GenPoolBD.mk checkPattern (uint16 (memoryAllocated + (s.pool.numBuckets - i)))
      newSize 0).Fits :=
    ⟨show 0x5a5a < 2 ^ 16 by decide, Nat.mod_lt _ (by decide), hwidth, show 0 < 2 ^ 64 by decide⟩
  rw [hend, hdesc] at hs'
  -- the bucket of the new block counts it, the other buckets are as before
  have hbucket : ∀ j, s'.pool.bucket j = { s.pool.bucket j with
      allocationCount := if j = i then uint32 ((s.pool.bucket j).allocationCount + 1)
        else (s.pool.bucket j).allocationCount } := by
    intro j
    rw [hs']
    by_cases hj : j = i
    · subst hj
      refine (bucket_modifyBucket_self hi).trans ?_
      simp
    · refine (bucket_modifyBucket_of_ne (Ne.symm hj)).trans ?_
      simp [hj]
  have hnum : s'.pool.numBuckets = s.pool.numBuckets := by
    rw [hs']
    exact numBuckets_modifyBucket
  have hsizes : ∀ j, (s'.pool.bucket j).blockSize = (s.pool.bucket j).blockSize := fun j => by
    rw [hbucket]
  have hmem : s'.mem = writeBD s.mem (off - descriptorSize)
      ⟨checkPattern, uint16 (memoryAllocated + (s.pool.numBuckets - i)), newSize, 0⟩ := by
    rw [hs']
  have hread : ∀ c ∈ blocks, readBD s'.mem (c.offset - descriptorSize) =
      readBD s.mem (c.offset - descriptorSize) := by
    intro c hc
    rw [hmem]
    exact h.readBD_behind hlow _ hc
  refine ⟨hlow, h.append ⟨by rw [hs']; rfl, by rw [hs']; rfl, hnum, hsizes⟩ (by rw [hs'])
    hoff hlow hhigh hread ?_ (by rw [hs']) ?_ ?_ h.freeNodup ?_ ?_⟩
  · have hnew : readBD s'.mem (off - descriptorSize) = ⟨checkPattern,
        uint16 (memoryAllocated + (s.pool.numBuckets - i)), newSize, 0⟩ := by
      rw [hmem]
      exact readBD_writeBD hbd
    refine ⟨?_, ?_, ?_, ?_, ?_⟩
    · rw [hnum]
      exact hi
    · rw [hsizes]
      exact hsize
    · rw [hnew]
    · rw [hnew, hnum]
      exact hcode
    · rw [hnew]
  · intro j _
    rw [hbucket]
  · intro j hj
    rw [hbucket]
    exact h.linked_of_readBD hread hj
  · intro j _ x
    simp
  · intro j hj
    rw [hbucket]
    exact h.released j hj

end

/-! ## The operations keep the geometry -/

/-- The index of the bucket a request is served from. -/
def bucketFor (p : GenPoolRecord) (reqSize : Nat) : Nat :=
  p.buckets.findIdx fun b => reqSize ≤ b.blockSize

/-- Requests go to the same bucket in records of the same geometry. -/
theorem SameShape.bucketFor_eq {p' : GenPoolRecord} (h : SameShape p p') (reqSize : Nat) :
    bucketFor p' reqSize = bucketFor p reqSize := by
  have hsizes : p'.buckets.map GenPoolBucket.blockSize = p.buckets.map GenPoolBucket.blockSize := by
    have hlen : p'.buckets.length = p.buckets.length := h.numBuckets
    apply ext_getElem
    · simp [hlen]
    · intro i hi hi'
      have hb := h.blockSize i
      simp only [length_map] at hi hi'
      simp only [GenPoolRecord.bucket, getD_eq_getElem?_getD, getElem?_eq_getElem hi,
        getElem?_eq_getElem hi', Option.getD_some] at hb
      simpa using hb
  have hfind : ∀ q : GenPoolRecord, bucketFor q reqSize =
      (q.buckets.map GenPoolBucket.blockSize).findIdx fun size => reqSize ≤ size := by
    intro q
    rw [findIdx_map]
    rfl
  rw [hfind, hfind, hsizes]

theorem genPoolRecyclePoolBlock_shape (hn : s.pool.numBuckets ≤ poolMaxBuckets)
    (hi : i < s.pool.numBuckets)
    (hrec : genPoolRecyclePoolBlock s (s.pool.numBuckets - i) newSize = .ok (off, s')) :
    SameShape s.pool s'.pool := by
  obtain ⟨_, _, hs'⟩ := genPoolRecyclePoolBlock_ok hn hi hrec
  rw [hs']
  exact SameShape.of_modifyBucket fun _ => rfl

theorem genPoolCreatePoolBlock_shape (hn : s.pool.numBuckets ≤ poolMaxBuckets)
    (hi : i < s.pool.numBuckets)
    (hcreate : genPoolCreatePoolBlock s (s.pool.numBuckets - i) newSize = .ok (off, s')) :
    SameShape s.pool s'.pool := by
  obtain ⟨_, _, hs'⟩ := genPoolCreatePoolBlock_ok hn hi hcreate
  have hmodify : SameShape s.pool (s.pool.modifyBucket i fun b =>
      { b with allocationCount := uint32 (b.allocationCount + 1) }) :=
    SameShape.of_modifyBucket fun _ => rfl
  rw [hs']
  exact ⟨hmodify.alignMask, hmodify.poolMaxOffset, hmodify.numBuckets, hmodify.blockSize⟩

theorem genPoolPutBlock_shape (s : PoolState) (off : Nat) :
    SameShape s.pool (genPoolPutBlock s off).2.pool := by
  unfold genPoolPutBlock
  split
  · exact ⟨rfl, rfl, rfl, fun _ => rfl⟩
  · exact SameShape.refl s.pool
  · exact SameShape.of_modifyBucket fun _ => rfl

/-! ## Get -/

/-- A successful Get recycles, or creates after recycling failed. -/
theorem genPoolGetBlock_ok (hget : genPoolGetBlock s reqSize = .ok (off, s')) :
    bucketFor s.pool reqSize < s.pool.numBuckets ∧
      reqSize ≤ (s.pool.bucket (bucketFor s.pool reqSize)).blockSize ∧
      (genPoolRecyclePoolBlock s (s.pool.numBuckets - bucketFor s.pool reqSize) reqSize =
          .ok (off, s') ∨
        (∃ e, genPoolRecyclePoolBlock s (s.pool.numBuckets - bucketFor s.pool reqSize) reqSize =
          .error e) ∧
        genPoolCreatePoolBlock s (s.pool.numBuckets - bucketFor s.pool reqSize) reqSize =
          .ok (off, s')) := by
  unfold genPoolGetBlock at hget
  simp only at hget
  split at hget
  · cases hget
  rename_i hne
  have hid : genPoolFindBucket s.pool reqSize = s.pool.numBuckets - bucketFor s.pool reqSize := rfl
  obtain ⟨i, hi, hi', hsize⟩ := genPoolFindBucket_spec hne
  have hbi : bucketFor s.pool reqSize = i := by omega
  rw [hid, hbi] at hget
  rw [hbi]
  refine ⟨hi, hsize, ?_⟩
  split at hget
  · next r hr => exact .inl (hr.trans hget)
  · next e he => exact .inr ⟨⟨e, he⟩, hget⟩

/-- What the pool has to be like for a Get not to run into a wrapped block end:
if it has to create a block, that block fits. -/
def GetFits (s : PoolState) (reqSize : Nat) : Prop :=
  (∃ e, genPoolRecyclePoolBlock s (s.pool.numBuckets - bucketFor s.pool reqSize) reqSize =
    .error e) → CreateFits s.pool (bucketFor s.pool reqSize)

/-- A Get on the abstract picture: a free block of the right bucket becomes
allocated, or an allocated block is added. -/
theorem PoolInv.get (h : PoolInv start s blocks free) {reqSize off : Nat} (hwidth : reqSize < 2 ^ 64)
    (hfit : GetFits s reqSize) (hget : genPoolGetBlock s reqSize = .ok (off, s')) :
    reqSize ≤ (s.pool.bucket (bucketFor s.pool reqSize)).blockSize ∧
      SameShape s.pool s'.pool ∧ ∃ blocks' free', PoolInv start s' blocks' free' ∧
        ((∃ b ∈ blocks, b.offset = off ∧ b.idx = bucketFor s.pool reqSize ∧ b.free = true ∧
            blocks' = replaceBlock ⟨off, bucketFor s.pool reqSize, reqSize, false⟩ blocks) ∨
          (s.pool.tailPosition + descriptorSize ≤ off ∧
            blocks' = blocks ++ [⟨off, bucketFor s.pool reqSize, reqSize, false⟩])) := by
  obtain ⟨hi, hsize, hrec | ⟨herr, hcreate⟩⟩ := genPoolGetBlock_ok hget
  · obtain ⟨b, hb, hboff, hbi, hbfree, hinv⟩ := h.recycle hi hsize hwidth hrec
    exact ⟨hsize, genPoolRecyclePoolBlock_shape h.few hi hrec, _, _, hinv,
      .inl ⟨b, hb, hboff, hbi, hbfree, rfl⟩⟩
  · obtain ⟨hlow, hinv⟩ := h.create hi hsize hwidth (hfit herr) hcreate
    exact ⟨hsize, genPoolCreatePoolBlock_shape h.few hi hcreate, _, _, hinv, .inr ⟨hlow, rfl⟩⟩

/-! ## Storage behind the tail -/

section

variable (h : PoolInv start s blocks free)
include h

/-- A Get writes the descriptor of the block it returns and nothing else. -/
theorem PoolInv.get_mem (hfit : GetFits s reqSize)
    (hget : genPoolGetBlock s reqSize = .ok (off, s')) :
    s.pool.tailPosition ≤ s'.pool.tailPosition ∧ start + descriptorSize ≤ off ∧
      off ≤ s'.pool.tailPosition ∧
      ∀ i, i < off - descriptorSize ∨ off ≤ i → s'.mem i = s.mem i := by
  obtain ⟨hi, hsize, hrec | ⟨herr, hcreate⟩⟩ := genPoolGetBlock_ok hget
  · obtain ⟨hoff, hne, hs'⟩ := genPoolRecyclePoolBlock_ok h.few hi hrec
    have hlink := h.linked _ hi
    rw [← hoff] at hlink
    obtain ⟨rest, hfree, _⟩ := hlink.head_ne_zero hne
    obtain ⟨b, hb, rfl, _⟩ := (h.freeIff _ hi off).1 (by rw [hfree]; simp)
    have hend := (chain_mem h.chain hb).2
    have hlow := (h.offset_bounds hb).1
    rw [h.descOffset_block hb] at hs'
    rw [hs']
    refine ⟨Nat.le_refl _, hlow, ?_, fun i hi => writeBD_of_outside (by omega)⟩
    show b.offset ≤ s.pool.tailPosition
    omega
  · obtain ⟨hoff, hle, hs'⟩ := genPoolCreatePoolBlock_ok h.few hi hcreate
    obtain ⟨hlow, hhigh⟩ := h.create_bounds (hfit herr) (hoff ▸ hle)
    have hmax := h.maxOffset
    have hstart := chain_le h.chain
    have hend : sizeT (off + (s.pool.bucket (bucketFor s.pool reqSize)).blockSize) =
        off + (s.pool.bucket (bucketFor s.pool reqSize)).blockSize := Nat.mod_eq_of_lt (by omega)
    rw [hend, descOffset_eq (by omega) (by omega)] at hs'
    rw [hs']
    refine ⟨?_, by omega, ?_, fun i hi => writeBD_of_outside (by omega)⟩
    · show s.pool.tailPosition ≤ off + (s.pool.bucket (bucketFor s.pool reqSize)).blockSize
      omega
    · show off ≤ off + (s.pool.bucket (bucketFor s.pool reqSize)).blockSize
      omega

/-- A Get changes nothing in front of the pool and nothing behind the new tail. -/
theorem PoolInv.get_outside (hfit : GetFits s reqSize)
    (hget : genPoolGetBlock s reqSize = .ok (off, s')) :
    s.pool.tailPosition ≤ s'.pool.tailPosition ∧
      ∀ i, i < start ∨ s'.pool.tailPosition ≤ i → s'.mem i = s.mem i := by
  obtain ⟨htail, hlow, hhigh, hmem⟩ := h.get_mem hfit hget
  exact ⟨htail, fun i hi => hmem i (by omega)⟩

/-- A Put writes the descriptor of the block and nothing else. -/
theorem PoolInv.put_mem (hb : b ∈ blocks) : ∀ i, i < b.offset - descriptorSize ∨ b.offset ≤ i →
      (genPoolPutBlock s b.offset).2.mem i = s.mem i := by
  have hlow := (h.offset_bounds hb).1
  intro i hi
  unfold genPoolPutBlock
  split
  · rfl
  · rfl
  · simp only [h.descOffset_block hb]
    exact writeBD_of_outside (by omega)

/-- A Put of a block changes nothing outside the pool and nothing behind the tail. -/
theorem PoolInv.put_outside (hb : b ∈ blocks) :
    (genPoolPutBlock s b.offset).2.pool.tailPosition = s.pool.tailPosition ∧
      ∀ i, i < start ∨ s.pool.tailPosition ≤ i →
        (genPoolPutBlock s b.offset).2.mem i = s.mem i := by
  have hend := (chain_mem h.chain hb).2
  have hlow := (h.offset_bounds hb).1
  refine ⟨?_, fun i hi => h.put_mem hb i (by omega)⟩
  unfold genPoolPutBlock
  split <;> rfl

end

/-! ## When a Get succeeds -/

/-- A bucket has a first free block exactly if its stack is not empty. -/
theorem PoolInv.firstOffset_ne_zero_iff (h : PoolInv start s blocks free)
    (hi : i < s.pool.numBuckets) : (s.pool.bucket i).firstOffset ≠ 0 ↔ free i ≠ [] := by
  have hlinked := h.linked i hi
  constructor
  · intro hne
    obtain ⟨rest, hfree, _⟩ := hlinked.head_ne_zero hne
    rw [hfree]
    simp
  · intro hne h0
    cases hfree : free i with
    | nil => exact hne hfree
    | cons =>
      rw [hfree, h0] at hlinked
      exact hlinked.2.1 hlinked.1.symm

/-- The free stacks of a pool below four gigabytes are shorter than their counters
can tell. -/
theorem PoolInv.length_free_lt (h : PoolInv start s blocks free)
    (hmax : s.pool.poolMaxOffset < 2 ^ 32) (hi : i < s.pool.numBuckets) :
    (free i).length < 2 ^ 32 := by
  have hsub : free i ⊆ List.range' 1 s.pool.poolMaxOffset := by
    intro x hx
    obtain ⟨b, hb, rfl, _⟩ := (h.freeIff i hi x).1 hx
    have hlow := (h.offset_bounds hb).1
    have hhigh := h.fits b hb
    unfold descriptorSize at hlow
    exact mem_range'_1.2 (by omega)
  have hle := (subperm_of_subset (h.freeNodup i hi) hsub).length_le
  rw [length_range'] at hle
  omega

/-- A bucket with a free block can recycle it. -/
theorem PoolInv.recycle_isOk (h : PoolInv start s blocks free)
    (hmax : s.pool.poolMaxOffset < 2 ^ 32) (hi : i < s.pool.numBuckets)
    (hne : (s.pool.bucket i).firstOffset ≠ 0) (newSize : Nat) :
    ∃ r, genPoolRecyclePoolBlock s (s.pool.numBuckets - i) newSize = .ok r := by
  obtain ⟨rest, hfree, _⟩ := (h.linked i hi).head_ne_zero hne
  obtain ⟨b, hb, hboff, hbi, hbfree⟩ := (h.freeIff i hi _).1 (by rw [hfree]; exact mem_cons_self)
  have hst := h.stored b hb
  have hdesc : descOffset (s.pool.bucket i).firstOffset = b.offset - descriptorSize := by
    rw [← hboff]
    exact h.descOffset_block hb
  have hcounts : (s.pool.bucket i).recycleCount ≠ (s.pool.bucket i).releaseCount := by
    have hlen := h.length_free_lt hmax hi
    obtain ⟨hlt, hrel⟩ := h.released i hi
    rw [hfree, length_cons] at hlen hrel
    rw [hrel]
    unfold uint32
    omega
  simp only [genPoolRecyclePoolBlock, genPoolGetBucketState_id h.few hi]
  rw [if_neg (by rintro (hc | h0); exacts [hcounts hc, hne h0]), hdesc,
    hst.deallocatedId h.few hbfree, hbi, if_neg (by simp [hst.checkBits])]
  exact ⟨_, rfl⟩

/-- What a request needs: a bucket that is large enough, and in it a free block or
behind the tail the room for one. -/
def CanGet (p : GenPoolRecord) (reqSize : Nat) : Prop :=
  bucketFor p reqSize < p.numBuckets ∧
    ((p.bucket (bucketFor p reqSize)).firstOffset ≠ 0 ∨
      sizeT (nextBlockOffset p.alignMask p.tailPosition +
        (p.bucket (bucketFor p reqSize)).blockSize) ≤ p.poolMaxOffset)

theorem PoolInv.get_isOk_iff (h : PoolInv start s blocks free)
    (hmax : s.pool.poolMaxOffset < 2 ^ 32) (reqSize : Nat) :
    (∃ r, genPoolGetBlock s reqSize = .ok r) ↔ CanGet s.pool reqSize := by
  constructor
  · rintro ⟨⟨off, s'⟩, hget⟩
    obtain ⟨hi, _, hrec | ⟨_, hcreate⟩⟩ := genPoolGetBlock_ok hget
    · obtain ⟨hoff, hne, _⟩ := genPoolRecyclePoolBlock_ok h.few hi hrec
      exact ⟨hi, .inl (hoff ▸ hne)⟩
    · obtain ⟨hoff, hle, _⟩ := genPoolCreatePoolBlock_ok h.few hi hcreate
      exact ⟨hi, .inr (hoff ▸ hle)⟩
  · rintro ⟨hi, hroom⟩
    unfold genPoolGetBlock
    have hid : genPoolFindBucket s.pool reqSize =
        s.pool.numBuckets - bucketFor s.pool reqSize := rfl
    simp only [hid]
    rw [if_neg (by omega)]
    cases hrec : genPoolRecyclePoolBlock s (s.pool.numBuckets - bucketFor s.pool reqSize) reqSize with
    | ok r => exact ⟨r, rfl⟩
    | error =>
      rcases hroom with hne | hle
      · obtain ⟨r, hr⟩ := h.recycle_isOk hmax hi hne reqSize
        exact absurd (hrec.symm.trans hr) (by simp)
      · simp only [genPoolCreatePoolBlock, genPoolGetBucketState_id h.few hi]
        rw [if_neg (Nat.not_lt.2 hle)]
        exact ⟨_, rfl⟩

/-- After a block was put back, its bucket has a free one. -/
theorem PoolInv.canGet_put (h : PoolInv start s blocks free) (hb : b ∈ blocks)
    (hfree : b.free = false) (hsize : b.size ≠ 0) (reqSize : Nat) :
    CanGet (genPoolPutBlock s b.offset).2.pool reqSize ↔
      bucketFor s.pool reqSize < s.pool.numBuckets ∧ (bucketFor s.pool reqSize = b.idx ∨
        (s.pool.bucket (bucketFor s.pool reqSize)).firstOffset ≠ 0 ∨
        sizeT (nextBlockOffset s.pool.alignMask s.pool.tailPosition +
          (s.pool.bucket (bucketFor s.pool reqSize)).blockSize) ≤ s.pool.poolMaxOffset) := by
  obtain ⟨_, hinv⟩ := h.put hb hfree hsize
  have hshape := genPoolPutBlock_shape s b.offset
  have htail := (h.put_outside hb).1
  unfold CanGet
  rw [hshape.bucketFor_eq, hshape.numBuckets, hshape.blockSize, hshape.alignMask,
    hshape.poolMaxOffset, htail]
  refine and_congr_right fun hi => ?_
  rw [hinv.firstOffset_ne_zero_iff (by rw [hshape.numBuckets]; exact hi),
    h.firstOffset_ne_zero_iff hi, ← or_assoc]
  refine or_congr_left ?_
  by_cases hidx : bucketFor s.pool reqSize = b.idx
  · rw [hidx, update_self]
    simp
  · simp [hidx]

end Operations

end CfsEds.Es
