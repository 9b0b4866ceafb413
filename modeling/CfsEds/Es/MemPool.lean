import CfsEds.Es.PoolRebuild

/-!
# Memory pools: returning what was obtained

`cfe_es_mempool.c` puts addresses and `int32` results around the generic pool. A block
that a Get has handed out can be put back, and `CFE_ES_GetPoolBufInfo` knows its size, with
two exceptions that `getPoolBuf_returnable` makes precise:

* a request of size 0 is granted, but 0 is what the validity check of a descriptor takes
  for corruption, so that the block is lost;
* a size of `2 ^ 31` or more is not what the `int32` result says.

Mirroring notes:

* A record stands for the one that a valid handle locates. The mutex of a pool makes each
  call one step, and the system log is left out.
* `cpuaddr` is as wide as `size_t`.
-/

namespace CfsEds.Es

open CfsEds.Lib.Memory List

/-- The conversion `(int32)`. -/
def int32 (x : Nat) : Int := (BitVec.ofNat 32 x).toInt

/-- The status words of `cfe_error.h`. -/
def PoolError.status : PoolError → Nat
  | .bufferNotInPool => 0xc4000025
  | .errMemBlockSize => 0xc4000008
  | .poolBlockInvalid => 0xc400002c
  | .badArgument => 0xc400000a

/-- `CFE_ES_MemPoolRecord_t` -/
structure MemPoolRecord where
  baseAddr : Nat
  state : PoolState

/-- The offset that belongs to an address. -/
def MemPoolRecord.offset (r : MemPoolRecord) (bufPtr : Nat) : Nat :=
  sizeT (bufPtr + 2 ^ 64 - r.baseAddr)

/-- `CFE_ES_GetPoolBuf`: the status, and on success the address. -/
def getPoolBuf (r : MemPoolRecord) (size : Nat) : Int × Option Nat × MemPoolRecord :=
  match genPoolGetBlock r.state size with
  | .ok (off, s) => (int32 size, some (sizeT (r.baseAddr + off)), { r with state := s })
  | .error e => (int32 e.status, none, r)

/-- `CFE_ES_GetPoolBufInfo` -/
def getPoolBufInfo (r : MemPoolRecord) (bufPtr : Nat) : Int :=
  match genPoolGetBlockSize r.state (r.offset bufPtr) with
  | .ok size => int32 size
  | .error e => int32 e.status

/-- `CFE_ES_PutPoolBuf` -/
def putPoolBuf (r : MemPoolRecord) (bufPtr : Nat) : Int × MemPoolRecord :=
  match genPoolPutBlock r.state (r.offset bufPtr) with
  | (.ok size, s) => (int32 size, { r with state := s })
  | (.error e, s) => (int32 e.status, { r with state := s })

/-- The block of the requested size at this address is accepted back, and its size is the
one that is reported. -/
structure Returnable (r : MemPoolRecord) (bufPtr size : Nat) : Prop where
  accepted : (genPoolPutBlock r.state (r.offset bufPtr)).1 = .ok size
  returned : (putPoolBuf r bufPtr).1 = size
  reported : getPoolBufInfo r bufPtr = size

/-! ## One block -/

theorem int32_eq_self_iff (x : Nat) : int32 x = x ↔ x < 2 ^ 31 := by
  unfold int32
  rw [BitVec.toInt_eq_toNat_cond, BitVec.toNat_ofNat]
  split <;> omega

theorem MemPoolRecord.offset_address (r : MemPoolRecord) {off : Nat} (hbase : r.baseAddr < 2 ^ 64)
    (hoff : off < 2 ^ 64) : r.offset (sizeT (r.baseAddr + off)) = off := by
  unfold MemPoolRecord.offset sizeT
  omega

section

variable {params : PoolParams} {m : Mem} {e : PoolEnv} {blocks : List Block}
  {free : Nat → List Nat} {r : MemPoolRecord}

/-- The two exceptions, for a block that is held. -/
theorem RunInv.returnable_iff (h : RunInv params e blocks free) (hr : r.state = e.state)
    (hbase : r.baseAddr < 2 ^ 64) {x : Nat × Nat} (hx : x ∈ e.handed) :
    Returnable r (sizeT (r.baseAddr + x.1)) x.2 ↔ x.2 ≠ 0 ∧ x.2 < 2 ^ 31 := by
  obtain ⟨b, hb, hbf, rfl⟩ := (h.handedIff x).1 hx
  have hoff := r.offset_address hbase (h.pool.offset_bounds hb).2
  simp only
  constructor
  · rintro ⟨haccepted, hreturned, -⟩
    rw [hoff, hr] at haccepted
    refine ⟨fun hzero => ?_, ?_⟩
    · obtain ⟨err, herr⟩ := h.pool.allocatedBlock_error hb (.inr hzero)
      rw [(genPoolPutBlock_error herr).1] at haccepted
      cases haccepted
    · unfold putPoolBuf at hreturned
      rw [hoff, hr] at hreturned
      split at hreturned
      · next size s hput =>
        rw [hput] at haccepted
        rw [Except.ok.inj haccepted] at hreturned
        exact (int32_eq_self_iff _).1 hreturned
      · next err s hput =>
        rw [hput] at haccepted
        cases haccepted
  · rintro ⟨hzero, hsmall⟩
    have hput := (h.pool.put hb hbf hzero).1
    have hint := (int32_eq_self_iff b.size).2 hsmall
    refine ⟨by rw [hoff, hr, hput], ?_, ?_⟩
    · unfold putPoolBuf
      rw [hoff, hr]
      split
      · next size s hs =>
        rw [hs] at hput
        rw [Except.ok.inj hput, hint]
      · next err s hs =>
        rw [hs] at hput
        cases hput
    · unfold getPoolBufInfo genPoolGetBlockSize
      rw [hoff, hr, h.pool.allocatedBlock_ok hb hbf hzero]
      show int32 (readBD e.state.mem (b.offset - descriptorSize)).actualSize = b.size
      rw [(h.pool.stored b hb).actualSize, hint]

/-! ## The counters -/

/-- When no block is held, the free stack of a bucket has all its blocks. -/
theorem RunInv.length_free (h : RunInv params e blocks free) (hall : e.handed = []) {i : Nat}
    (hi : i < e.state.pool.numBuckets) :
    (free i).length = blocks.countP fun b => b.idx = i := by
  have hfree : ∀ b ∈ blocks, b.free = true := by
    intro b hb
    cases hf : b.free with
    | true => rfl
    | false =>
      have hheld := (h.handedIff (b.offset, b.size)).2 ⟨b, hb, hf, rfl⟩
      rw [hall] at hheld
      cases hheld
  have hnodup : ((blocks.filter fun b => b.idx = i).map Block.offset).Nodup := by
    refine List.Nodup.map_on ?_ ((chain_nodup h.pool.chain).filter _)
    intro b hb c hc hbc
    exact chain_inj h.pool.chain (mem_filter.1 hb).1 (mem_filter.1 hc).1 hbc
  have hperm : (free i).Perm ((blocks.filter fun b => b.idx = i).map Block.offset) := by
    refine (perm_ext_iff_of_nodup (h.pool.freeNodup i hi) hnodup).2 fun x => ?_
    rw [h.pool.freeIff i hi, mem_map]
    constructor
    · rintro ⟨b, hb, hbo, hbi, -⟩
      exact ⟨b, mem_filter.2 ⟨hb, by simpa using hbi⟩, hbo⟩
    · rintro ⟨b, hb, hbo⟩
      obtain ⟨hb, hbi⟩ := mem_filter.1 hb
      exact ⟨b, hb, hbo, by simpa using hbi, hfree b hb⟩
  rw [hperm.length_eq, length_map, countP_eq_length_filter]

/-- The counters of a bucket differ by the number of its blocks. -/
theorem RunInv.numFree_eq (h : RunInv params e blocks free) (hall : e.handed = []) {i : Nat}
    (hi : i < e.state.pool.numBuckets) :
    numFree (e.state.pool.bucket i) = (e.state.pool.bucket i).allocationCount := by
  obtain ⟨hlt, hrel⟩ := h.pool.released i hi
  unfold numFree
  rw [hrel, h.pool.created i hi, h.length_free hall hi]
  unfold uint32
  omega

end

/-- In every state of every run whose Gets fit, a granted request can be put back and has
the reported size exactly if its size is neither 0 nor beyond an `int32`; and when every
block was put back, each bucket's `ReleaseCount` less its `RecycleCount` is the number of
blocks created in it. -/
theorem getPoolBuf_returnable (params : PoolParams) (m : Mem) (e : PoolEnv) (r : MemPoolRecord)
    (hrun : PoolRun params m GetFits e) (hr : r.state = e.state) (hbase : r.baseAddr < 2 ^ 64) :
    (∀ size < 2 ^ 64, GetFits e.state size → ∀ bufPtr, (getPoolBuf r size).2.1 = some bufPtr →
        (Returnable (getPoolBuf r size).2.2 bufPtr size ↔ size ≠ 0 ∧ size < 2 ^ 31)) ∧
      (∀ x ∈ e.handed, Returnable r (sizeT (r.baseAddr + x.1)) x.2 ↔ x.2 ≠ 0 ∧ x.2 < 2 ^ 31) ∧
      (e.handed = [] → ∀ i < e.state.pool.numBuckets,
        numFree (e.state.pool.bucket i) = (e.state.pool.bucket i).allocationCount) := by
  obtain ⟨blocks, free, hinv⟩ := hrun.exists_runInv
  refine ⟨?_, fun x hx => hinv.returnable_iff hr hbase hx, fun hall i hi => hinv.numFree_eq hall hi⟩
  intro size hwidth hfit bufPtr hget
  obtain ⟨blocks', free', hinv'⟩ := hinv.get hwidth hfit
  cases hblock : genPoolGetBlock r.state size with
  | error =>
    simp only [getPoolBuf, hblock] at hget
    cases hget
  | ok result =>
    simp only [getPoolBuf, hblock, Option.some.injEq] at hget ⊢
    rw [hr] at hblock
    have henv : e.get size = ⟨result.2, (result.1, size) :: e.handed, result.1 :: e.issued⟩ := by
      simp only [PoolEnv.get, hblock]
    rw [← hget]
    refine hinv'.returnable_iff (r := { r with state := result.2 }) ?_ hbase
      (x := (result.1, size)) ?_
    · rw [henv]
    · rw [henv]
      exact mem_cons_self

/-- Ten bytes of the small pool. -/
theorem getPoolBuf_returnable_ten :
    Returnable (getPoolBuf ⟨4096, ⟨freshPool smallPool [8, 64], fun _ => 0⟩⟩ 10).2.2 4120 10 :=
  ((getPoolBuf_returnable smallPool (fun _ => 0) _ ⟨4096, _⟩ (@PoolRun.init _ _ _ 3 _ rfl) rfl
    (by decide)).1 10 (by decide) (fun _ => .inl (by decide +kernel)) 4120
      (by decide +kernel)).2 (by decide)

/-- A block of size 0 is granted; putting it back is refused, and the bucket counts one
block created and none released. -/
theorem getPoolBuf_zero_lost :
    ∃ e : PoolEnv, PoolRun smallPool (fun _ => 0) GetFits e ∧ e.handed = [(24, 0)] ∧
      (genPoolPutBlock e.state 24).1 = .error .poolBlockInvalid ∧
      getPoolBufInfo ⟨4096, e.state⟩ 4120 = int32 0xc400002c ∧
      numFree ((e.put 24).state.pool.bucket 0) = 0 ∧
      ((e.put 24).state.pool.bucket 0).allocationCount = 1 :=
  ⟨_, PoolRun.get (@PoolRun.init _ _ _ 3 _ rfl) 0 (by decide) fun _ => .inl (by decide +kernel),
    by decide +kernel, by decide +kernel, by decide +kernel, by decide +kernel, by decide +kernel⟩

end CfsEds.Es
