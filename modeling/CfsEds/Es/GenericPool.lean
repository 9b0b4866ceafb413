import CfsEds.Lib.Loop
import CfsEds.Lib.Memory

/-!
# The generic memory pool

`cfe_es_generic_pool.c`: a pool hands out blocks of a few fixed sizes ("buckets")
from one stretch of storage. New blocks are cut off at the tail, each with a
descriptor in front of it; blocks given back are kept on one free stack per
bucket, linked through their own descriptors, and are recycled before a new one
is cut.

Storage is byte memory addressed by pool offsets; the `Retrieve` and `Commit`
callbacks are taken to succeed, so they are a read and a write of the descriptor's
fields (its padding bytes keep what they held). `size_t` is 64 bits wide: every
sum the C code forms is reduced with `sizeT`, and likewise `uint16` and `uint32`.
The array `Buckets` is the list of its first `NumBuckets` entries.

A function that reports an error before it has changed anything returns
`Except.error`; `genPoolPutBlock`, which counts rejected blocks, returns its
status next to the new state.
-/

namespace CfsEds.Es

open CfsEds.Lib.Loop CfsEds.Lib.Memory

/-- `CFE_ES_CHECK_PATTERN` -/
def checkPattern : Nat := 0x5a5a

/-- `CFE_ES_MEMORY_ALLOCATED` -/
def memoryAllocated : Nat := 0xaaaa

/-- `CFE_ES_MEMORY_DEALLOCATED` -/
def memoryDeallocated : Nat := 0xdddd

/-- `CFE_ES_GENERIC_POOL_DESCRIPTOR_SIZE`: two `uint16`, four bytes of padding
and two `size_t`. -/
def descriptorSize : Nat := 24

/-- `CFE_PLATFORM_ES_POOL_MAX_BUCKETS` -/
def poolMaxBuckets : Nat := 17

/-- The status codes of this file other than `CFE_SUCCESS`. -/
inductive PoolError where
  | bufferNotInPool
  | errMemBlockSize
  | poolBlockInvalid
  | badArgument
  deriving DecidableEq, Repr

/-- `CFE_ES_GenPoolBD_t` -/
structure GenPoolBD where
  checkBits : Nat
  allocated : Nat
  actualSize : Nat
  nextOffset : Nat
  deriving DecidableEq

/-- `CFE_ES_GenPoolBucket_t` -/
structure GenPoolBucket where
  blockSize : Nat
  firstOffset : Nat
  allocationCount : Nat
  releaseCount : Nat
  recycleCount : Nat
  deriving DecidableEq

instance : Inhabited GenPoolBucket := ⟨⟨0, 0, 0, 0, 0⟩⟩

/-- `CFE_ES_GenPoolRecord_t` without its callbacks. -/
structure GenPoolRecord where
  poolTotalSize : Nat
  poolMaxOffset : Nat
  alignMask : Nat
  tailPosition : Nat
  allocationCount : Nat
  validationErrorCount : Nat
  buckets : List GenPoolBucket
  deriving DecidableEq

/-- `NumBuckets` -/
def GenPoolRecord.numBuckets (p : GenPoolRecord) : Nat := p.buckets.length

/-- `Buckets[i]` -/
def GenPoolRecord.bucket (p : GenPoolRecord) (i : Nat) : GenPoolBucket := p.buckets.getD i default

/-- An update of `Buckets[i]` in place. -/
def GenPoolRecord.modifyBucket (p : GenPoolRecord) (i : Nat) (f : GenPoolBucket → GenPoolBucket) :
    GenPoolRecord :=
  { p with buckets := p.buckets.modify i f }

/-- A pool record and the storage it manages. -/
structure PoolState where
  pool : GenPoolRecord
  mem : Mem

/-! ## Descriptors in storage -/

/-- The `Retrieve` callback. -/
def readBD (m : Mem) (off : Nat) : GenPoolBD where
  checkBits := readLE m off 2
  allocated := readLE m (off + 2) 2
  actualSize := readLE m (off + 8) 8
  nextOffset := readLE m (off + 16) 8

/-- The `Commit` callback. -/
def writeBD (m : Mem) (off : Nat) (bd : GenPoolBD) : Mem :=
  writeLE (writeLE (writeLE (writeLE m off 2 bd.checkBits) (off + 2) 2 bd.allocated)
    (off + 8) 8 bd.actualSize) (off + 16) 8 bd.nextOffset

/-! ## Helpers -/

/-- `CFE_ES_GenPoolFindBucket`: the ID of the first bucket the request fits in,
counted down from `NumBuckets`, or zero. -/
def genPoolFindBucket (p : GenPoolRecord) (reqSize : Nat) : Nat :=
  p.numBuckets - p.buckets.findIdx fun b => reqSize ≤ b.blockSize

/-- `CFE_ES_GenPoolGetBucketState`: the index of the bucket with that ID. -/
def genPoolGetBucketState (p : GenPoolRecord) (bucketId : Nat) : Option Nat :=
  let index := uint16 (p.numBuckets + 2 ^ 16 - bucketId)
  if index ≥ p.numBuckets then none else some index

/-- Where the next block starts: behind a descriptor at `tail`, aligned. -/
def nextBlockOffset (alignMask tail : Nat) : Nat :=
  sizeT (sizeT (tail + descriptorSize) + alignMask) &&& (2 ^ 64 - 1 - alignMask)

/-- The offset of the descriptor of a block. -/
def descOffset (blockOffset : Nat) : Nat := sizeT (blockOffset + 2 ^ 64 - descriptorSize)

/-- `CFE_ES_GenPoolRecyclePoolBlock` -/
def genPoolRecyclePoolBlock (s : PoolState) (bucketId newSize : Nat) :
    Except PoolError (Nat × PoolState) :=
  match genPoolGetBucketState s.pool bucketId with
  | none => .error .bufferNotInPool
  | some i =>
    let bucket := s.pool.bucket i
    if bucket.recycleCount = bucket.releaseCount ∨ bucket.firstOffset = 0 then
      .error .bufferNotInPool
    else
      let blockOffset := bucket.firstOffset
      let bd := readBD s.mem (descOffset blockOffset)
      let recycleBucketId := uint16 (bd.allocated + 2 ^ 16 - memoryDeallocated)
      if bd.checkBits ≠ checkPattern ∨ recycleBucketId ≠ bucketId then
        .error .bufferNotInPool
      else
        let mem := writeBD s.mem (descOffset blockOffset)
          { bd with allocated := uint16 (memoryAllocated + bucketId)
                    actualSize := newSize
                    nextOffset := 0 }
        let pool := s.pool.modifyBucket i fun b =>
          { b with firstOffset := bd.nextOffset, recycleCount := uint32 (b.recycleCount + 1) }
        .ok (blockOffset, ⟨pool, mem⟩)

/-- `CFE_ES_GenPoolCreatePoolBlock` -/
def genPoolCreatePoolBlock (s : PoolState) (bucketId newSize : Nat) :
    Except PoolError (Nat × PoolState) :=
  match genPoolGetBucketState s.pool bucketId with
  | none => .error .bufferNotInPool
  | some i =>
    let blockOffset := nextBlockOffset s.pool.alignMask s.pool.tailPosition
    let nextTailPosition := sizeT (blockOffset + (s.pool.bucket i).blockSize)
    if nextTailPosition > s.pool.poolMaxOffset then .error .errMemBlockSize
    else
      let mem := writeBD s.mem (descOffset blockOffset)
        { checkBits := checkPattern
          allocated := uint16 (memoryAllocated + bucketId)
          actualSize := newSize
          nextOffset := 0 }
      let pool := s.pool.modifyBucket i fun b =>
        { b with allocationCount := uint32 (b.allocationCount + 1) }
      let pool := { pool with tailPosition := nextTailPosition
                              allocationCount := uint32 (pool.allocationCount + 1) }
      .ok (blockOffset, ⟨pool, mem⟩)

/-- `CFE_ES_GenPoolGetBlock` -/
def genPoolGetBlock (s : PoolState) (reqSize : Nat) : Except PoolError (Nat × PoolState) :=
  let bucketId := genPoolFindBucket s.pool reqSize
  if bucketId = 0 then .error .errMemBlockSize
  else
    match genPoolRecyclePoolBlock s bucketId reqSize with
    | .ok r => .ok r
    | .error _ => genPoolCreatePoolBlock s bucketId reqSize

/-- The validity check shared by `GetBlockSize` and `PutBlock`: the bucket index
and the descriptor of an allocated block. -/
def allocatedBlock (s : PoolState) (blockOffset : Nat) : Except PoolError (Nat × GenPoolBD) :=
  if blockOffset ≥ s.pool.tailPosition ∨ blockOffset < descriptorSize then
    .error .bufferNotInPool
  else
    let bd := readBD s.mem (descOffset blockOffset)
    match genPoolGetBucketState s.pool (uint16 (bd.allocated + 2 ^ 16 - memoryAllocated)) with
    | none => .error .poolBlockInvalid
    | some i =>
      if bd.checkBits ≠ checkPattern ∨ bd.actualSize = 0 ∨
          (s.pool.bucket i).blockSize < bd.actualSize then
        .error .poolBlockInvalid
      else .ok (i, bd)

/-- `CFE_ES_GenPoolGetBlockSize` -/
def genPoolGetBlockSize (s : PoolState) (blockOffset : Nat) : Except PoolError Nat :=
  (allocatedBlock s blockOffset).map fun r => r.2.actualSize

/-- `CFE_ES_GenPoolPutBlock`, with the size it reports. -/
def genPoolPutBlock (s : PoolState) (blockOffset : Nat) : Except PoolError Nat × PoolState :=
  match allocatedBlock s blockOffset with
  | .error .poolBlockInvalid =>
    (.error .poolBlockInvalid,
      { s with pool := { s.pool with
          validationErrorCount := uint32 (s.pool.validationErrorCount + 1) } })
  | .error e => (.error e, s)
  | .ok (i, bd) =>
    let bucketId := uint16 (bd.allocated + 2 ^ 16 - memoryAllocated)
    let mem := writeBD s.mem (descOffset blockOffset)
      { bd with allocated := uint16 (memoryDeallocated + bucketId)
                nextOffset := (s.pool.bucket i).firstOffset }
    let pool := s.pool.modifyBucket i fun b =>
      { b with firstOffset := blockOffset, releaseCount := uint32 (b.releaseCount + 1) }
    (.ok bd.actualSize, ⟨pool, mem⟩)

/-! ## Initialization -/

/-- One `for` pass of the bubble sort, carrying the entry `x` along: the entries
after the pass and the number of swaps. The swap is the three exclusive ors of
the source. -/
def bubblePass (x : Nat) : List Nat → List Nat × Nat
  | [] => ([x], 0)
  | y :: rest =>
    if x > y then
      let x' := x ^^^ y
      let y' := y ^^^ x'
      let x'' := x' ^^^ y'
      let r := bubblePass y' rest
      (x'' :: r.1, r.2 + 1)
    else
      let r := bubblePass y rest
      (x :: r.1, r.2)

/-- A pass over the whole list. -/
def bubbleOnce : List Nat → List Nat × Nat
  | [] => ([], 0)
  | x :: rest => bubblePass x rest

/-- The `do … while (j > 0)` loop of passes. -/
def bubbleSort (fuel : Nat) (sizes : List Nat) : Option (List Nat) :=
  (whileFuel (fun r : List Nat × Nat => decide (r.2 > 0)) (fun r => bubbleOnce r.1) fuel
    (bubbleOnce sizes)).map Prod.fst

/-- The arguments of `CFE_ES_GenPoolInitialize`. The callers check the number of
block sizes against the size of the bucket array. -/
structure PoolParams where
  startOffset : Nat
  poolSize : Nat
  alignSize : Nat
  blockSizeList : List Nat
  hstart : startOffset < 2 ^ 64
  hsize : poolSize < 2 ^ 64
  halign : alignSize < 2 ^ 64
  hblocks : ∀ b ∈ blockSizeList, b < 2 ^ 64
  hcount : blockSizeList.length ≤ poolMaxBuckets

theorem four_lt : 4 < 2 ^ 64 := by decide

/-- The alignment as a bit mask. -/
def PoolParams.alignMask (params : PoolParams) : Nat :=
  if params.alignSize ≤ 1 then 0 else params.alignSize - 1

/-- A bucket after initialization. -/
def freshBucket (blockSize : Nat) : GenPoolBucket := ⟨blockSize, 0, 0, 0, 0⟩

/-- The record after initialization, with the block sizes in the given order. -/
def freshPool (params : PoolParams) (sizes : List Nat) : GenPoolRecord where
  poolTotalSize := params.poolSize
  poolMaxOffset := sizeT (params.poolSize + params.startOffset)
  alignMask := params.alignMask
  tailPosition := params.startOffset
  allocationCount := 0
  validationErrorCount := 0
  buckets := sizes.map freshBucket

/-- `CFE_ES_GenPoolInitialize`; `none` when the sort has not ended on this fuel. -/
def genPoolInitialize (fuel : Nat) (params : PoolParams) :
    Option (Except PoolError GenPoolRecord) :=
  if params.alignMask &&& params.alignSize ≠ 0 then some (.error .badArgument)
  else
    match bubbleSort fuel params.blockSizeList with
    | none => none
    | some sizes =>
      let pool := freshPool params sizes
      if (pool.bucket 0).blockSize = 0 then some (.error .errMemBlockSize) else some (.ok pool)

/-! ## Rebuild -/

/-- The variables of the scan; `running` is cleared where the source breaks. -/
structure RebuildState where
  pool : GenPoolRecord
  mem : Mem
  running : Bool

/-- The inspection of a descriptor: bucket index and whether the block is
deallocated. -/
def inspectBD (p : GenPoolRecord) (bd : GenPoolBD) : Option (Nat × Bool) :=
  if bd.checkBits = checkPattern then
    match genPoolGetBucketState p (uint16 (bd.allocated + 2 ^ 16 - memoryDeallocated)) with
    | some i => some (i, true)
    | none =>
      (genPoolGetBucketState p (uint16 (bd.allocated + 2 ^ 16 - memoryAllocated))).map (·, false)
  else none

/-- One iteration of the scan. -/
def rebuildBody (s : RebuildState) : RebuildState :=
  let blockOffset := nextBlockOffset s.pool.alignMask s.pool.tailPosition
  if blockOffset > s.pool.poolMaxOffset then { s with running := false }
  else
    let bd := readBD s.mem (descOffset blockOffset)
    match inspectBD s.pool bd with
    | none => { s with running := false }
    | some (i, isDeallocatedBlock) =>
      if (s.pool.bucket i).blockSize < bd.actualSize then { s with running := false }
      else
        let pool := { s.pool with
          tailPosition := sizeT (blockOffset + (s.pool.bucket i).blockSize)
          allocationCount := uint32 (s.pool.allocationCount + 1) }
        let pool := pool.modifyBucket i fun b =>
          { b with allocationCount := uint32 (b.allocationCount + 1) }
        if isDeallocatedBlock then
          { s with
            pool := pool.modifyBucket i fun b =>
              { b with firstOffset := blockOffset, releaseCount := uint32 (b.releaseCount + 1) }
            mem := writeBD s.mem (descOffset blockOffset)
              { bd with nextOffset := (s.pool.bucket i).firstOffset } }
        else { s with pool := pool }

/-- `CFE_ES_GenPoolRebuild` -/
def genPoolRebuild (fuel : Nat) (s : PoolState) : Option PoolState :=
  (whileFuel RebuildState.running rebuildBody fuel ⟨s.pool, s.mem, true⟩).map fun t =>
    ⟨t.pool, t.mem⟩

/-! ## Descriptor lemmas -/

/-- The fields of a descriptor have the width of their C types. -/
structure GenPoolBD.Fits (bd : GenPoolBD) : Prop where
  checkBits : bd.checkBits < 2 ^ 16
  allocated : bd.allocated < 2 ^ 16
  actualSize : bd.actualSize < 2 ^ 64
  nextOffset : bd.nextOffset < 2 ^ 64

theorem readBD_fits (m : Mem) (off : Nat) : (readBD m off).Fits :=
  ⟨readLE_lt m 2 off, readLE_lt m 2 (off + 2), readLE_lt m 8 (off + 8), readLE_lt m 8 (off + 16)⟩

/-- A descriptor depends on its own bytes only. -/
theorem readBD_congr {m m' : Mem} {off : Nat}
    (h : ∀ i, off ≤ i → i < off + descriptorSize → m i = m' i) : readBD m off = readBD m' off := by
  unfold descriptorSize at h
  have hcheck := readLE_congr 2 off fun i hi hi' => h i (by omega) (by omega)
  have halloc := readLE_congr 2 (off + 2) fun i hi hi' => h i (by omega) (by omega)
  have hsize := readLE_congr 8 (off + 8) fun i hi hi' => h i (by omega) (by omega)
  have hnext := readLE_congr 8 (off + 16) fun i hi hi' => h i (by omega) (by omega)
  simp only [readBD, hcheck, halloc, hsize, hnext]

theorem writeBD_of_outside {m : Mem} {off i : Nat} {bd : GenPoolBD}
    (h : i < off ∨ off + descriptorSize ≤ i) : writeBD m off bd i = m i := by
  unfold descriptorSize at h
  unfold writeBD
  rw [writeLE_of_outside (by omega), writeLE_of_outside (by omega), writeLE_of_outside (by omega),
    writeLE_of_outside (by omega)]

/-- Descriptors at different places do not disturb each other. -/
theorem readBD_writeBD_of_disjoint {m : Mem} {off off' : Nat} {bd : GenPoolBD}
    (h : off + descriptorSize ≤ off' ∨ off' + descriptorSize ≤ off) :
    readBD (writeBD m off' bd) off = readBD m off := by
  apply readBD_congr
  intro i hi hi'
  exact writeBD_of_outside (by omega)

/-- Retrieving a committed descriptor. -/
theorem readBD_writeBD {m : Mem} {off : Nat} {bd : GenPoolBD} (h : bd.Fits) :
    readBD (writeBD m off bd) off = bd := by
  have hcheck : readLE (writeBD m off bd) off 2 = bd.checkBits := by
    unfold writeBD
    rw [readLE_writeLE_of_disjoint (by omega), readLE_writeLE_of_disjoint (by omega),
      readLE_writeLE_of_disjoint (by omega), readLE_writeLE_of_lt h.checkBits]
  have halloc : readLE (writeBD m off bd) (off + 2) 2 = bd.allocated := by
    unfold writeBD
    rw [readLE_writeLE_of_disjoint (by omega), readLE_writeLE_of_disjoint (by omega),
      readLE_writeLE_of_lt h.allocated]
  have hsize : readLE (writeBD m off bd) (off + 8) 8 = bd.actualSize := by
    unfold writeBD
    rw [readLE_writeLE_of_disjoint (by omega), readLE_writeLE_of_lt h.actualSize]
  have hnext : readLE (writeBD m off bd) (off + 16) 8 = bd.nextOffset := by
    unfold writeBD
    rw [readLE_writeLE_of_lt h.nextOffset]
  simp only [readBD, hcheck, halloc, hsize, hnext]

end CfsEds.Es
