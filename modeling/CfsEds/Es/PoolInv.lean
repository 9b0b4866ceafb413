import CfsEds.Es.GenericPool
import CfsEds.Lib.LinkedList
import Mathlib.Data.Nat.Bitwise

/-!
# What a pool means: blocks, chain and free stacks

The abstract picture of a pool is a list of blocks in the order in which they
were cut off at the tail, each allocated or free, and for every bucket the stack
of its free blocks. `PoolInv` ties a pool record and its storage to that picture:

* `chain`: the blocks lie one behind the other, each where `nextBlockOffset`
  puts it, from the start of the pool to `TailPosition`;
* `stored`: the descriptor in front of each block says what the block is;
* `linked`, `freeIff`: following `NextOffset` from a bucket's `FirstOffset`
  visits exactly the free blocks of that bucket;
* the counters count.

The descriptors are never disturbed by a write inside a block (`PoolInv.write`),
because the chain keeps blocks and descriptors apart.
-/

namespace CfsEds.Es

open CfsEds.Lib.Memory CfsEds.Lib.LinkedList List

variable {b c : Block} {bs : List Block}

/-! ## Alignment -/

private theorem land_high (x k : Nat) (hx : x < 2 ^ 64) (hk : k < 64) :
    x &&& (2 ^ 64 - 2 ^ k) = x / 2 ^ k * 2 ^ k := by
  have hmask : 2 ^ 64 - 2 ^ k = (2 ^ (64 - k) - 1) * 2 ^ k := by
    rw [Nat.sub_mul, Nat.one_mul, ← Nat.pow_add, show 64 - k + k = 64 by omega]
  apply Nat.eq_of_testBit_eq
  intro i
  rw [hmask, Nat.testBit_and, Nat.testBit_mul_two_pow, Nat.testBit_mul_two_pow,
    Nat.testBit_two_pow_sub_one, Nat.testBit_div_two_pow]
  by_cases hi : k ≤ i
  · rw [show i - k + k = i by omega]
    by_cases hi' : i < 64
    · simp [hi, show i - k < 64 - k by omega]
    · have : x.testBit i = false :=
        Nat.testBit_lt_two_pow (Nat.lt_of_lt_of_le hx (Nat.pow_le_pow_right (by omega) (by omega)))
      simp [this]
  · simp [hi]

/-- The next block position without wrap-around. -/
def exactBlockOffset (alignMask tail : Nat) : Nat :=
  (tail + descriptorSize + alignMask) / (alignMask + 1) * (alignMask + 1)

section Align

variable {mask k t : Nat}

theorem nextBlockOffset_eq (hmask : mask + 1 = 2 ^ k) (hk : k < 64) :
    nextBlockOffset mask t =
      sizeT (sizeT (t + descriptorSize) + mask) / (mask + 1) * (mask + 1) := by
  have hx : sizeT (sizeT (t + descriptorSize) + mask) < 2 ^ 64 := Nat.mod_lt _ (by decide)
  unfold nextBlockOffset
  rw [show 2 ^ 64 - 1 - mask = 2 ^ 64 - 2 ^ k by omega, land_high _ k hx hk, hmask]

theorem dvd_nextBlockOffset (hmask : mask + 1 = 2 ^ k) (hk : k < 64) :
    mask + 1 ∣ nextBlockOffset mask t := by
  rw [nextBlockOffset_eq hmask hk]
  exact Nat.dvd_mul_left _ _

/-- Without wrap-around the aligned position is the exact one. -/
theorem nextBlockOffset_of_lt (hmask : mask + 1 = 2 ^ k) (hk : k < 64)
    (h : t + descriptorSize + mask < 2 ^ 64) :
    nextBlockOffset mask t = exactBlockOffset mask t := by
  rw [nextBlockOffset_eq hmask hk, exactBlockOffset]
  unfold sizeT
  rw [Nat.mod_eq_of_lt (a := t + descriptorSize) (by omega), Nat.mod_eq_of_lt h]

theorem le_exactBlockOffset : t + descriptorSize ≤ exactBlockOffset mask t := by
  unfold exactBlockOffset
  have hmod := Nat.mod_lt (t + descriptorSize + mask) (show 0 < mask + 1 by omega)
  have hdiv := Nat.div_add_mod (t + descriptorSize + mask) (mask + 1)
  rw [Nat.mul_comm] at hdiv
  omega

/-- An exact position below `2 ^ 64` was computed without wrap-around. -/
theorem lt_of_exactBlockOffset_lt (hmask : mask + 1 = 2 ^ k) (hk : k < 64)
    (h : exactBlockOffset mask t < 2 ^ 64) : t + descriptorSize + mask < 2 ^ 64 := by
  unfold exactBlockOffset at h
  generalize t + descriptorSize + mask = x at h ⊢
  have hsplit : 2 ^ 64 = 2 ^ (64 - k) * (mask + 1) := by
    rw [hmask, ← Nat.pow_add, show 64 - k + k = 64 by omega]
  rw [hsplit] at h ⊢
  have hq : x / (mask + 1) < 2 ^ (64 - k) := Nat.lt_of_mul_lt_mul_right h
  exact (Nat.div_lt_iff_lt_mul (by omega)).1 hq

end Align

theorem descOffset_eq {off : Nat} (hlow : descriptorSize ≤ off) (hoff : off < 2 ^ 64) :
    descOffset off = off - descriptorSize := by
  unfold descOffset sizeT
  omega

/-! ## Blocks and their chain -/

/-- A block that was cut off the tail. -/
structure Block where
  offset : Nat
  /-- index of its bucket -/
  idx : Nat
  /-- size it was last requested with -/
  size : Nat
  free : Bool
  deriving DecidableEq

/-- The blocks lie from `t` to `tail`, each where `nextBlockOffset` puts it. -/
def Chain (mask : Nat) (len : Nat → Nat) : Nat → List Block → Nat → Prop
  | t, [], tail => t = tail
  | t, b :: bs, tail =>
    b.offset = nextBlockOffset mask t ∧ t + descriptorSize ≤ b.offset ∧
      Chain mask len (b.offset + len b.idx) bs tail

section Chain

variable {mask : Nat} {len : Nat → Nat}

theorem chain_append : ∀ {bs cs : List Block} {t tail : Nat}, Chain mask len t (bs ++ cs) tail ↔
      ∃ mid, Chain mask len t bs mid ∧ Chain mask len mid cs tail := by
  intro bs
  induction bs with
  | nil => intro cs t tail; exact ⟨fun h => ⟨t, rfl, h⟩, fun ⟨mid, h, h'⟩ => h ▸ h'⟩
  | cons b bs ih =>
    intro cs t tail
    refine ⟨fun ⟨hoff, hle, hrest⟩ => ?_, fun ⟨mid, ⟨hoff, hle, hrest⟩, h'⟩ => ?_⟩
    · obtain ⟨mid, h, h'⟩ := ih.1 hrest
      exact ⟨mid, ⟨hoff, hle, h⟩, h'⟩
    · exact ⟨hoff, hle, ih.2 ⟨mid, hrest, h'⟩⟩

theorem chain_le : ∀ {bs : List Block} {t tail : Nat}, Chain mask len t bs tail → t ≤ tail := by
  intro bs
  induction bs with
  | nil => intro t tail h; exact Nat.le_of_eq h
  | cons b bs ih =>
    intro t tail h
    have := ih h.2.2
    have := h.2.1
    omega

/-- The blocks determine the tail. -/
theorem chain_end : ∀ {bs : List Block} {t tail tail' : Nat}, Chain mask len t bs tail →
    Chain mask len t bs tail' → tail = tail' := by
  intro bs
  induction bs with
  | nil => intro t tail tail' h h'; exact h.symm.trans h'
  | cons b bs ih => intro t tail tail' h h'; exact ih h.2.2 h'.2.2

/-- A block lies between the start and the tail, with room for its descriptor. -/
theorem chain_mem : ∀ {bs : List Block} {t tail : Nat} {b : Block}, Chain mask len t bs tail →
    b ∈ bs → t + descriptorSize ≤ b.offset ∧ b.offset + len b.idx ≤ tail := by
  intro bs
  induction bs with
  | nil => intro t tail b _ hb; cases hb
  | cons c bs ih =>
    intro t tail b h hb
    obtain ⟨_, hle, hrest⟩ := h
    rcases mem_cons.1 hb with rfl | hb
    · exact ⟨hle, chain_le hrest⟩
    · have := ih hrest hb
      omega

/-- No block is in a chain twice. -/
theorem chain_nodup : ∀ {bs : List Block} {t tail : Nat}, Chain mask len t bs tail → bs.Nodup := by
  intro bs
  induction bs with
  | nil => exact fun _ => nodup_nil
  | cons b bs ih =>
    intro t tail h
    refine nodup_cons.2 ⟨fun hmem => ?_, ih h.2.2⟩
    have hlow := (chain_mem h.2.2 hmem).1
    unfold descriptorSize at hlow
    omega

/-- A bound for the start and for the end of every block is one for the tail. -/
theorem chain_tail_le {bound : Nat} : ∀ {bs : List Block} {t tail : Nat},
    Chain mask len t bs tail → t ≤ bound → (∀ b ∈ bs, b.offset + len b.idx ≤ bound) →
      tail ≤ bound := by
  intro bs
  induction bs with
  | nil => intro t tail h ht _; exact h ▸ ht
  | cons b bs ih =>
    intro t tail h _ hbs
    exact ih h.2.2 (hbs b (by simp)) fun c hc => hbs c (mem_cons_of_mem b hc)

/-- Where a block lies, `nextBlockOffset` put it. -/
theorem chain_offset : ∀ {bs : List Block} {t tail : Nat} {b : Block}, Chain mask len t bs tail →
    b ∈ bs → ∃ t', b.offset = nextBlockOffset mask t' := by
  intro bs
  induction bs with
  | nil => intro t tail b _ hb; cases hb
  | cons c bs ih =>
    intro t tail b h hb
    rcases mem_cons.1 hb with rfl | hb
    · exact ⟨t, h.1⟩
    · exact ih h.2.2 hb

/-- Two blocks are the same or lie apart, descriptors included. -/
theorem chain_apart : ∀ {bs : List Block} {t tail : Nat} {b c : Block},
    Chain mask len t bs tail → b ∈ bs → c ∈ bs →
      b = c ∨ b.offset + len b.idx + descriptorSize ≤ c.offset ∨
        c.offset + len c.idx + descriptorSize ≤ b.offset := by
  intro bs
  induction bs with
  | nil => intro t tail b c _ hb; cases hb
  | cons d bs ih =>
    intro t tail b c h hb hc
    rcases mem_cons.1 hb with rfl | hb'
    · rcases mem_cons.1 hc with rfl | hc'
      · exact .inl rfl
      · exact .inr (.inl (chain_mem h.2.2 hc').1)
    · rcases mem_cons.1 hc with rfl | hc'
      · exact .inr (.inr (chain_mem h.2.2 hb').1)
      · exact ih h.2.2 hb' hc'

/-- Blocks are determined by their offset. -/
theorem chain_inj {t tail : Nat} (h : Chain mask len t bs tail) (hb : b ∈ bs) (hc : c ∈ bs)
    (hoff : b.offset = c.offset) : b = c := by
  rcases chain_apart h hb hc with heq | hlt | hlt
  · exact heq
  · unfold descriptorSize at hlt
    omega
  · unfold descriptorSize at hlt
    omega

end Chain

/-- The block at the offset of `b` replaced by `b`. -/
def replaceBlock (b : Block) (bs : List Block) : List Block :=
  bs.map fun c => if c.offset = b.offset then b else c

theorem mem_replaceBlock (h : c ∈ replaceBlock b bs) : c = b ∨ c ∈ bs ∧ c.offset ≠ b.offset := by
  obtain ⟨d, hd, hc⟩ := mem_map.1 h
  by_cases hoff : d.offset = b.offset
  · rw [if_pos hoff] at hc
    exact .inl hc.symm
  · rw [if_neg hoff] at hc
    exact .inr ⟨hc ▸ hd, hc ▸ hoff⟩

theorem mem_replaceBlock_self {b' : Block} (hb : b ∈ bs) (hoff : b.offset = b'.offset) :
    b' ∈ replaceBlock b' bs :=
  mem_map.2 ⟨b, hb, if_pos hoff⟩

theorem mem_replaceBlock_of_ne (hc : c ∈ bs) (hoff : c.offset ≠ b.offset) : c ∈ replaceBlock b bs :=
  mem_map.2 ⟨c, hc, if_neg hoff⟩

@[simp] theorem length_replaceBlock (b : Block) (bs : List Block) :
    (replaceBlock b bs).length = bs.length := length_map _

/-- A replacement in the same bucket keeps the chain. -/
theorem chain_replaceBlock {mask : Nat} {len : Nat → Nat} :
    ∀ {bs : List Block} {t tail : Nat}, Chain mask len t bs tail →
      (∀ c ∈ bs, c.offset = b.offset → c.idx = b.idx) →
      Chain mask len t (replaceBlock b bs) tail := by
  intro bs
  induction bs with
  | nil => intro t tail h _; exact h
  | cons c bs ih =>
    intro t tail h hidx
    obtain ⟨hoff, hle, hrest⟩ := h
    have hrest' := ih hrest fun d hd => hidx d (mem_cons_of_mem c hd)
    by_cases hc : c.offset = b.offset
    · have hcons : replaceBlock b (c :: bs) = b :: replaceBlock b bs := by
        simp [replaceBlock, hc]
      have hi := hidx c (by simp) hc
      rw [hcons]
      rw [hc, hi] at hrest'
      exact ⟨hc ▸ hoff, hc ▸ hle, hrest'⟩
    · have hcons : replaceBlock b (c :: bs) = c :: replaceBlock b bs := by
        simp [replaceBlock, hc]
      rw [hcons]
      exact ⟨hoff, hle, hrest'⟩

/-- A replacement in the same bucket keeps the number of blocks per bucket. -/
theorem countP_replaceBlock {i : Nat} :
    ∀ {bs : List Block}, (∀ c ∈ bs, c.offset = b.offset → c.idx = b.idx) →
      (replaceBlock b bs).countP (fun c => c.idx = i) = bs.countP (fun c => c.idx = i) := by
  intro bs hidx
  unfold replaceBlock
  rw [countP_map]
  apply countP_congr
  intro c hc
  by_cases hoff : c.offset = b.offset
  · simp [hoff, hidx c hc hoff]
  · simp [hoff]

/-! ## The invariant -/

/-- What the `Allocated` word of a block holds. -/
def blockCode (numBuckets : Nat) (b : Block) : Nat :=
  (if b.free then memoryDeallocated else memoryAllocated) + (numBuckets - b.idx)

/-- The descriptor in front of a block describes it. -/
structure Stored (p : GenPoolRecord) (m : Mem) (b : Block) : Prop where
  idx : b.idx < p.numBuckets
  size : b.size ≤ (p.bucket b.idx).blockSize
  checkBits : (readBD m (b.offset - descriptorSize)).checkBits = checkPattern
  code : (readBD m (b.offset - descriptorSize)).allocated = blockCode p.numBuckets b
  actualSize : (readBD m (b.offset - descriptorSize)).actualSize = b.size

/-- Two records with the same geometry: alignment, end, and block sizes. -/
structure SameShape (p p' : GenPoolRecord) : Prop where
  alignMask : p'.alignMask = p.alignMask
  poolMaxOffset : p'.poolMaxOffset = p.poolMaxOffset
  numBuckets : p'.numBuckets = p.numBuckets
  blockSize : ∀ i, (p'.bucket i).blockSize = (p.bucket i).blockSize

namespace SameShape

variable {p q r : GenPoolRecord}

theorem refl (p : GenPoolRecord) : SameShape p p := ⟨rfl, rfl, rfl, fun _ => rfl⟩

theorem symm (h : SameShape p q) : SameShape q p :=
  ⟨h.alignMask.symm, h.poolMaxOffset.symm, h.numBuckets.symm, fun i => (h.blockSize i).symm⟩

theorem trans (h : SameShape p q) (h' : SameShape q r) : SameShape p r :=
  ⟨h'.alignMask.trans h.alignMask, h'.poolMaxOffset.trans h.poolMaxOffset,
    h'.numBuckets.trans h.numBuckets, fun i => (h'.blockSize i).trans (h.blockSize i)⟩

theorem chain {t tail : Nat} (h : SameShape p q)
    (hchain : Chain p.alignMask (fun i => (p.bucket i).blockSize) t bs tail) :
    Chain q.alignMask (fun i => (q.bucket i).blockSize) t bs tail := by
  rw [h.alignMask, funext h.blockSize]
  exact hchain

end SameShape

theorem Stored.congr {p p' : GenPoolRecord} {m m' : Mem} (h : Stored p m b)
    (hshape : SameShape p p') (hread : readBD m' (b.offset - descriptorSize) =
      readBD m (b.offset - descriptorSize)) : Stored p' m' b := by
  obtain ⟨hidx, hsize, hcheck, hcode, hactual⟩ := h
  rw [← hread] at hcheck hcode hactual
  rw [← hshape.numBuckets] at hidx hcode
  rw [← hshape.blockSize] at hsize
  exact ⟨hidx, hsize, hcheck, hcode, hactual⟩

/-- The link stored in front of the block at `x`. -/
def linkOf (m : Mem) (x : Nat) : Nat := (readBD m (x - descriptorSize)).nextOffset

/-- The pool `s`, whose area begins at `start`, consists of `blocks`, and `free i`
is the free stack of bucket `i`. -/
structure PoolInv (start : Nat) (s : PoolState) (blocks : List Block)
    (free : Nat → List Nat) : Prop where
  few : s.pool.numBuckets ≤ poolMaxBuckets
  align : ∃ k, k < 64 ∧ s.pool.alignMask + 1 = 2 ^ k
  chain : Chain s.pool.alignMask (fun i => (s.pool.bucket i).blockSize) start blocks
    s.pool.tailPosition
  maxOffset : s.pool.poolMaxOffset < 2 ^ 64
  fits : ∀ b ∈ blocks, b.offset + (s.pool.bucket b.idx).blockSize ≤ s.pool.poolMaxOffset
  stored : ∀ b ∈ blocks, Stored s.pool s.mem b
  linked : ∀ i < s.pool.numBuckets, Linked (linkOf s.mem) (s.pool.bucket i).firstOffset (free i)
  freeNodup : ∀ i < s.pool.numBuckets, (free i).Nodup
  freeIff : ∀ i < s.pool.numBuckets, ∀ x,
    x ∈ free i ↔ ∃ b ∈ blocks, b.offset = x ∧ b.idx = i ∧ b.free = true
  total : s.pool.allocationCount = uint32 blocks.length
  created : ∀ i < s.pool.numBuckets,
    (s.pool.bucket i).allocationCount = uint32 (blocks.countP fun b => b.idx = i)
  released : ∀ i < s.pool.numBuckets, (s.pool.bucket i).recycleCount < 2 ^ 32 ∧
    (s.pool.bucket i).releaseCount = uint32 ((s.pool.bucket i).recycleCount + (free i).length)

namespace PoolInv

variable {start : Nat} {s : PoolState} {blocks : List Block} {free : Nat → List Nat}

section

variable (h : PoolInv start s blocks free)
include h

/-- A block starts behind its descriptor and below `2 ^ 64`. -/
theorem offset_bounds (hb : b ∈ blocks) :
    start + descriptorSize ≤ b.offset ∧ b.offset < 2 ^ 64 := by
  have hlow := (chain_mem h.chain hb).1
  have hfit := h.fits b hb
  have hmax := h.maxOffset
  exact ⟨hlow, by omega⟩

theorem descOffset_block (hb : b ∈ blocks) : descOffset b.offset = b.offset - descriptorSize := by
  have hb := h.offset_bounds hb
  exact descOffset_eq (by omega) hb.2

/-- The first free block of a bucket, if any, is a block. -/
theorem firstOffset_lt {i : Nat} (hi : i < s.pool.numBuckets) :
    (s.pool.bucket i).firstOffset < 2 ^ 64 := by
  by_cases hz : (s.pool.bucket i).firstOffset = 0
  · rw [hz]
    decide
  obtain ⟨rest, hl, _⟩ := (h.linked i hi).head_ne_zero hz
  obtain ⟨c, hc, hco, _⟩ := (h.freeIff i hi _).1 (by rw [hl]; exact mem_cons_self)
  rw [← hco]
  exact (h.offset_bounds hc).2

/-- The requested alignment. -/
theorem aligned (hb : b ∈ blocks) : s.pool.alignMask + 1 ∣ b.offset := by
  obtain ⟨k, hk, hmask⟩ := h.align
  obtain ⟨t, ht⟩ := chain_offset h.chain hb
  rw [ht]
  exact dvd_nextBlockOffset hmask hk

/-- Storage may change wherever there is no descriptor. -/
theorem of_mem {m : Mem}
    (hm : ∀ b ∈ blocks, ∀ i, b.offset - descriptorSize ≤ i → i < b.offset → m i = s.mem i) :
    PoolInv start { s with mem := m } blocks free := by
  have hread : ∀ b ∈ blocks,
      readBD m (b.offset - descriptorSize) = readBD s.mem (b.offset - descriptorSize) := by
    intro b hb
    have hlow := (h.offset_bounds hb).1
    apply readBD_congr
    intro i hi hi'
    exact hm b hb i hi (by omega)
  refine { h with stored := ?_, linked := ?_ }
  · exact fun b hb => (h.stored b hb).congr (.refl _) (hread b hb)
  · intro i hi
    refine (h.linked i hi).congr fun x hx => ?_
    obtain ⟨b, hb, rfl, _⟩ := (h.freeIff i hi x).1 hx
    unfold linkOf
    rw [hread b hb]

/-- A write inside a block leaves the pool as it is. -/
theorem write {b : Block} (hb : b ∈ blocks) {x : Nat} (hlow : b.offset ≤ x)
    (hhigh : x < b.offset + (s.pool.bucket b.idx).blockSize) (v : BitVec 8) :
    PoolInv start { s with mem := Function.update s.mem x v } blocks free := by
  apply h.of_mem
  intro c hc i hi hi'
  rw [Function.update_of_ne]
  have hapart := chain_apart h.chain hb hc
  rcases hapart with rfl | hlt | hlt <;> omega

end

end PoolInv

end CfsEds.Es
