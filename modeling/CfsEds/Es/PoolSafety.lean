import CfsEds.Es.PoolOps

/-!
# Safety of the pool over whole runs

A run starts with a successful `CFE_ES_GenPoolInitialize` and then makes Get and
Put calls in any order, with Put only of offsets that some Get returned, while
the owners of blocks write into them. `PoolEnv` records next to the pool what the
callers know: which blocks they hold now (`handed`, offset and requested size)
and which offsets they have ever seen (`issued`).

`RunInv` connects that bookkeeping with the abstract picture of the pool: the
blocks handed out are the allocated blocks. Every step keeps it, so at every
point of a run the blocks handed out are apart, inside and aligned.

The step condition is `GetFits`. Without it a block may lie outside of the pool: `size_t`
sums wrap, and a bucket size close to `2 ^ 64` passes the check against the pool end
(`genPool_run_unsafe_when_end_wraps`).
-/

namespace CfsEds.Es

open CfsEds.Lib.Loop CfsEds.Lib.Memory CfsEds.Lib.LinkedList List

variable {p : GenPoolRecord} {fuel : Nat} {params : PoolParams}

/-! ## Initialization -/

/-- A pass only swaps entries; the three exclusive ors exchange two numbers. -/
theorem perm_bubblePass : ∀ (l : List Nat) (x : Nat), (bubblePass x l).1.Perm (x :: l) := by
  intro l
  induction l with
  | nil => intro x; exact List.Perm.refl [x]
  | cons y l ih =>
    intro x
    unfold bubblePass
    split
    · have hy : y ^^^ (x ^^^ y) = x := by
        rw [Nat.xor_comm x y, ← Nat.xor_assoc, Nat.xor_self, Nat.zero_xor]
      have hx : x ^^^ y ^^^ x = y := by
        rw [Nat.xor_comm x y, Nat.xor_assoc, Nat.xor_self, Nat.xor_zero]
      simp only [hy, hx]
      exact ((ih x).cons y).trans (List.Perm.swap x y l)
    · exact (ih y).cons x

theorem perm_bubbleOnce (l : List Nat) : (bubbleOnce l).1.Perm l := by
  cases l with
  | nil => exact List.Perm.refl []
  | cons x l => exact perm_bubblePass l x

/-- Sorting keeps the block sizes. -/
theorem perm_bubbleSort {l sizes : List Nat} (h : bubbleSort fuel l = some sizes) :
    sizes.Perm l := by
  obtain ⟨r, hr, hsizes⟩ := Option.map_eq_some_iff.1 h
  have hrun : Yields (fun r : List Nat × Nat => decide (r.2 > 0)) (fun r => bubbleOnce r.1)
      (bubbleOnce l) r := ⟨fuel, hr⟩
  have hperm := (hrun.invariant (fun r => r.1.Perm l)
    (fun r hr _ => (perm_bubbleOnce r.1).trans hr) (perm_bubbleOnce l)).1
  rw [← hsizes]
  exact hperm

/-- A successful initialization. -/
theorem genPoolInitialize_ok (h : genPoolInitialize fuel params = some (.ok p)) :
    params.alignMask &&& params.alignSize = 0 ∧
      ∃ sizes, sizes.Perm params.blockSizeList ∧ p = freshPool params sizes := by
  unfold genPoolInitialize at h
  split at h
  · cases h
  rename_i halign
  refine ⟨by simpa using halign, ?_⟩
  split at h
  · cases h
  rename_i sizes hsort
  simp only at h
  split at h
  · cases h
  · have hp := Except.ok.inj (Option.some.inj h)
    exact ⟨sizes, perm_bubbleSort hsort, hp.symm⟩

/-- The alignment check accepts powers of two (and zero, taken as one). -/
theorem PoolParams.exists_alignMask_eq (h : params.alignMask &&& params.alignSize = 0) :
    ∃ k, k < 64 ∧ params.alignMask + 1 = 2 ^ k := by
  have hsize := params.halign
  unfold PoolParams.alignMask at h ⊢
  by_cases hone : params.alignSize ≤ 1
  · rw [if_pos hone]
    exact ⟨0, by decide, rfl⟩
  rw [if_neg hone] at h ⊢
  rw [Nat.land_comm] at h
  obtain ⟨k, hk⟩ := (Nat.and_sub_one_eq_zero_iff_isPowerOfTwo (by omega)).1 h
  refine ⟨k, ?_, by omega⟩
  rw [hk] at hsize
  exact (Nat.pow_lt_pow_iff_right (by decide)).1 hsize

theorem bucket_freshPool (params : PoolParams) (sizes : List Nat) (i : Nat) :
    (freshPool params sizes).bucket i = freshBucket (sizes.getD i 0) := by
  simp only [GenPoolRecord.bucket, freshPool, getD_eq_getElem?_getD, getElem?_map]
  cases sizes[i]? <;> rfl

/-- A fresh pool has no blocks. -/
theorem poolInv_init (h : genPoolInitialize fuel params = some (.ok p)) (m : Mem) :
    PoolInv params.startOffset ⟨p, m⟩ [] (fun _ => []) := by
  obtain ⟨halign, sizes, hperm, rfl⟩ := genPoolInitialize_ok h
  have hfresh := bucket_freshPool params sizes
  refine ⟨?_, PoolParams.exists_alignMask_eq halign, rfl, Nat.mod_lt _ (by decide), ?_, ?_, ?_, ?_,
    ?_, rfl, ?_, ?_⟩
  · show (sizes.map freshBucket).length ≤ poolMaxBuckets
    rw [length_map, hperm.length_eq]
    exact params.hcount
  · intro b hb
    cases hb
  · intro b hb
    cases hb
  · intro i _
    show ((freshPool params sizes).bucket i).firstOffset = 0
    rw [hfresh i]
    rfl
  · intro i _
    exact nodup_nil
  · intro i _ x
    simp
  · intro i _
    show ((freshPool params sizes).bucket i).allocationCount = 0
    rw [hfresh i]
    rfl
  · intro i _
    show ((freshPool params sizes).bucket i).recycleCount < 2 ^ 32 ∧
      ((freshPool params sizes).bucket i).releaseCount =
        uint32 (((freshPool params sizes).bucket i).recycleCount + 0)
    rw [hfresh i]
    exact ⟨show 0 < 2 ^ 32 by decide, rfl⟩

/-! ## Runs -/

/-- A pool and what its callers know of it. -/
structure PoolEnv where
  state : PoolState
  /-- blocks held now: offset and requested size -/
  handed : List (Nat × Nat)
  /-- every offset ever returned by a Get -/
  issued : List Nat

/-- A Get call; a failed one changes nothing. -/
def PoolEnv.get (e : PoolEnv) (reqSize : Nat) : PoolEnv :=
  match genPoolGetBlock e.state reqSize with
  | .ok (off, s) => ⟨s, (off, reqSize) :: e.handed, off :: e.issued⟩
  | .error _ => e

/-- A Put call; an accepted block is no longer held. -/
def PoolEnv.put (e : PoolEnv) (off : Nat) : PoolEnv :=
  match genPoolPutBlock e.state off with
  | (.ok _, s) => ⟨s, e.handed.filter fun x => x.1 ≠ off, e.issued⟩
  | (.error _, s) => { e with state := s }

/-- A byte written by the owner of a block. -/
def PoolEnv.write (e : PoolEnv) (addr : Nat) (v : BitVec 8) : PoolEnv :=
  { e with state := { e.state with mem := Function.update e.state.mem addr v } }

/-- The states of runs over storage that held `m` at first; every Get is made in
a state where `Ok` holds for its size. -/
inductive PoolRun (params : PoolParams) (m : Mem) (Ok : PoolState → Nat → Prop) : PoolEnv → Prop where
  | init {fuel : Nat} {p : GenPoolRecord} (h : genPoolInitialize fuel params = some (.ok p)) :
      PoolRun params m Ok ⟨⟨p, m⟩, [], []⟩
  | get {e : PoolEnv} (hrun : PoolRun params m Ok e) (reqSize : Nat) (hwidth : reqSize < 2 ^ 64)
      (hok : Ok e.state reqSize) : PoolRun params m Ok (e.get reqSize)
  | put {e : PoolEnv} (hrun : PoolRun params m Ok e) (off : Nat) (hissued : off ∈ e.issued) :
      PoolRun params m Ok (e.put off)
  | write {e : PoolEnv} (hrun : PoolRun params m Ok e) (x : Nat × Nat) (hx : x ∈ e.handed)
      (i : Nat) (hi : i < x.2) (v : BitVec 8) : PoolRun params m Ok (e.write (x.1 + i) v)

/-- The length of the block that a request of this size is given. -/
def PoolEnv.blockLength (e : PoolEnv) (reqSize : Nat) : Nat :=
  (e.state.pool.bucket (bucketFor e.state.pool reqSize)).blockSize

/-- What callers rely on. -/
structure PoolSafe (params : PoolParams) (e : PoolEnv) : Prop where
  /-- blocks and their descriptors are inside the pool -/
  inside : ∀ x ∈ e.handed, params.startOffset + descriptorSize ≤ x.1 ∧
    x.1 + e.blockLength x.2 ≤ params.startOffset + params.poolSize
  aligned : ∀ x ∈ e.handed, max 1 params.alignSize ∣ x.1
  longEnough : ∀ x ∈ e.handed, x.2 ≤ e.blockLength x.2
  /-- no two blocks overlap, descriptors included -/
  apart : e.handed.Pairwise fun x y =>
    x.1 + e.blockLength x.2 + descriptorSize ≤ y.1 ∨
      y.1 + e.blockLength y.2 + descriptorSize ≤ x.1
  /-- a block that is not held is not accepted back -/
  rejected : ∀ off ∈ e.issued, (∀ x ∈ e.handed, x.1 ≠ off) →
    ∃ err, (genPoolPutBlock e.state off).1 = .error err ∧
      SameButErrors e.state.pool (genPoolPutBlock e.state off).2.pool ∧
      (genPoolPutBlock e.state off).2.mem = e.state.mem

/-! ## The run invariant -/

/-- The geometry fixed by the parameters. -/
structure ParamShape (params : PoolParams) (p : GenPoolRecord) : Prop where
  alignMask : p.alignMask = params.alignMask
  poolMaxOffset : p.poolMaxOffset = sizeT (params.poolSize + params.startOffset)

theorem ParamShape.of_sameShape {p' : GenPoolRecord} (h : ParamShape params p) (hs : SameShape p p')
    : ParamShape params p' :=
  ⟨hs.alignMask.trans h.alignMask, hs.poolMaxOffset.trans h.poolMaxOffset⟩

/-- The callers' bookkeeping matches the blocks of the pool. -/
structure RunInv (params : PoolParams) (e : PoolEnv) (blocks : List Block)
    (free : Nat → List Nat) : Prop where
  pool : PoolInv params.startOffset e.state blocks free
  shape : ParamShape params e.state.pool
  bucket : ∀ b ∈ blocks, b.free = false → b.idx = bucketFor e.state.pool b.size
  handedIff : ∀ x, x ∈ e.handed ↔ ∃ b ∈ blocks, b.free = false ∧ x = (b.offset, b.size)
  handedNodup : (e.handed.map Prod.fst).Nodup
  issued : ∀ off ∈ e.issued, ∃ b ∈ blocks, b.offset = off

theorem runInv_init (h : genPoolInitialize fuel params = some (.ok p)) (m : Mem) :
    RunInv params ⟨⟨p, m⟩, [], []⟩ [] (fun _ => []) := by
  refine ⟨poolInv_init h m, ?_, ?_, ?_, nodup_nil, ?_⟩
  · obtain ⟨_, sizes, _, rfl⟩ := genPoolInitialize_ok h
    exact ⟨rfl, rfl⟩
  · intro b hb
    cases hb
  · intro x
    simp
  · intro off hoff
    cases hoff

section Steps

variable {params : PoolParams} {e : PoolEnv} {blocks : List Block} {free : Nat → List Nat}

/-- A Get that fits keeps the invariant. -/
theorem RunInv.get (h : RunInv params e blocks free) {reqSize : Nat} (hwidth : reqSize < 2 ^ 64)
    (hfit : GetFits e.state reqSize) : ∃ blocks' free', RunInv params (e.get reqSize) blocks' free' := by
  unfold PoolEnv.get
  split
  · next off s' hget =>
    obtain ⟨_, hshape, blocks', free', hinv, heffect⟩ := h.pool.get hwidth hfit hget
    have hsame := hshape.bucketFor_eq
    refine ⟨blocks', free', hinv, h.shape.of_sameShape hshape, ?_, ?_, ?_, ?_⟩
    · intro b hb hbf
      rw [hsame]
      rcases heffect with ⟨c, hc, hco, hci, hcf, rfl⟩ | ⟨_, rfl⟩
      · rcases mem_replaceBlock hb with rfl | ⟨hb, _⟩
        · rfl
        · exact h.bucket b hb hbf
      · rcases mem_append.1 hb with hb | hb
        · exact h.bucket b hb hbf
        · rw [mem_singleton.1 hb]
    · intro x
      rw [mem_cons, h.handedIff]
      rcases heffect with ⟨c, hc, hco, hci, hcf, rfl⟩ | ⟨_, rfl⟩
      · refine ⟨fun hx => ?_, fun ⟨b, hb, hbf, hbx⟩ => ?_⟩
        · rcases hx with rfl | ⟨b, hb, hbf, hbx⟩
          · exact ⟨_, mem_replaceBlock_self hc hco, rfl, rfl⟩
          refine ⟨b, mem_replaceBlock_of_ne hb ?_, hbf, hbx⟩
          intro hbo
          -- the recycled block was free, so it is not `b`
          rw [chain_inj h.pool.chain hb hc (hbo.trans hco.symm), hcf] at hbf
          cases hbf
        · rcases mem_replaceBlock hb with rfl | ⟨hb, _⟩
          · exact .inl hbx
          · exact .inr ⟨b, hb, hbf, hbx⟩
      · refine ⟨fun hx => ?_, fun ⟨b, hb, hbf, hbx⟩ => ?_⟩
        · rcases hx with rfl | ⟨b, hb, hbf, hbx⟩
          · exact ⟨_, mem_append_right _ (mem_singleton.2 rfl), rfl, rfl⟩
          · exact ⟨b, mem_append_left _ hb, hbf, hbx⟩
        · rcases mem_append.1 hb with hb | hb
          · exact .inr ⟨b, hb, hbf, hbx⟩
          · rw [mem_singleton.1 hb] at hbx
            exact .inl hbx
    · rw [map_cons, nodup_cons]
      refine ⟨fun hmem => ?_, h.handedNodup⟩
      obtain ⟨x, hx, hxo⟩ := mem_map.1 hmem
      obtain ⟨b, hb, hbf, rfl⟩ := (h.handedIff x).1 hx
      rcases heffect with ⟨c, hc, hco, hci, hcf, rfl⟩ | ⟨hlow, rfl⟩
      · rw [chain_inj h.pool.chain hb hc (hxo.trans hco.symm), hcf] at hbf
        cases hbf
      · have hend := (chain_mem h.pool.chain hb).2
        unfold descriptorSize at hlow
        omega
    · intro o ho
      have hold : ∀ o' ∈ e.issued, ∃ b ∈ blocks', b.offset = o' := by
        intro o' ho'
        obtain ⟨b, hb, hbo⟩ := h.issued o' ho'
        rcases heffect with ⟨c, hc, hco, hci, hcf, rfl⟩ | ⟨_, rfl⟩
        · by_cases hbc : b.offset = off
          · exact ⟨_, mem_replaceBlock_self hc hco, hbc.symm.trans hbo⟩
          · exact ⟨b, mem_replaceBlock_of_ne hb hbc, hbo⟩
        · exact ⟨b, mem_append_left _ hb, hbo⟩
      rcases mem_cons.1 ho with rfl | ho
      · rcases heffect with ⟨c, hc, hco, hci, hcf, rfl⟩ | ⟨_, rfl⟩
        · exact ⟨_, mem_replaceBlock_self hc hco, rfl⟩
        · exact ⟨_, mem_append_right _ (mem_singleton.2 rfl), rfl⟩
      · exact hold o ho
  · exact ⟨blocks, free, h⟩

/-- A Put of an offset seen before keeps the invariant. -/
theorem RunInv.put (h : RunInv params e blocks free) {off : Nat} (hissued : off ∈ e.issued) :
    ∃ blocks' free', RunInv params (e.put off) blocks' free' := by
  obtain ⟨b, hb, rfl⟩ := h.issued off hissued
  have hshape := genPoolPutBlock_shape e.state b.offset
  by_cases hok : b.free = false ∧ b.size ≠ 0
  · obtain ⟨hstatus, hinv⟩ := h.pool.put hb hok.1 hok.2
    have hput : e.put b.offset = ⟨(genPoolPutBlock e.state b.offset).2,
        e.handed.filter fun x => x.1 ≠ b.offset, e.issued⟩ := by
      unfold PoolEnv.put
      split
      · next hs => rw [hs]
      · next hs =>
        rw [hs] at hstatus
        cases hstatus
    rw [hput]
    refine ⟨_, _, hinv, h.shape.of_sameShape hshape, ?_, ?_, ?_, ?_⟩
    · intro c hc hcf
      rw [hshape.bucketFor_eq]
      rcases mem_replaceBlock hc with rfl | ⟨hc, _⟩
      · cases hcf
      · exact h.bucket c hc hcf
    · intro x
      simp only [mem_filter, h.handedIff, ne_eq, decide_eq_true_eq]
      refine ⟨fun ⟨⟨c, hc, hcf, hcx⟩, hne⟩ => ?_, fun ⟨c, hc, hcf, hcx⟩ => ?_⟩
      · exact ⟨c, mem_replaceBlock_of_ne hc (by rw [hcx] at hne; exact hne), hcf, hcx⟩
      · rcases mem_replaceBlock hc with rfl | ⟨hc, hne⟩
        · cases hcf
        · exact ⟨⟨c, hc, hcf, hcx⟩, by rw [hcx]; exact hne⟩
    · exact h.handedNodup.sublist (List.Sublist.map _ filter_sublist)
    · intro o ho
      obtain ⟨c, hc, hco⟩ := h.issued o ho
      by_cases hcb : c.offset = b.offset
      · exact ⟨{ b with free := true }, mem_replaceBlock_self hb rfl, hcb.symm.trans hco⟩
      · exact ⟨c, mem_replaceBlock_of_ne hc hcb, hco⟩
  · obtain ⟨err, herr⟩ := h.pool.allocatedBlock_error hb (by
      cases hf : b.free with
      | true => exact .inl rfl
      | false => exact .inr (by
          by_contra hz
          exact hok ⟨hf, hz⟩))
    obtain ⟨hstatus, hsame, hmem⟩ := genPoolPutBlock_error herr
    have hput : e.put b.offset = { e with state := (genPoolPutBlock e.state b.offset).2 } := by
      unfold PoolEnv.put
      rw [hstatus]
    rw [hput]
    refine ⟨blocks, free, h.pool.of_sameButErrors hsame hmem, h.shape.of_sameShape hshape, ?_,
      h.handedIff, h.handedNodup, h.issued⟩
    intro c hc hcf
    rw [hshape.bucketFor_eq]
    exact h.bucket c hc hcf

/-- A write inside a block that is held keeps the invariant. -/
theorem RunInv.write (h : RunInv params e blocks free) {x : Nat × Nat} (hx : x ∈ e.handed) {i : Nat}
    (hi : i < x.2) (v : BitVec 8) : RunInv params (e.write (x.1 + i) v) blocks free := by
  obtain ⟨b, hb, hbf, rfl⟩ := (h.handedIff x).1 hx
  have hsize := (h.pool.stored b hb).size
  exact { h with
    pool := h.pool.write hb (Nat.le_add_right _ _) (by omega) v }

/-- Every run has a matching picture. -/
theorem PoolRun.exists_runInv {m : Mem} (h : PoolRun params m GetFits e) :
    ∃ blocks free, RunInv params e blocks free := by
  induction h with
  | init hinit => exact ⟨_, _, runInv_init hinit m⟩
  | get _ reqSize hwidth hok ih =>
    obtain ⟨blocks, free, hinv⟩ := ih
    exact hinv.get hwidth hok
  | put _ off hissued ih =>
    obtain ⟨blocks, free, hinv⟩ := ih
    exact hinv.put hissued
  | write _ x hx i hi v ih =>
    obtain ⟨blocks, free, hinv⟩ := ih
    exact ⟨blocks, free, hinv.write hx hi v⟩

/-- The picture gives the callers their guarantees. -/
theorem RunInv.safe (h : RunInv params e blocks free) : PoolSafe params e := by
  have hlen : ∀ b ∈ blocks, b.free = false →
      e.blockLength b.size = (e.state.pool.bucket b.idx).blockSize := by
    intro b hb hbf
    rw [PoolEnv.blockLength, h.bucket b hb hbf]
  refine ⟨?_, ?_, ?_, ?_, ?_⟩
  · intro x hx
    obtain ⟨b, hb, hbf, rfl⟩ := (h.handedIff x).1 hx
    have hfits := h.pool.fits b hb
    have hmax : e.state.pool.poolMaxOffset ≤ params.poolSize + params.startOffset := by
      rw [h.shape.poolMaxOffset]
      exact Nat.mod_le _ _
    show _ ≤ b.offset ∧ b.offset + e.blockLength b.size ≤ _
    rw [hlen b hb hbf]
    exact ⟨(h.pool.offset_bounds hb).1, by omega⟩
  · intro x hx
    obtain ⟨b, hb, hbf, rfl⟩ := (h.handedIff x).1 hx
    have haligned := h.pool.aligned hb
    rw [h.shape.alignMask] at haligned
    have hone : params.alignMask + 1 = max 1 params.alignSize := by
      unfold PoolParams.alignMask
      split <;> omega
    rwa [hone] at haligned
  · intro x hx
    obtain ⟨b, hb, hbf, rfl⟩ := (h.handedIff x).1 hx
    show b.size ≤ e.blockLength b.size
    rw [hlen b hb hbf]
    exact (h.pool.stored b hb).size
  · have hne : e.handed.Pairwise fun x y => x.1 ≠ y.1 := pairwise_map.1 h.handedNodup
    refine hne.imp_of_mem fun {x y} hx hy hxy => ?_
    obtain ⟨b, hb, hbf, rfl⟩ := (h.handedIff x).1 hx
    obtain ⟨c, hc, hcf, rfl⟩ := (h.handedIff y).1 hy
    show b.offset + e.blockLength b.size + descriptorSize ≤ c.offset ∨
      c.offset + e.blockLength c.size + descriptorSize ≤ b.offset
    rw [hlen b hb hbf, hlen c hc hcf]
    rcases chain_apart h.pool.chain hb hc with rfl | hapart
    · exact absurd rfl hxy
    · exact hapart
  · intro off hoff hnot
    obtain ⟨b, hb, rfl⟩ := h.issued off hoff
    have hfree : b.free = true := by
      cases hf : b.free with
      | true => rfl
      | false => exact absurd rfl (hnot (b.offset, b.size) ((h.handedIff _).2 ⟨b, hb, hf, rfl⟩))
    obtain ⟨err, herr⟩ := h.pool.allocatedBlock_error hb (.inl hfree)
    obtain ⟨hstatus, hsame, hmem⟩ := genPoolPutBlock_error herr
    exact ⟨err, by rw [hstatus], hsame, hmem⟩

/-- At every point of every run whose Gets fit, the blocks handed out are inside
the pool, aligned, long enough and apart, and a block that is not handed out is
not accepted back. -/
theorem genPool_run_safe (params : PoolParams) (m : Mem) (e : PoolEnv)
    (h : PoolRun params m GetFits e) : PoolSafe params e := by
  obtain ⟨blocks, free, hinv⟩ := h.exists_runInv
  exact hinv.safe

/-- A pool of 1000 bytes with blocks of 8 and 64 bytes. -/
def smallPool : PoolParams where
  startOffset := 0
  poolSize := 1000
  alignSize := 4
  blockSizeList := [64, 8]
  hstart := by decide
  hsize := by decide
  halign := four_lt
  hblocks := by decide
  hcount := by decide

/-- The small pool after three Gets, and after the first block was given back twice. -/
def busyPool : PoolEnv :=
  (((((⟨⟨freshPool smallPool [8, 64], fun _ => 0⟩, [], []⟩ : PoolEnv).get 10).get 6).get 30).put
    24).put 24

theorem busyPool_run : PoolRun smallPool (fun _ => 0) GetFits busyPool := by
  have hinit : PoolRun smallPool (fun _ => 0) GetFits
      ⟨⟨freshPool smallPool [8, 64], fun _ => 0⟩, [], []⟩ := @PoolRun.init _ _ _ 3 _ rfl
  have hfirst := hinit.get 10 (by decide) fun _ => .inl (by decide +kernel)
  have hsecond := hfirst.get 6 (by decide) fun _ => .inl (by decide +kernel)
  have hthird := hsecond.get 30 (by decide) fun _ => .inl (by decide +kernel)
  have hput := hthird.put 24 (by decide +kernel)
  exact hput.put 24 (by decide +kernel)

/-- Two blocks are held, and the third is not accepted back once more. -/
theorem genPool_run_safe_busy : busyPool.handed = [(144, 30), (112, 6)] ∧
    busyPool.issued = [144, 112, 24] ∧ PoolSafe smallPool busyPool ∧
    ∃ err, (genPoolPutBlock busyPool.state 24).1 = .error err := by
  have hhanded : busyPool.handed = [(144, 30), (112, 6)] := by decide +kernel
  have hissued : busyPool.issued = [144, 112, 24] := by decide +kernel
  have hsafe := genPool_run_safe smallPool (fun _ => 0) busyPool busyPool_run
  obtain ⟨err, herr, -⟩ := hsafe.rejected 24 (by rw [hissued]; decide) (by rw [hhanded]; decide)
  exact ⟨hhanded, hissued, hsafe, err, herr⟩

/-- The same pool size with one bucket of `2 ^ 64 - 1` bytes. -/
def hugeBucketPool : PoolParams where
  startOffset := 0
  poolSize := 1000
  alignSize := 1
  blockSizeList := [2 ^ 64 - 1]
  hstart := by decide
  hsize := by decide
  halign := by decide
  hblocks := by decide
  hcount := by decide

/-- The end of its first block wraps to 23, so 2000 bytes are handed out of a
pool of 1000. -/
theorem genPool_run_unsafe_when_end_wraps :
    ∃ e : PoolEnv, PoolRun hugeBucketPool (fun _ => 0) (fun _ _ => True) e ∧
      e.handed = [(24, 2000)] ∧ e.state.pool.tailPosition = 23 ∧ ¬ PoolSafe hugeBucketPool e := by
  refine ⟨_, PoolRun.get (@PoolRun.init _ _ _ 3 _ rfl) 2000 (by decide) trivial, ?_, ?_, ?_⟩
  · decide +kernel
  · decide +kernel
  · intro hsafe
    have hinside := (hsafe.inside (24, 2000) (by decide +kernel)).2
    have hlong := hsafe.longEnough (24, 2000) (by decide +kernel)
    exact absurd (Nat.le_trans (Nat.add_le_add_left hlong 24) hinside) (by decide)

end Steps

end CfsEds.Es
