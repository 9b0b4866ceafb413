import CfsEds.Sb.DestList
import CfsEds.Sb.BusRun

/-!
# The integrity of the destination lists

`DestInv` says of the lists of all routes: they are well-formed doubly linked lists, a block
in use is in exactly one of them, a list has one node for a pipe, only nodes of pipes that
are in use, and no more than the configured number. `SlotInv` is about the pipe table: an
entry that is reserved belongs to one call, so no one else frees it.

The two changes of a list are `DestInv.add` and `DestInv.remove`. In terms of the lists of
destinations they are `addDest` and `removeDest` of `CfsEds.Sb.Bus`.
-/

namespace CfsEds.Sb

open CfsEds.Es CfsEds.Lib.DoublyLinked CfsEds.Lib.Memory List Function

variable {cfg : DestConfig} {s s' : Routing} {a b r t u i n pipeId : Nat} {l : List Nat}

variable {msgId : Nat} {call : PipeCall} {f : PipeSlot → PipeSlot}

namespace Routing

/-- The nodes of a route. -/
def destList (s : Routing) (r : Nat) : List Nat := follow s.next s.blocks.length (s.listHead r)

/-- The destinations of a route. -/
def dests (s : Routing) (r : Nat) : List Dest := (s.destList r).map fun a => (s.node a).dest

end Routing

/-- The lists, and the memory they take. -/
structure DestInv (cfg : DestConfig) (s : Routing) : Prop where
  linked : ∀ r, Linked s.next s.prev (s.listHead r) (s.destList r)
  mem : ∀ a, a ∈ s.blocks ↔ ∃ r, a ∈ s.destList r
  disjoint : ∀ r r' a, a ∈ s.destList r → a ∈ s.destList r' → r = r'
  nodup : s.blocks.Nodup
  bound : ∀ a ∈ s.blocks, a < cfg.bufMemoryBytes
  pipes : ∀ r, ((s.dests r).map Dest.pipeId).Nodup
  limit : ∀ r, (s.destList r).length ≤ cfg.maxDestPerPkt
  count : s.subscriptionsInUse = s.blocks.length

/-- The nodes are of pipes that are in use. -/
def NodesLive (cfg : DestConfig) (s : Routing) : Prop :=
  ∀ a ∈ s.blocks, (matchSlot cfg s (s.node a).dest.pipeId).isSome

/-! ## The lists and the blocks -/

theorem destList_eq (h : Linked s.next s.prev (s.listHead r) l) (hsub : ∀ a ∈ l, a ∈ s.blocks) :
    s.destList r = l :=
  h.follow (subperm_of_subset h.nodup hsub).length_le

/-- The invariant, from the new lists. -/
theorem DestInv.of_lists (lists : Nat → List Nat)
    (hlinked : ∀ r, Linked s.next s.prev (s.listHead r) (lists r))
    (hmem : ∀ a, a ∈ s.blocks ↔ ∃ r, a ∈ lists r)
    (hdisjoint : ∀ r r' a, a ∈ lists r → a ∈ lists r' → r = r') (hnodup : s.blocks.Nodup)
    (hbound : ∀ a ∈ s.blocks, a < cfg.bufMemoryBytes)
    (hpipes : ∀ r, ((lists r).map fun a => (s.node a).dest.pipeId).Nodup)
    (hlimit : ∀ r, (lists r).length ≤ cfg.maxDestPerPkt)
    (hcount : s.subscriptionsInUse = s.blocks.length) :
    DestInv cfg s ∧ ∀ r, s.destList r = lists r := by
  have hlists : ∀ r, s.destList r = lists r := fun r =>
    destList_eq (hlinked r) fun a ha => (hmem a).2 ⟨r, ha⟩
  refine ⟨⟨?_, ?_, ?_, hnodup, hbound, fun r => ?_, ?_, hcount⟩, hlists⟩
  · simpa only [hlists] using hlinked
  · simpa only [hlists] using hmem
  · simpa only [hlists] using hdisjoint
  · rw [Routing.dests, hlists, map_map]
    exact hpipes r
  · simpa only [hlists] using hlimit

theorem DestInv.pipeIds (h : DestInv cfg s) (r : Nat) :
    ((s.destList r).map fun a => (s.node a).dest.pipeId).Nodup := by
  have := h.pipes r
  rwa [Routing.dests, map_map] at this

/-- A route that is not there has no nodes. -/
theorem DestInv.lt (h : DestInv cfg s) (ha : a ∈ s.destList r) : r < s.routes.length := by
  by_contra hr
  have hhead : s.listHead r = none := by
    unfold Routing.listHead
    rw [getD_eq_default _ _ (by omega)]
    rfl
  have hlinked := (h.linked r).head
  rw [hhead] at hlinked
  rw [head?_eq_none_iff.1 hlinked.symm] at ha
  cases ha

/-- There are fewer blocks than the statistic can count. -/
theorem length_blocks_lt (hnodup : l.Nodup) (hbound : ∀ a ∈ l, a < cfg.bufMemoryBytes) :
    l.length < 2 ^ 32 := by
  have hsub : ∀ a ∈ l, a ∈ List.range cfg.bufMemoryBytes := fun a ha =>
    mem_range.2 (hbound a ha)
  have hle := (subperm_of_subset hnodup hsub).length_le
  rw [length_range] at hle
  have := cfg.hmemory
  omega

/-- The lists do not see changes elsewhere. -/
theorem DestInv.congr (h : DestInv cfg s) (hnode : s'.node = s.node) (hblocks : s'.blocks = s.blocks)
    (hhead : ∀ r, s'.listHead r = s.listHead r)
    (hcount : s'.subscriptionsInUse = s.subscriptionsInUse) :
    DestInv cfg s' := by
  have hnext : s'.next = s.next := congrArg (fun node a => (node a).next) hnode
  have hprev : s'.prev = s.prev := congrArg (fun node a => (node a).prev) hnode
  refine (DestInv.of_lists s.destList (fun r => ?_) ?_ h.disjoint ?_ ?_ ?_ h.limit ?_).1
  · rw [hnext, hprev, hhead]
    exact h.linked r
  · rw [hblocks]
    exact h.mem
  · rw [hblocks]
    exact h.nodup
  · rw [hblocks]
    exact h.bound
  · rw [hnode]
    exact h.pipeIds
  · rw [hcount, hblocks]
    exact h.count

theorem dests_congr (hnode : s'.node = s.node) (hblocks : s'.blocks = s.blocks)
    (hhead : s'.listHead r = s.listHead r) : s'.dests r = s.dests r := by
  have hnext : s'.next = s.next := congrArg (fun node a => (node a).next) hnode
  unfold Routing.dests Routing.destList
  rw [hnode, hnext, hblocks, hhead]

/-! ## The changes -/

/-- A node for a new pipe is added. -/
theorem DestInv.add {dest : Dest} (h : DestInv cfg s) (hr : r < s.routes.length)
    (ha : a ∉ s.blocks) (hbound : a < cfg.bufMemoryBytes)
    (hnew : ∀ d ∈ s.dests r, d.pipeId ≠ dest.pipeId)
    (hlimit : (s.destList r).length < cfg.maxDestPerPkt) :
    DestInv cfg (addNewDest s r a dest) ∧
      ∀ n, (addNewDest s r a dest).destList n = if n = r then a :: s.destList r else s.destList n := by
  have hnot : ∀ n x, x ∈ s.destList n → x ≠ a := by
    rintro n x hx rfl
    exact ha ((h.mem x).2 ⟨n, hx⟩)
  have hmem : ∀ n x, x ∈ (if n = r then a :: s.destList r else s.destList n) ↔
      (x = a ∧ n = r) ∨ x ∈ s.destList n := by
    intro n x
    split_ifs with hnr
    · subst hnr
      simp
    · simp [hnr]
  have hheadr : s.listHead r ≠ some a := by
    rw [(h.linked r).head]
    exact fun heq => hnot r a (mem_of_head? heq) rfl
  obtain ⟨hnexta, hpreva, hothers⟩ := @addNewDest_links s a r dest hheadr
  have hblocks : (addNewDest s r a dest).blocks = a :: s.blocks := addNewDest_relinked.blocks
  have hcons : ∀ x ∈ a :: s.blocks, x < cfg.bufMemoryBytes := forall_mem_cons.2 ⟨hbound, h.bound⟩
  have hnodup : (a :: s.blocks).Nodup := nodup_cons.2 ⟨ha, h.nodup⟩
  have hpipeId : ∀ n, (s.destList n).map (fun x => ((addNewDest s r a dest).node x).dest.pipeId) =
      (s.destList n).map fun x => (s.node x).dest.pipeId := fun n =>
    map_congr_left fun x hx => by rw [dest_addNewDest, if_neg (hnot n x hx)]
  refine DestInv.of_lists _ (fun n => ?_) (fun x => ?_) (fun n n' x hn hn' => ?_) ?_ ?_
    (fun n => ?_) (fun n => ?_) ?_
  · -- the new list, and the others, which have no node in common with it
    have hheadn : (addNewDest s r a dest).listHead n = if n = r then some a else s.listHead n :=
      listHead_addDestNode hr
    rw [hheadn]
    by_cases hn : n = r
    · subst hn
      rw [if_pos rfl, if_pos rfl]
      refine (h.linked n).push (fun hmem => hnot n a hmem rfl) hnexta hpreva ?_ ?_
      · exact fun x hx => (hothers x (hnot n x hx)).1
      · exact fun x hx => (hothers x (hnot n x hx)).2
    · rw [if_neg hn, if_neg hn]
      refine (h.linked n).congr (fun x hx => (hothers x (hnot n x hx)).1) fun x hx => ?_
      rw [(hothers x (hnot n x hx)).2, if_neg]
      rw [(h.linked r).head]
      exact fun heq => hn (h.disjoint n r x hx (mem_of_head? heq))
  · simp only [hblocks, hmem, mem_cons, h.mem, exists_or, exists_eq, exists_and_left, and_true]
  · rcases (hmem n x).1 hn with ⟨hx, hnr⟩ | hx
    · rcases (hmem n' x).1 hn' with ⟨-, hnr'⟩ | hx'
      · rw [hnr, hnr']
      · exact absurd hx (hnot n' x hx')
    · rcases (hmem n' x).1 hn' with ⟨hxa, -⟩ | hx'
      · exact absurd hxa (hnot n x hx)
      · exact h.disjoint n n' x hx hx'
  · rw [hblocks]
    exact hnodup
  · rw [hblocks]
    exact hcons
  · split_ifs with hnr
    · rw [map_cons, hpipeId, dest_addNewDest, if_pos rfl, nodup_cons]
      refine ⟨fun hmem => ?_, h.pipeIds r⟩
      obtain ⟨x, hx, hid⟩ := mem_map.1 hmem
      exact hnew _ (mem_map.2 ⟨x, hx, rfl⟩) hid
    · rw [hpipeId]
      exact h.pipeIds n
  · split_ifs
    · exact hlimit
    · exact h.limit n
  · rw [addNewDest_relinked.subscriptionsInUse, hblocks, length_cons, ← h.count]
    exact Nat.mod_eq_of_lt (h.count ▸ length_blocks_lt hnodup hcons)

/-- A node is removed. -/
theorem DestInv.remove {l₁ l₂ : List Nat} (h : DestInv cfg s) (hl : s.destList r = l₁ ++ a :: l₂) :
    DestInv cfg (removeDestPtr s r a) ∧
      ∀ n, (removeDestPtr s r a).destList n = if n = r then l₁ ++ l₂ else s.destList n := by
  have har : a ∈ s.destList r := by simp [hl]
  have hr := h.lt har
  have hlinked := h.linked r
  rw [hl] at hlinked
  have hnot : ∀ x ∈ l₁ ++ l₂, x ≠ a := by
    rintro x hx rfl
    exact (nodup_middle.1 hlinked.nodup).notMem hx
  have hmem : ∀ n x, x ∈ (if n = r then l₁ ++ l₂ else s.destList n) ↔ x ∈ s.destList n ∧ x ≠ a := by
    intro n x
    split_ifs with hnr
    · rw [hnr, hl, perm_middle.mem_iff, mem_cons]
      refine ⟨fun hx => ⟨.inr hx, hnot x hx⟩, fun ⟨hx, hxa⟩ => hx.resolve_left hxa⟩
    · refine ⟨fun hx => ⟨hx, ?_⟩, And.left⟩
      rintro rfl
      exact hnr (h.disjoint n r x hx har)
  have hblocks : (removeDestPtr s r a).blocks = s.blocks.erase a := by
    show (removeDestNode s r a).blocks.erase a = _
    rw [removeDestNode_relinked.blocks]
  have hmema := (h.mem a).2 ⟨r, har⟩
  have hpos : 0 < s.blocks.length := length_pos_of_mem hmema
  refine DestInv.of_lists _ (fun n => ?_) (fun x => ?_) (fun n n' x hn hn' => ?_) ?_ ?_
    (fun n => ?_) (fun n => ?_) ?_
  · have hheadn : (removeDestPtr s r a).listHead n =
        if n = r ∧ s.prev a = none then s.next a else s.listHead n := listHead_removeDestNode hr
    rw [hheadn]
    by_cases hn : n = r
    · subst hn
      simp only [true_and]
      exact hlinked.remove (fun x hx => (removeDestNode_links (hnot x hx)).1)
        fun x hx => (removeDestNode_links (hnot x hx)).2
    -- the neighbours are in the same list
    have hne : ∀ x ∈ s.destList n, x ≠ a := by
      rintro x hx rfl
      exact hn (h.disjoint n r x hx har)
    have hapart : ∀ x ∈ s.destList n, x ∉ l₁ ++ l₂ := fun x hx hl =>
      hn (h.disjoint n r x hx ((hmem r x).1 (by rwa [if_pos rfl])).1)
    rw [if_neg hn, if_neg fun hand => hn hand.1]
    obtain ⟨hpreva, hnexta⟩ := hlinked.chain.links
    rw [Option.or_none] at hpreva
    refine (h.linked n).congr (fun x hx => ?_) fun x hx => ?_
    · refine (removeDestNode_links (hne x hx)).1.trans (if_neg fun heq => hapart x hx ?_)
      exact mem_append_left _ (mem_of_getLast? (hpreva ▸ heq))
    · refine (removeDestNode_links (hne x hx)).2.trans (if_neg fun heq => hapart x hx ?_)
      exact mem_append_right _ (mem_of_head? (hnexta ▸ heq))
  · simp only [hblocks, hmem, h.nodup.mem_erase_iff, h.mem, exists_and_right]
    exact and_comm
  · exact h.disjoint n n' x ((hmem n x).1 hn).1 ((hmem n' x).1 hn').1
  · rw [hblocks]
    exact h.nodup.erase a
  · rw [hblocks]
    exact fun x hx => h.bound x (mem_of_mem_erase hx)
  · have hpipeId : ∀ l : List Nat, l.map (fun x => ((removeDestPtr s r a).node x).dest.pipeId) =
        l.map fun x => (s.node x).dest.pipeId := fun l =>
      map_congr_left fun x _ => congrArg Dest.pipeId (removeDestNode_relinked.dest x)
    rw [hpipeId]
    split_ifs
    · have hids := h.pipeIds r
      rw [hl] at hids
      refine hids.sublist (List.Sublist.map _ ?_)
      exact List.Sublist.append_left (sublist_cons_self a l₂) l₁
    · exact h.pipeIds n
  · split_ifs
    · have hlimit := h.limit r
      rw [hl] at hlimit
      simp only [length_append, length_cons] at hlimit ⊢
      omega
    · exact h.limit n
  · show uint32 ((removeDestNode s r a).subscriptionsInUse + 2 ^ 32 - 1) = _
    have hlt := length_blocks_lt h.nodup h.bound
    rw [hblocks, removeDestNode_relinked.subscriptionsInUse, h.count, length_erase_of_mem hmema]
    unfold uint32
    omega

/-! ## The loops -/

theorem DestInv.length_le (h : DestInv cfg s) : (s.destList r).length ≤ s.blocks.length :=
  (subperm_of_subset (h.linked r).nodup fun a ha => (h.mem a).2 ⟨r, ha⟩).length_le

theorem DestInv.getDestPtr (h : DestInv cfg s) : getDestPtr s r pipeId =
    some ((s.destList r).find? fun a => (s.node a).dest.pipeId = pipeId) :=
  (h.linked r).walk (Nat.lt_succ_of_le h.length_le)

/-- The loop of `CFE_SB_SubscribeFull`, from any node on. -/
theorem scanDests_eq {maxDest destCount : Nat} {p : Option Nat} (hmax : maxDest < 2 ^ 32)
    (h : Chain s.next s.prev p l) (hn : l.length < n) (hlimit : destCount + l.length ≤ maxDest) :
    scanDests maxDest s pipeId n l.head? destCount =
      some (if l.any fun a => (s.node a).dest.pipeId = pipeId then .duplicate
        else if l ≠ [] ∧ destCount + l.length = maxDest then .limitReached else .absent) := by
  induction l generalizing p n destCount with
  | nil =>
    cases n with
    | zero => cases hn
    | succ => simp [scanDests]
  | cons a l ih =>
    cases n with
    | zero => cases hn
    | succ n =>
      obtain ⟨-, hnext, hrest⟩ := h
      rw [length_cons] at hn hlimit
      have hcount : uint32 (destCount + 1) = destCount + 1 := Nat.mod_eq_of_lt (by omega)
      rw [head?_cons, scanDests, hcount, any_cons]
      by_cases hpipe : (s.node a).dest.pipeId = pipeId
      · simp [hpipe]
      rw [if_neg hpipe, decide_eq_false hpipe, Bool.false_or]
      by_cases hend : destCount + 1 ≥ maxDest
      · -- this is the last node
        have hnil : l = [] := eq_nil_of_length_eq_zero (by omega)
        subst hnil
        rw [if_pos hend, any_nil, if_neg Bool.false_ne_true, if_pos ⟨by simp, by simp; omega⟩]
      rw [if_neg hend, hnext, ih hrest (by omega) (by omega)]
      have hiff : (l ≠ [] ∧ destCount + 1 + l.length = maxDest) ↔
          (a :: l ≠ [] ∧ destCount + (a :: l).length = maxDest) := by
        rw [length_cons]
        refine ⟨fun ⟨_, heq⟩ => ⟨cons_ne_nil _ _, by omega⟩, fun ⟨_, heq⟩ => ⟨?_, by omega⟩⟩
        rintro rfl
        simp only [length_nil] at heq
        omega
      simp only [hiff]

/-- In a list that is not longer than allowed, the loop finds what `addDest` asks for. -/
theorem DestInv.scanDests (h : DestInv cfg s) :
    scanDests cfg.maxDestPerPkt s pipeId (s.blocks.length + 1) (s.listHead r) 0 =
      some (if (s.dests r).any fun d => d.pipeId = pipeId then .duplicate
        else if (s.dests r).length ≥ cfg.maxDestPerPkt then .limitReached else .absent) := by
  have hmax : cfg.maxDestPerPkt < 2 ^ 32 := by
    have := cfg.hdest
    omega
  have hlimit := h.limit r
  rw [(h.linked r).head, scanDests_eq hmax (h.linked r).chain (Nat.lt_succ_of_le h.length_le)
    (by omega)]
  have hany : ((s.dests r).any fun d => d.pipeId = pipeId) =
      (s.destList r).any fun a => (s.node a).dest.pipeId = pipeId := by
    rw [Routing.dests, any_map]
    rfl
  have hfull : (s.destList r ≠ [] ∧ 0 + (s.destList r).length = cfg.maxDestPerPkt) ↔
      (s.dests r).length ≥ cfg.maxDestPerPkt := by
    rw [Routing.dests, length_map]
    refine ⟨fun ⟨_, heq⟩ => by omega, fun hge => ⟨?_, by omega⟩⟩
    rintro hnil
    have := cfg.hdestPos
    rw [hnil, length_nil] at hge
    omega
  rw [hany]
  simp only [hfull]

/-! ## A pipe leaves the routes -/

/-- What a removal of nodes leaves alone. -/
structure Trimmed (s s' : Routing) : Prop where
  dest : ∀ x, (s'.node x).dest = (s.node x).dest
  blocks : ∀ a ∈ s'.blocks, a ∈ s.blocks
  pipes : s'.pipes = s.pipes
  msgIds : s'.routes.map RouteHead.msgId = s.routes.map RouteHead.msgId
  call : s'.call = s.call
  app : s'.app = s.app

theorem Trimmed.refl : Trimmed s s := ⟨fun _ => rfl, fun _ h => h, rfl, rfl, rfl, rfl⟩

theorem Trimmed.trans {s'' : Routing} (h : Trimmed s s') (h' : Trimmed s' s'') : Trimmed s s'' where
  dest x := (h'.dest x).trans (h.dest x)
  blocks a ha := h.blocks a (h'.blocks a ha)
  pipes := h'.pipes.trans h.pipes
  msgIds := h'.msgIds.trans h.msgIds
  call := h'.call.trans h.call
  app := h'.app.trans h.app

theorem Trimmed.length (h : Trimmed s s') : s'.routes.length = s.routes.length := by
  simpa using congrArg List.length h.msgIds

theorem removeDestPtr_trimmed : Trimmed s (removeDestPtr s r a) where
  dest := removeDestNode_relinked.dest
  blocks x hx := by
    have hmem : x ∈ (removeDestNode s r a).blocks := mem_of_mem_erase hx
    rwa [removeDestNode_relinked.blocks] at hmem
  pipes := removeDestNode_relinked.pipes
  msgIds := removeDestNode_relinked.msgIds
  call := removeDestNode_relinked.call
  app := removeDestNode_relinked.app

/-- `CFE_SB_RemovePipeFromRoute` ends, and is `removeDest` on the destinations. -/
theorem DestInv.removePipeFromRoute (h : DestInv cfg s) (pipeId r : Nat) :
    ∃ s', removePipeFromRoute s pipeId r = some s' ∧ DestInv cfg s' ∧ Trimmed s s' ∧
      ∀ n, s'.dests n = if n = r then removeDest pipeId (s.dests r) else s.dests n := by
  unfold Sb.removePipeFromRoute
  rw [h.getDestPtr]
  cases hfind : (s.destList r).find? fun a => (s.node a).dest.pipeId = pipeId with
  | none =>
    refine ⟨s, rfl, h, Trimmed.refl, fun n => ?_⟩
    split_ifs with hn
    · -- there is nothing to remove
      subst hn
      refine (eraseP_of_forall_not fun d hd => ?_).symm
      obtain ⟨a, ha, rfl⟩ := mem_map.1 hd
      exact find?_eq_none.1 hfind a ha
    · rfl
  | some a =>
    obtain ⟨hpipe, l₁, l₂, hl, hfirst⟩ := find?_eq_some_iff_append.1 hfind
    obtain ⟨hinv, hlists⟩ := h.remove hl
    have htrim : Trimmed s (removeDestPtr s r a) := removeDestPtr_trimmed
    refine ⟨removeDestPtr s r a, rfl, hinv, htrim, fun n => ?_⟩
    have hmap : ∀ l : List Nat, l.map (fun x => ((removeDestPtr s r a).node x).dest) =
        l.map fun x => (s.node x).dest := fun l => map_congr_left fun x _ => htrim.dest x
    unfold Routing.dests
    rw [hlists, hmap]
    split_ifs
    · unfold removeDest
      rw [hl, map_append, map_append, eraseP_append_right]
      · exact congrArg _ (eraseP_cons_of_pos (a := (s.node a).dest) hpipe).symm
      · intro d hd
        obtain ⟨x, hx, rfl⟩ := mem_map.1 hd
        simpa using hfirst x hx
    · rfl

/-- The same for the first `n` routes. -/
theorem DestInv.removePipeFromRoutes (h : DestInv cfg s) (pipeId n : Nat) :
    ∃ s', removePipeFromRoutes s pipeId n = some s' ∧ DestInv cfg s' ∧ Trimmed s s' ∧
      ∀ r, s'.dests r = if r < n then removeDest pipeId (s.dests r) else s.dests r := by
  induction n with
  | zero => exact ⟨s, rfl, h, Trimmed.refl, fun r => by rw [if_neg (Nat.not_lt_zero r)]⟩
  | succ n ih =>
    obtain ⟨s₁, hs₁, hinv₁, htrim₁, hdests₁⟩ := ih
    obtain ⟨s₂, hs₂, hinv₂, htrim₂, hdests₂⟩ := hinv₁.removePipeFromRoute pipeId n
    refine ⟨s₂, ?_, hinv₂, htrim₁.trans htrim₂, fun r => ?_⟩
    · rw [Sb.removePipeFromRoutes, hs₁, Option.bind_some, hs₂]
    · rw [hdests₂ r]
      by_cases hr : r = n
      · subst hr
        rw [if_pos rfl, if_pos (Nat.lt_succ_self r), hdests₁, if_neg (Nat.lt_irrefl r)]
      · rw [if_neg hr, hdests₁]
        simp only [Nat.lt_succ_iff_lt_or_eq, hr, or_false]

/-- In a list with one destination for a pipe nothing is left of it. -/
theorem pipeId_removeDest {dests : List Dest} (h : (dests.map Dest.pipeId).Nodup) :
    ∀ d ∈ removeDest pipeId dests, d.pipeId ≠ pipeId := by
  intro d hd
  have herase : (removeDest pipeId dests).map Dest.pipeId = (dests.map Dest.pipeId).erase pipeId := by
    rw [erase_eq_eraseP, eraseP_map]
    unfold removeDest
    congr 2
    funext x
    rw [comp_apply, Bool.eq_iff_iff, beq_iff_eq, decide_eq_true_iff]
    exact eq_comm
  have hmem : d.pipeId ∈ (removeDest pipeId dests).map Dest.pipeId := mem_map_of_mem hd
  rw [herase] at hmem
  exact (h.mem_erase_iff.1 hmem).1

/-- A route that is not there has no destinations. -/
theorem DestInv.dests_eq_nil (h : DestInv cfg s) (hr : ¬ r < s.routes.length) : s.dests r = [] := by
  refine eq_nil_iff_forall_not_mem.2 fun d hd => hr ?_
  obtain ⟨a, ha, -⟩ := mem_map.1 hd
  exact h.lt ha

/-- After the removal from all routes the pipe has no node. -/
theorem DestInv.removePipe (h : DestInv cfg s) (pipeId : Nat) :
    ∃ s', Sb.removePipeFromRoutes s pipeId s.routes.length = some s' ∧ DestInv cfg s' ∧
      Trimmed s s' ∧ (∀ r, s'.dests r = removeDest pipeId (s.dests r)) ∧
      ∀ a ∈ s'.blocks, (s'.node a).dest.pipeId ≠ pipeId := by
  obtain ⟨s', hs', hinv, htrim, hdests⟩ := h.removePipeFromRoutes pipeId s.routes.length
  refine ⟨s', hs', hinv, htrim, fun r => ?_, fun a ha => ?_⟩
  · rw [hdests]
    split_ifs with hr
    · rfl
    · rw [h.dests_eq_nil hr]
      rfl
  obtain ⟨r, hr⟩ := (hinv.mem a).1 ha
  have hmem : (s'.node a).dest ∈ s'.dests r := mem_map.2 ⟨a, hr, rfl⟩
  rw [hdests, if_pos (htrim.length ▸ hinv.lt hr)] at hmem
  exact pipeId_removeDest (h.pipes r) _ hmem

/-! ## The pipe table -/

/-- The entry that a call has reserved. -/
def PipeCall.slot : PipeCall → Option Nat
  | .creating i _ => some i
  | .deleting i _ => some i
  | _ => none

/-- An entry is reserved for one call. -/
structure SlotInv (cfg : DestConfig) (s : Routing) : Prop where
  length : s.pipes.length = cfg.maxPipes
  reserved : ∀ t i, (s.call t).slot = some i → (s.pipe i).pipeId = resourceIdReserved
  single : ∀ t u i, (s.call t).slot = some i → (s.call u).slot = some i → t = u

theorem matchSlot_eq_some (h : matchSlot cfg s pipeId = some i) :
    Live pipeId ∧ (s.pipe i).pipeId = pipeId ∧ i < s.pipes.length := by
  obtain ⟨hlocate, hid⟩ := Option.filter_eq_some_iff.1 h
  have hlive := live_of_locate hlocate
  have heq : (s.pipe i).pipeId = pipeId := by simpa using hid
  refine ⟨hlive, heq, ?_⟩
  by_contra hi
  have hdefault : (s.pipe i).pipeId = 0 := by
    unfold Routing.pipe
    rw [getD_eq_default _ _ (by omega)]
    rfl
  exact hlive.1 (heq.symm.trans hdefault)

theorem pipe_modifyPipe_self (hi : i < s.pipes.length) : (s.modifyPipe i f).pipe i = f (s.pipe i) :=
  Lib.RefCount.getD_modify_self hi

theorem pipe_modifyPipe_of_ne {j : Nat} (hj : j ≠ i) : (s.modifyPipe i f).pipe j = s.pipe j :=
  Lib.RefCount.getD_modify_of_ne hj

/-- A change of an entry that is not the one of `pipeId`. -/
theorem matchSlot_modifyPipe (h : (matchSlot cfg s pipeId).isSome)
    (hne : (s.pipe i).pipeId ≠ pipeId) : (matchSlot cfg (s.modifyPipe i f) pipeId).isSome := by
  obtain ⟨j, hj⟩ := Option.isSome_iff_exists.1 h
  obtain ⟨hlocate, hid⟩ := Option.filter_eq_some_iff.1 hj
  have hji : j ≠ i := by
    rintro rfl
    exact hne (by simpa using hid)
  unfold matchSlot
  rw [hlocate, Option.isSome_iff_exists]
  refine ⟨j, Option.filter_eq_some_iff.2 ⟨rfl, ?_⟩⟩
  rw [pipe_modifyPipe_of_ne hji]
  exact hid

theorem matchSlot_congr (h : s'.pipes = s.pipes) : matchSlot cfg s' pipeId = matchSlot cfg s pipeId := by
  unfold matchSlot Routing.pipe
  rw [h]

theorem NodesLive.trimmed (h : NodesLive cfg s) (htrim : Trimmed s s') : NodesLive cfg s' := by
  intro a ha
  rw [matchSlot_congr htrim.pipes, htrim.dest]
  exact h a (htrim.blocks a ha)

/-- An entry changes that no node is of. -/
theorem NodesLive.modifyPipe (h : NodesLive cfg s)
    (hne : ∀ a ∈ s.blocks, (s.pipe i).pipeId ≠ (s.node a).dest.pipeId) :
    NodesLive cfg (s.modifyPipe i f) := fun a ha => matchSlot_modifyPipe (h a ha) (hne a ha)

/-- The nodes are not of an entry that is free or reserved. -/
theorem NodesLive.ne_of_not_live (h : NodesLive cfg s) (hi : ¬ Live (s.pipe i).pipeId) :
    ∀ a ∈ s.blocks, (s.pipe i).pipeId ≠ (s.node a).dest.pipeId := by
  intro a ha heq
  obtain ⟨j, hj⟩ := Option.isSome_iff_exists.1 (h a ha)
  exact hi (heq ▸ (matchSlot_eq_some hj).1)

theorem call_setCall_self : (s.setCall t call).call t = call := update_self ..

theorem call_setCall_of_ne (hut : u ≠ t) : (s.setCall t call).call u = s.call u :=
  update_of_ne hut ..

theorem SlotInv.setCall (h : SlotInv cfg s)
    (hslot : ∀ i, call.slot = some i → (s.call t).slot = some i) :
    SlotInv cfg (s.setCall t call) := by
  have hold : ∀ u i, ((s.setCall t call).call u).slot = some i → (s.call u).slot = some i := by
    intro u i hu
    by_cases hut : u = t
    · subst hut
      refine hslot i ?_
      rwa [call_setCall_self] at hu
    · rwa [call_setCall_of_ne hut] at hu
  exact ⟨h.length, fun u i hu => h.reserved u i (hold u i hu),
    fun u v i hu hv => h.single u v i (hold u i hu) (hold v i hv)⟩

/-- A call and the entry that no other call has reserved change. -/
theorem SlotInv.modifyPipe (h : SlotInv cfg s) (hother : ∀ u, u ≠ t → (s.call u).slot ≠ some i)
    (hcall : ∀ j, call.slot = some j → j = i ∧ i < s.pipes.length ∧
      ∀ p, (f p).pipeId = resourceIdReserved) :
    SlotInv cfg ((s.modifyPipe i f).setCall t call) := by
  have hcalls : ∀ u j, (((s.modifyPipe i f).setCall t call).call u).slot = some j →
      (u = t ∧ call.slot = some j) ∨ (u ≠ t ∧ j ≠ i ∧ (s.call u).slot = some j) := by
    intro u j hu
    by_cases hut : u = t
    · subst hut
      rw [call_setCall_self] at hu
      exact .inl ⟨rfl, hu⟩
    rw [call_setCall_of_ne hut] at hu
    refine .inr ⟨hut, ?_, hu⟩
    rintro rfl
    exact hother u hut hu
  refine ⟨(length_modify ..).trans h.length, fun u j hu => ?_, fun u v j hu hv => ?_⟩
  · rcases hcalls u j hu with ⟨-, hslot⟩ | ⟨-, hji, hold⟩
    · obtain ⟨rfl, hi, hf⟩ := hcall j hslot
      show ((s.modifyPipe j f).pipe j).pipeId = _
      rw [pipe_modifyPipe_self hi, hf]
    · rw [← h.reserved u j hold]
      exact congrArg PipeSlot.pipeId (pipe_modifyPipe_of_ne hji)
  · rcases hcalls u j hu with ⟨rfl, hslot⟩ | ⟨-, hji, hold⟩
    · rcases hcalls v j hv with ⟨rfl, -⟩ | ⟨-, hji, -⟩
      · rfl
      · exact absurd (hcall j hslot).1 hji
    · rcases hcalls v j hv with ⟨-, hslot⟩ | ⟨-, -, hold'⟩
      · exact absurd (hcall j hslot).1 hji
      · exact h.single u v j hold hold'

/-- A call reserves an entry that no other has. -/
theorem SlotInv.reserve (h : SlotInv cfg s) (hi : i < s.pipes.length)
    (hold : (s.pipe i).pipeId ≠ resourceIdReserved) (hf : ∀ p, (f p).pipeId = resourceIdReserved)
    (hcall : call.slot = some i) : SlotInv cfg ((s.modifyPipe i f).setCall t call) := by
  refine h.modifyPipe (fun u _ hu => hold (h.reserved u i hu)) fun j hj => ?_
  rw [hcall] at hj
  exact ⟨(Option.some.inj hj).symm, hi, hf⟩

theorem SlotInv.congr (h : SlotInv cfg s) (hpipes : s'.pipes = s.pipes)
    (hcall : s'.call = s.call) : SlotInv cfg s' := by
  have hpipe : ∀ i, s'.pipe i = s.pipe i := fun i => by
    unfold Routing.pipe
    rw [hpipes]
  refine ⟨hpipes ▸ h.length, fun t i ht => ?_, ?_⟩
  · rw [hpipe]
    rw [hcall] at ht
    exact h.reserved t i ht
  · rw [hcall]
    exact h.single

/-! ## The actions -/

structure RoutingInv (cfg : DestConfig) (s : Routing) : Prop where
  dest : DestInv cfg s
  live : NodesLive cfg s
  slot : SlotInv cfg s

/-- A change of the pipe table and of a call leaves the lists alone. -/
theorem DestInv.setCall (h : DestInv cfg s) : DestInv cfg (s.setCall t call) :=
  h.congr rfl rfl (fun _ => rfl) rfl

theorem DestInv.modifyPipe (h : DestInv cfg s) : DestInv cfg (s.modifyPipe i f) :=
  h.congr rfl rfl (fun _ => rfl) rfl

theorem lt_of_locate (h : locatePipeDescByID cfg.toSbConfig pipeId = some i) : i < cfg.maxPipes := by
  unfold locatePipeDescByID resourceIdToIndex at h
  simp only at h
  split_ifs at h
  rw [← Option.some.inj h]
  exact Nat.mod_lt _ cfg.hpipes.1

theorem RoutingInv.createPipe (h : RoutingInv cfg s) (hidle : s.call t = .idle) :
    ∃ s', createPipe cfg s t = some s' ∧ RoutingInv cfg s' := by
  refine ⟨_, if_pos hidle, ?_⟩
  have hscan : resourceIdFindNext s.lastPipeId cfg.maxPipes (checkPipeDescSlotUsed cfg s) = 0 ∨
      checkPipeDescSlotUsed cfg s (resourceIdFindNext s.lastPipeId cfg.maxPipes
        (checkPipeDescSlotUsed cfg s)) = false := findNextLoop_free _ _
  generalize resourceIdFindNext s.lastPipeId cfg.maxPipes (checkPipeDescSlotUsed cfg s) =
    pending at hscan
  cases hlocate : locatePipeDescByID cfg.toSbConfig pending with
  | none => exact h
  | some i =>
    -- the scan has found a free entry
    have hfree : (s.pipe i).pipeId = 0 := by
      have hused := hscan.resolve_left (live_of_locate hlocate).1
      rw [checkPipeDescSlotUsed, hlocate] at hused
      simpa using hused
    have hi : i < s.pipes.length := h.slot.length ▸ lt_of_locate hlocate
    have hnot : ¬ Live (s.pipe i).pipeId := fun hlive => hlive.1 hfree
    have hreserve : SlotInv cfg ((s.modifyPipe i fun _ => ⟨resourceIdReserved, 0⟩).setCall t
        (.creating i pending)) :=
      h.slot.reserve hi (by rw [hfree]; decide) (fun _ => rfl) rfl
    refine ⟨h.dest.congr rfl rfl (fun _ => rfl) rfl, ?_,
      ⟨hreserve.length, hreserve.reserved, hreserve.single⟩⟩
    exact h.live.modifyPipe (h.live.ne_of_not_live hnot)

/-- A call gives back its entry. -/
theorem RoutingInv.giveBack (h : RoutingInv cfg s) (hslot : (s.call t).slot = some i)
    (hcall : call.slot = none) : RoutingInv cfg ((s.modifyPipe i f).setCall t call) := by
  have hnot : ¬ Live (s.pipe i).pipeId := by
    rw [h.slot.reserved t i hslot]
    exact not_live_reserved
  refine ⟨h.dest.modifyPipe.setCall, h.live.modifyPipe (h.live.ne_of_not_live hnot),
    h.slot.modifyPipe (fun u hut hu => hut (h.slot.single u t i hu hslot)) fun j hj => ?_⟩
  rw [hcall] at hj
  cases hj

theorem slot_after {rest : Option (Nat × List Nat)} : (PipeCall.after rest).slot = none := by
  cases rest <;> rfl

/-- `CFE_SB_DeletePipeFull` ends its first section with the invariant. -/
theorem RoutingInv.deletePipeSection (h : RoutingInv cfg s) (t pipeId appId : Nat)
    (rest : Option (Nat × List Nat)) :
    ∃ s', deletePipeSection cfg s t pipeId appId rest = some s' ∧ RoutingInv cfg s' ∧
      ∀ r, s'.dests r = if (∃ i ∈ matchSlot cfg s pipeId, (s.pipe i).appId = appId) then
        removeDest pipeId (s.dests r) else s.dests r := by
  unfold Sb.deletePipeSection
  cases hslot : (matchSlot cfg s pipeId).filter fun i => (s.pipe i).appId = appId with
  | none =>
    refine ⟨_, rfl, ⟨h.dest.setCall, h.live, h.slot.setCall fun i hi => ?_⟩, fun r => ?_⟩
    · rw [slot_after] at hi
      cases hi
    · rw [if_neg]
      · exact dests_congr rfl rfl rfl
      · rintro ⟨i, hi, happ⟩
        exact Option.filter_eq_none_iff.1 hslot i hi (decide_eq_true happ)
  | some i =>
    obtain ⟨hmatch, happ⟩ := Option.filter_eq_some_iff.1 hslot
    obtain ⟨hlive, hid, hi⟩ := matchSlot_eq_some hmatch
    obtain ⟨s₁, hs₁, hinv, htrim, hdests, hgone⟩ := h.dest.removePipe pipeId
    have hpipe : s₁.pipe i = s.pipe i := by
      unfold Routing.pipe
      rw [htrim.pipes]
    rw [hs₁]
    refine ⟨_, rfl, ⟨hinv.modifyPipe.setCall, ?_, ?_⟩, fun r => ?_⟩
    · -- no node is of the pipe any more
      refine (h.live.trimmed htrim).modifyPipe fun a ha heq => hgone a ha ?_
      rw [← heq, hpipe, hid]
    · refine (h.slot.congr htrim.pipes htrim.call).reserve ?_ ?_ (fun _ => rfl) rfl
      · rw [htrim.pipes]
        exact hi
      · rw [hpipe, hid]
        exact hlive.2
    · rw [if_pos ⟨i, hmatch, by simpa using happ⟩, ← hdests]
      exact dests_congr rfl rfl rfl

theorem RoutingInv.setCall (h : RoutingInv cfg s) (hcall : call.slot = none) :
    RoutingInv cfg (s.setCall t call) :=
  ⟨h.dest.setCall, h.live, h.slot.setCall fun i hi => by rw [hcall] at hi; cases hi⟩

/-! ## Subscriptions -/

theorem findRoute_lt (h : findRoute cfg s msgId = some r) : r < s.routes.length := by
  unfold findRoute at h
  split_ifs at h
  exact (findIdx?_eq_some_iff_getElem.1 h).1

theorem listHead_addRouteHead : (addRouteHead cfg s msgId).listHead n = s.listHead n := by
  unfold addRouteHead
  split_ifs
  · -- the new route is empty, as one that is not there
    unfold Routing.listHead
    simp only [getD_eq_getElem?_getD, getElem?_append]
    by_cases hn : n < s.routes.length
    · rw [if_pos hn]
    · rw [if_neg hn, getElem?_eq_none (Nat.le_of_not_lt hn)]
      cases n - s.routes.length <;> rfl
  · rfl

theorem addRouteHead_frame {msgId : Nat} : (addRouteHead cfg s msgId).node = s.node ∧
    (addRouteHead cfg s msgId).blocks = s.blocks ∧ (addRouteHead cfg s msgId).pipes = s.pipes ∧
    (addRouteHead cfg s msgId).subscriptionsInUse = s.subscriptionsInUse ∧
    (addRouteHead cfg s msgId).call = s.call := by
  unfold addRouteHead
  split_ifs <;> exact ⟨rfl, rfl, rfl, rfl, rfl⟩

theorem RoutingInv.addRouteHead (h : RoutingInv cfg s) :
    RoutingInv cfg (addRouteHead cfg s msgId) := by
  obtain ⟨hnode, hblocks, hpipes, hcount, hcall⟩ := @addRouteHead_frame cfg s msgId
  refine ⟨h.dest.congr hnode hblocks (fun _ => listHead_addRouteHead) hcount, fun a ha => ?_,
    h.slot.congr hpipes hcall⟩
  rw [matchSlot_congr hpipes, hnode]
  rw [hblocks] at ha
  exact h.live a ha

/-- A destination for a new pipe is added at the head. -/
theorem RoutingInv.addNewDest {dest : Dest} (h : RoutingInv cfg s) (hr : r < s.routes.length)
    (ha : a ∉ s.blocks) (hbound : a < cfg.bufMemoryBytes)
    (hnew : ∀ d ∈ s.dests r, d.pipeId ≠ dest.pipeId) (hlimit : (s.dests r).length < cfg.maxDestPerPkt)
    (hpipe : (matchSlot cfg s dest.pipeId).isSome) :
    RoutingInv cfg (addNewDest s r a dest) ∧
      ∀ n, (addNewDest s r a dest).dests n = if n = r then dest :: s.dests r else s.dests n := by
  have hlen : (s.destList r).length < cfg.maxDestPerPkt := by
    rwa [Routing.dests, length_map] at hlimit
  obtain ⟨hinv, hlists⟩ := h.dest.add hr ha hbound hnew hlen
  have hrelinked := @addNewDest_relinked s a r dest
  refine ⟨⟨hinv, fun x hx => ?_, h.slot.congr hrelinked.pipes hrelinked.call⟩, fun n => ?_⟩
  · rw [matchSlot_congr (s := s) hrelinked.pipes, dest_addNewDest]
    rw [hrelinked.blocks] at hx
    split_ifs with hxa
    · exact hpipe
    · exact h.live x ((mem_cons.1 hx).resolve_left hxa)
  · have hmap : ∀ n, (s.destList n).map (fun x => ((Sb.addNewDest s r a dest).node x).dest) =
        (s.destList n).map fun x => (s.node x).dest := fun n =>
      map_congr_left fun x hx => by
        rw [dest_addNewDest, if_neg]
        rintro rfl
        exact ha ((h.dest.mem x).2 ⟨n, hx⟩)
    unfold Routing.dests
    rw [hlists]
    split_ifs
    · rw [map_cons, hmap, dest_addNewDest, if_pos rfl]
    · exact hmap n

/-- `CFE_SB_SubscribeFull` ends with the invariant. A list changes as `addDest` says, and
only if the pool has a block. -/
theorem RoutingInv.subscribeFull (h : RoutingInv cfg s) {msgLim scope : Nat} {block : Option Nat}
    (hidle : s.call t = .idle) (hblock : ∀ a ∈ block, a ∉ s.blocks ∧ a < cfg.bufMemoryBytes) :
    ∃ s', subscribeFull cfg s t msgId pipeId msgLim scope block = some s' ∧ RoutingInv cfg s' ∧
      ∀ n, s'.dests n = if SubscribeArgsOk cfg s t msgId pipeId scope ∧ block.isSome ∧
          findRoute cfg (Sb.addRouteHead cfg s msgId) msgId = some n then
        addDest cfg.toSbConfig pipeId msgLim scope (s.dests n) else s.dests n := by
  unfold Sb.subscribeFull
  rw [if_pos ⟨hidle, hblock⟩]
  split_ifs with hargs
  · have hinv : RoutingInv cfg (Sb.addRouteHead cfg s msgId) := h.addRouteHead
    obtain ⟨hnode, hblocks, hpipes, -, -⟩ := @addRouteHead_frame cfg s msgId
    have hdests : ∀ n, (Sb.addRouteHead cfg s msgId).dests n = s.dests n := fun n =>
      dests_congr hnode hblocks listHead_addRouteHead
    obtain ⟨i, hi, -⟩ := hargs.1
    have hmatch : (matchSlot cfg (Sb.addRouteHead cfg s msgId) pipeId).isSome := by
      rw [matchSlot_congr hpipes, hi]
      rfl
    rw [← hblocks] at hblock
    generalize Sb.addRouteHead cfg s msgId = s₁ at hinv hblock hmatch hdests
    simp only [hargs, true_and, ← hdests]
    cases hroute : findRoute cfg s₁ msgId with
    | none => exact ⟨s₁, rfl, hinv, fun n => by rw [if_neg fun hand => nomatch hand.2]⟩
    | some r =>
      rw [Option.elim_some, hinv.dest.scanDests]
      generalize hscan : (if ((s₁.dests r).any fun d => decide (d.pipeId = pipeId)) = true then
        Scan.duplicate else if (s₁.dests r).length ≥ cfg.maxDestPerPkt then .limitReached
        else .absent) = scan
      have hkeep : scan ≠ .absent →
          addDest cfg.toSbConfig pipeId msgLim scope (s₁.dests r) = s₁.dests r := by
        intro hne
        rw [addDest, if_pos]
        by_contra hor
        rw [not_or] at hor
        exact hne (by rw [← hscan, if_neg hor.1, if_neg hor.2])
      have hsame : scan ≠ .absent → ∀ n, s₁.dests n = if (some r : Option Nat) = some n then
          addDest cfg.toSbConfig pipeId msgLim scope (s₁.dests n) else s₁.dests n := by
        intro hne n
        split_ifs with hrn
        · cases hrn
          exact (hkeep hne).symm
        · rfl
      cases block with
      | none =>
        refine ⟨s₁, by cases scan <;> rfl, hinv, fun n => ?_⟩
        rw [if_neg fun hand => nomatch hand.1]
      | some a =>
        simp only [Option.isSome_some, true_and]
        cases scan with
        | duplicate | limitReached => exact ⟨s₁, rfl, hinv, hsame nofun⟩
        | absent =>
          -- the pipe is new, and the list is not full
          split_ifs at hscan with hdup hfull
          obtain ⟨ha, hbound⟩ := hblock a rfl
          have hpipe : (newDest pipeId msgLim scope).pipeId = pipeId := rfl
          obtain ⟨hadd, hlists⟩ := @RoutingInv.addNewDest cfg s₁ a r (newDest pipeId msgLim scope) hinv
            (findRoute_lt hroute) ha hbound
            (fun d hd heq => hdup (any_eq_true.2 ⟨d, hd, decide_eq_true (heq.trans hpipe)⟩))
            (Nat.lt_of_not_le hfull) (by rw [hpipe]; exact hmatch)
          refine ⟨_, rfl, hadd, fun n => ?_⟩
          rw [hlists]
          by_cases hn : n = r
          · subst hn
            rw [if_pos rfl, if_pos rfl, addDest, if_neg]
            rintro (hany | hge)
            · exact hdup hany
            · exact hfull hge
          · rw [if_neg hn, if_neg fun heq => hn (Option.some.inj heq).symm]
  · exact ⟨s, rfl, h, fun n => by rw [if_neg fun hand => hargs hand.1]⟩

/-- `CFE_SB_UnsubscribeFull` ends with the invariant. A list changes as `removeDest`
says. -/
theorem RoutingInv.unsubscribeFull (h : RoutingInv cfg s) {scope : Nat} (hidle : s.call t = .idle) :
    ∃ s', unsubscribeFull cfg s t msgId pipeId scope = some s' ∧ RoutingInv cfg s' ∧
      ∀ n, s'.dests n = if SubscribeArgsOk cfg s t msgId pipeId scope ∧
          findRoute cfg s msgId = some n then
        removeDest pipeId (s.dests n) else s.dests n := by
  unfold Sb.unsubscribeFull
  split_ifs with hargs
  · simp only [hargs, true_and]
    cases hroute : findRoute cfg s msgId with
    | none => exact ⟨s, rfl, h, fun n => by rw [if_neg nofun]⟩
    | some r =>
      obtain ⟨s', hs', hinv, htrim, hdests⟩ := h.dest.removePipeFromRoute pipeId r
      refine ⟨s', hs', ⟨hinv, h.live.trimmed htrim, h.slot.congr htrim.pipes htrim.call⟩, fun n => ?_⟩
      rw [hdests]
      by_cases hn : n = r
      · subst hn
        rw [if_pos rfl, if_pos rfl]
      · rw [if_neg hn, if_neg fun heq => hn (Option.some.inj heq).symm]
  · exact ⟨s, rfl, h, fun n => by rw [if_neg fun hand => hargs hand.1]⟩

/-! ## Runs -/

theorem RoutingInit.inv (h : RoutingInit cfg s) : RoutingInv cfg s := by
  have hhead : ∀ r, s.listHead r = none := by
    intro r
    unfold Routing.listHead
    rw [h.routes]
    rfl
  have hslot : ∀ t, (s.call t).slot = none := fun t => by rw [h.idle t]; rfl
  refine ⟨?_, fun a ha => ?_, ?_, fun t i ht => ?_, fun t u i ht => ?_⟩
  · refine (DestInv.of_lists (fun _ => []) (fun r => ?_) (fun a => ?_) ?_ ?_ ?_ ?_ ?_ ?_).1
    · rw [hhead]
      exact Linked.nil
    · simp [h.blocks]
    · exact fun r r' a ha => absurd ha not_mem_nil
    · rw [h.blocks]
      exact nodup_nil
    · simp [h.blocks]
    · exact fun _ => nodup_nil
    · exact fun _ => Nat.zero_le _
    · rw [h.blocks, h.subscriptionsInUse]
      rfl
  · rw [h.blocks] at ha
    cases ha
  · rw [h.pipes, length_replicate]
  · rw [hslot] at ht
    cases ht
  · rw [hslot] at ht
    cases ht

/-- Whose turn it is: the task is in no call, or at this place of one; a block that the pool
gives is not in use. -/
def Enabled (cfg : DestConfig) (s : Routing) : RoutingAction → Prop
  | .createPipe t => s.call t = .idle
  | .finishPipe t _ => ∃ i pending, s.call t = .creating i pending
  | .deletePipe t _ => s.call t = .idle
  | .freeSlot t => ∃ i rest, s.call t = .deleting i rest
  | .collectPipes t _ => s.call t = .idle
  | .deleteCollected t => ∃ appId delList, s.call t = .cleaning appId delList
  | .subscribe t _ _ _ _ block =>
    s.call t = .idle ∧ ∀ a ∈ block, a ∉ s.blocks ∧ a < cfg.bufMemoryBytes
  | .unsubscribe t _ _ _ => s.call t = .idle

/-- An action whose turn it is ends, and keeps the invariant. -/
theorem RoutingInv.step {action : RoutingAction} (h : RoutingInv cfg s)
    (henabled : Enabled cfg s action) :
    ∃ s', routingStep cfg s action = some s' ∧ RoutingInv cfg s' := by
  cases action with
  | createPipe => exact h.createPipe henabled
  | finishPipe t =>
    obtain ⟨i, pending, hcall⟩ := henabled
    have hslot : (s.call t).slot = some i := by rw [hcall]; rfl
    rw [routingStep, finishPipe, hcall]
    split_ifs
    · exact ⟨_, rfl, h.giveBack hslot rfl⟩
    · exact ⟨_, rfl, h.giveBack hslot rfl⟩
  | deletePipe t pipeId =>
    obtain ⟨s', hs', hinv, -⟩ := h.deletePipeSection t pipeId (s.app t) none
    exact ⟨s', (if_pos henabled).trans hs', hinv⟩
  | freeSlot =>
    obtain ⟨i, rest, hcall⟩ := henabled
    rw [routingStep, freeSlot, hcall]
    exact ⟨_, rfl, h.giveBack (by rw [hcall]; rfl) slot_after⟩
  | collectPipes => exact ⟨_, if_pos henabled, h.setCall rfl⟩
  | deleteCollected t =>
    obtain ⟨appId, delList, hcall⟩ := henabled
    rw [routingStep, deleteCollected, hcall]
    cases delList with
    | nil => exact ⟨_, rfl, h.setCall rfl⟩
    | cons pipeId delList =>
      obtain ⟨s', hs', hinv, -⟩ := h.deletePipeSection t pipeId appId (some (appId, delList))
      exact ⟨s', hs', hinv⟩
  | subscribe =>
    obtain ⟨s', hs', hinv, -⟩ := h.subscribeFull henabled.1 henabled.2
    exact ⟨s', hs', hinv⟩
  | unsubscribe =>
    obtain ⟨s', hs', hinv, -⟩ := h.unsubscribeFull henabled
    exact ⟨s', hs', hinv⟩

/-- The others do nothing. -/
theorem enabled_of_step {action : RoutingAction} (hstep : routingStep cfg s action = some s') :
    Enabled cfg s action := by
  cases action with
  | createPipe =>
    simp only [routingStep, createPipe] at hstep
    split_ifs at hstep with hidle
    exact hidle
  | finishPipe =>
    simp only [routingStep, finishPipe] at hstep
    split at hstep
    · next i pending hcall => exact ⟨i, pending, hcall⟩
    · cases hstep
  | deletePipe =>
    simp only [routingStep] at hstep
    split_ifs at hstep with hidle
    exact hidle
  | freeSlot =>
    simp only [routingStep, freeSlot] at hstep
    split at hstep
    · next i rest hcall => exact ⟨i, rest, hcall⟩
    · cases hstep
  | collectPipes =>
    simp only [routingStep, collectPipes] at hstep
    split_ifs at hstep with hidle
    exact hidle
  | deleteCollected =>
    simp only [routingStep, deleteCollected] at hstep
    split at hstep
    · next appId pipeId delList hcall => exact ⟨appId, pipeId :: delList, hcall⟩
    · next appId hcall => exact ⟨appId, [], hcall⟩
    · cases hstep
  | subscribe =>
    simp only [routingStep, subscribeFull] at hstep
    split_ifs at hstep with hguard
    · exact hguard
    · exact hguard
  | unsubscribe =>
    simp only [routingStep, unsubscribeFull] at hstep
    split_ifs at hstep with hidle
    · exact hidle
    · exact hidle

theorem RoutingRun.inv (h : RoutingRun cfg s) : RoutingInv cfg s := by
  induction h with
  | init h => exact h.inv
  | step _ hstep ih =>
    obtain ⟨s₁, hs₁, hinv⟩ := ih.step (enabled_of_step hstep)
    rw [hstep] at hs₁
    exact Option.some.inj hs₁ ▸ hinv

/-! ## The total, and the events of a transmission -/

/-- The statistic counts the nodes of all lists. -/
theorem DestInv.total (h : DestInv cfg s) :
    s.subscriptionsInUse = ((List.range s.routes.length).map fun r => (s.dests r).length).sum := by
  have hperm : ((List.range s.routes.length).flatMap s.destList).Perm s.blocks := by
    refine (perm_ext_iff_of_nodup ?_ h.nodup).2 fun a => ?_
    · refine nodup_flatMap.2 ⟨fun r _ => (h.linked r).nodup, ?_⟩
      refine nodup_range.imp fun hne a ha ha' => hne ?_
      exact h.disjoint _ _ a ha ha'
    · rw [mem_flatMap, h.mem]
      refine ⟨fun ⟨r, _, hr⟩ => ⟨r, hr⟩, fun ⟨r, hr⟩ => ⟨r, mem_range.2 (h.lt hr), hr⟩⟩
  rw [h.count, ← hperm.length_eq, length_flatMap]
  simp only [Routing.dests, length_map]

/-- The loop of a transmission over the nodes is the one over the destinations. -/
theorem sendToNodes_eq (c : SbConfig) (bus : Bus) (appId b : Nat) (node : Nat → DestNode)
    {prev : Nat → Option Nat} {p : Option Nat} (h : Chain (fun a => (node a).next) prev p l)
    (hnodup : l.Nodup) (hn : l.length < n) :
    ∃ node', sendToNodes c appId b n node l.head? bus = some ((node',
        (sendToDests c bus appId b (l.map fun a => (node a).dest)).1.2),
        (sendToDests c bus appId b (l.map fun a => (node a).dest)).2) ∧
      l.map (fun a => (node' a).dest) =
        (sendToDests c bus appId b (l.map fun a => (node a).dest)).1.1 ∧
      (∀ a, (node' a).next = (node a).next ∧ (node' a).prev = (node a).prev) ∧
      ∀ a, a ∉ l → node' a = node a := by
  induction l generalizing p n node bus with
  | nil =>
    cases n with
    | zero => cases hn
    | succ => exact ⟨node, rfl, rfl, fun _ => ⟨rfl, rfl⟩, fun _ _ => rfl⟩
  | cons x l ih =>
    cases n with
    | zero => cases hn
    | succ =>
      obtain ⟨-, hnext, hrest⟩ := h
      have hnextx : (node x).next = l.head? := hnext
      rw [nodup_cons] at hnodup
      rw [head?_cons, sendToNodes, map_cons, sendToDests]
      generalize (if (node x).dest.active = true then matchPipe c bus (node x).dest.pipeId
        else none).elim (((node x).dest, none), bus) (sendToPipe bus appId b (node x).dest) = result
      generalize hnode₁ : update node x { node x with dest := result.1.1 } = node₁
      have hlinks : ∀ a, (node₁ a).next = (node a).next ∧ (node₁ a).prev = (node a).prev := by
        intro a
        rw [← hnode₁, update_apply]
        split_ifs with hax
        · rw [hax]
          exact ⟨rfl, rfl⟩
        · exact ⟨rfl, rfl⟩
      have hsame : ∀ a, a ≠ x → node₁ a = node a := by
        intro a ha
        rw [← hnode₁]
        exact update_of_ne ha ..
      have hx₁ : (node₁ x).dest = result.1.1 := by
        rw [← hnode₁, update_self]
      have hmap : (l.map fun a => (node₁ a).dest) = l.map fun a => (node a).dest :=
        map_congr_left fun a ha => by
          rw [hsame a]
          rintro rfl
          exact hnodup.1 ha
      obtain ⟨node', hrun, hdests, hlinks', hsame'⟩ := ih result.2 node₁
        (hrest.congr (fun a _ => (hlinks a).1) fun _ _ => rfl) hnodup.2
        (Nat.lt_of_succ_lt_succ hn)
      rw [hmap] at hrun hdests
      refine ⟨node', ?_, ?_, fun a => ?_, fun a ha => ?_⟩
      · rw [hnextx, hrun]
        rfl
      · rw [map_cons, hsame' x hnodup.1, hx₁, hdests]
      · exact ⟨(hlinks' a).1.trans (hlinks a).1, (hlinks' a).2.trans (hlinks a).2⟩
      · rw [mem_cons, not_or] at ha
        rw [hsame' a ha.2, hsame a ha.1]

/-- A destination has at most one event. -/
theorem length_events {c : SbConfig} {bus : Bus} {appId : Nat} (dests : List Dest) :
    (sendToDests c bus appId b dests).1.2.length ≤ dests.length := by
  induction dests generalizing bus with
  | nil => exact Nat.le_refl 0
  | cons d rest ih =>
    rw [sendToDests]
    rw [length_append, Nat.add_comm]
    refine Nat.add_le_add (ih ..) ?_
    generalize (((if d.active = true then matchPipe c bus d.pipeId else none).elim ((d, none), bus)
      (sendToPipe bus appId b d)).1.2) = error
    cases error <;> simp

/-- At every point of a run: every route has a well-formed doubly linked list of nodes that
no other route has; with one node for a pipe, only nodes of pipes that are in use, and no
more than allowed; the statistic is the number of nodes; a transmission goes along the
whole list, and has no more events than there is room for; and no action is stuck. -/
theorem destination_lists (h : RoutingRun cfg s) :
    (∀ r, Linked s.next s.prev (s.listHead r) (s.destList r) ∧
      ∀ a ∈ s.destList r, ∀ b ∈ s.destList r, s.next a = some b ↔ s.prev b = some a) ∧
    (∀ r r' a, a ∈ s.destList r → a ∈ s.destList r' → r = r') ∧
    (∀ r, ((s.dests r).map Dest.pipeId).Nodup ∧ (s.dests r).length ≤ cfg.maxDestPerPkt ∧
      ∀ d ∈ s.dests r, ∃ i, matchSlot cfg s d.pipeId = some i) ∧
    s.subscriptionsInUse = ((List.range s.routes.length).map fun r => (s.dests r).length).sum ∧
    (∀ r bus appId b, ∃ node' events bus', sendToNodes cfg.toSbConfig appId b (s.blocks.length + 1)
        s.node (s.listHead r) bus = some ((node', events), bus') ∧
      events.length ≤ cfg.maxDestPerPkt) ∧
    ∀ action, Enabled cfg s action → (routingStep cfg s action).isSome := by
  have hinv := h.inv
  have hlength : ∀ r, (s.dests r).length ≤ cfg.maxDestPerPkt := fun r => by
    rw [Routing.dests, length_map]
    exact hinv.dest.limit r
  refine ⟨fun r => ⟨hinv.dest.linked r, fun a ha b hb => (hinv.dest.linked r).inverse ha hb⟩,
    hinv.dest.disjoint, fun r => ⟨hinv.dest.pipes r, hlength r, fun d hd => ?_⟩, hinv.dest.total,
    fun r bus appId b => ?_, fun action henabled => ?_⟩
  · obtain ⟨a, ha, rfl⟩ := mem_map.1 hd
    exact Option.isSome_iff_exists.1 (hinv.live a ((hinv.dest.mem a).2 ⟨r, ha⟩))
  · have hlinked := hinv.dest.linked r
    obtain ⟨node', hrun, -⟩ := sendToNodes_eq cfg.toSbConfig bus appId b s.node hlinked.chain
      hlinked.nodup (Nat.lt_succ_of_le hinv.dest.length_le)
    rw [← hlinked.head] at hrun
    exact ⟨node', _, _, hrun, (length_events _).trans (hlength r)⟩
  · obtain ⟨s', hs', -⟩ := hinv.step henabled
    rw [hs']
    rfl

/-- A list of actions. -/
def Routing.exec (cfg : DestConfig) (s : Routing) : List RoutingAction → Option Routing
  | [] => some s
  | a :: actions => (routingStep cfg s a).bind fun s => Routing.exec cfg s actions

theorem RoutingRun.exec (actions : List RoutingAction) (h : RoutingRun cfg s)
    (hexec : s.exec cfg actions = some s') : RoutingRun cfg s' := by
  induction actions generalizing s with
  | nil =>
    cases hexec
    exact h
  | cons a actions ih =>
    obtain ⟨s₁, hs₁, hexec⟩ := Option.bind_eq_some_iff.1 hexec
    exact ih (h.step hs₁) hexec

def sampleDestConfig : DestConfig where
  toSbConfig := sampleConfig
  bufMemoryBytes := 524288
  hdestPos := by decide
  hmemory := by decide

/-- The state after the start. -/
def sampleRouting : Routing where
  node _ := default
  blocks := []
  routes := []
  pipes := List.replicate 64 default
  lastPipeId := pipeIdBase
  subscriptionsInUse := 0
  app _ := 1
  call _ := .idle

/-- Two pipes of an application subscribe to a message, one of them to a second one, and
the other is deleted. -/
theorem destination_lists_sample : ∃ s, RoutingRun sampleDestConfig s ∧ s.listHead 0 = some 64 ∧
    s.next 64 = none ∧ (∀ r, Linked s.next s.prev (s.listHead r) (s.destList r)) ∧
    s.subscriptionsInUse = 2 := by
  have hinit : RoutingRun sampleDestConfig sampleRouting :=
    RoutingRun.init ⟨rfl, rfl, rfl, rfl, rfl, fun _ => rfl⟩
  let actions : List RoutingAction := [.createPipe 0, .createPipe 1, .finishPipe 1 true,
    .finishPipe 0 true, .subscribe 0 5 0x02160001 4 1 (some 0),
    .subscribe 0 5 0x02160002 4 1 (some 64), .subscribe 0 6 0x02160002 4 1 (some 128),
    .deletePipe 0 0x02160001]
  have hexec : (sampleRouting.exec sampleDestConfig actions).any (fun s =>
      s.listHead 0 = some 64 ∧ s.next 64 = none ∧
        ((List.range s.routes.length).map fun r => (s.dests r).length).sum = 2) = true := by
    decide +kernel
  obtain ⟨s, hs, hall⟩ := (Option.any_eq_true _ _).1 hexec
  obtain ⟨hhead, hnext, hsum⟩ := of_decide_eq_true hall
  have hrun := hinit.exec actions hs
  obtain ⟨hlinked, -, -, htotal, -⟩ := destination_lists hrun
  exact ⟨s, hrun, hhead, hnext, fun r => (hlinked r).1, htotal.trans hsum⟩

end CfsEds.Sb
