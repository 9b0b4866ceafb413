import CfsEds.Lib.Probing
import Mathlib.Algebra.Ring.Nat
import Mathlib.Data.List.GetD

/-!
# The maps from message IDs to routes

`cfe_sbr_route_unsorted.c` adds routes to a table and asks a map for the route of a message
ID. There are two maps: `cfe_sbr_map_direct.c` has a slot for every valid ID, and
`cfe_sbr_map_hash.c` has four slots for every possible route and probes them from a hash of
the ID on. `hash_map_eq_direct_map` says that both give every ID the route that was added
for it, and that the hash map's loops end.

Mirroring notes:

* A route ID is 16 bits wide, so that a configuration has fewer than `2 ^ 16` routes.
* The loops of the hash map have fuel, and are `none` when it is not enough.
* The destination list and the sequence counter of a route are those of `CfsEds.Sb.Bus`.
-/

namespace CfsEds.Sbr

open CfsEds.Lib.Loop CfsEds.Lib.Probing List Function

/-! ## Routes -/

/-- `CFE_SB_MsgId_t` -/
abbrev MsgId := BitVec 32

/-- The configuration; the size of the hash map must be a power of two. -/
structure SbrConfig where
  maxMsgIds : Nat
  highestValidMsgId : Nat
  logSize : Nat
  hsize : 4 * maxMsgIds = 2 ^ logSize
  hatom : maxMsgIds < 2 ^ 16

/-- `cfe_sbr_route_data_t`, and `CFE_SBR_MSGMAP` of the map in use. -/
structure SbrState where
  routingTbl : List MsgId
  routeIdxTop : Nat
  msgMap : List Nat

/-- The `CFE_SBR_SetRouteId` of a map: the number of collisions. -/
abbrev SetRouteId := SbrState → MsgId → Nat → Option (Nat × SbrState)

/-- `CFE_SB_IsValidMsgId` -/
def isValidMsgId (cfg : SbrConfig) (msgId : MsgId) : Bool :=
  msgId ≠ 0 && msgId.toNat ≤ cfg.highestValidMsgId

/-- `CFE_SBR_IsValidRouteId` -/
def isValidRouteId (cfg : SbrConfig) (routeId : Nat) : Bool :=
  routeId ≠ 0 && routeId ≤ cfg.maxMsgIds

/-- `CFE_SBR_ValueToRouteId` -/
def valueToRouteId (value : Nat) : Nat := (1 + value) % 2 ^ 16

/-- `CFE_SBR_RouteIdToValue` -/
def routeIdToValue (routeId : Nat) : Nat := (routeId + 2 ^ 16 - 1) % 2 ^ 16

/-- `CFE_SBR_GetMsgId` -/
def getMsgId (cfg : SbrConfig) (s : SbrState) (routeId : Nat) : MsgId :=
  if isValidRouteId cfg routeId then s.routingTbl.getD (routeIdToValue routeId) 0 else 0

/-- `CFE_SBR_Init` with a map of `mapSize` slots. -/
def sbrInit (cfg : SbrConfig) (mapSize : Nat) : SbrState :=
  ⟨List.replicate cfg.maxMsgIds 0, 0, List.replicate mapSize 0⟩

/-- `CFE_SBR_AddRoute` over the `CFE_SBR_SetRouteId` of a map: the route ID and the number
of collisions. -/
def addRoute (cfg : SbrConfig) (setRouteId : SetRouteId)
    (s : SbrState) (msgId : MsgId) : Option ((Nat × Nat) × SbrState) :=
  if isValidMsgId cfg msgId ∧ s.routeIdxTop < cfg.maxMsgIds then
    (setRouteId s msgId (valueToRouteId s.routeIdxTop)).map fun (collisions, s') =>
      ((valueToRouteId s.routeIdxTop, collisions),
        { s' with routingTbl := s'.routingTbl.set s'.routeIdxTop msgId
                  routeIdxTop := (s'.routeIdxTop + 1) % 2 ^ 16 })
  else some ((0, 0), s)

/-- A sequence of calls of `CFE_SBR_AddRoute`, with the route IDs they return. -/
def addRoutes (cfg : SbrConfig) (setRouteId : SetRouteId)
    (s : SbrState) : List MsgId → Option (List Nat × SbrState)
  | [] => some ([], s)
  | msgId :: rest =>
    match addRoute cfg setRouteId s msgId with
    | none => none
    | some ((routeId, _), s') =>
      (addRoutes cfg setRouteId s' rest).map fun (routeIds, s'') => (routeId :: routeIds, s'')

/-! ## The hash map -/

/-- `CFE_SBR_MSG_MAP_SIZE` of the hash map -/
def hashMapSize (cfg : SbrConfig) : Nat := 4 * cfg.maxMsgIds

/-- `CFE_SBR_MsgIdHash` -/
def msgIdHash (cfg : SbrConfig) (msgId : MsgId) : Nat :=
  let hash := ((msgId >>> 16) ^^^ msgId) * 0x45d9f3b#32
  let hash := ((hash >>> 16) ^^^ hash) * 0x45d9f3b#32
  let hash := (hash >>> 16) ^^^ hash
  (hash &&& BitVec.ofNat 32 (hashMapSize cfg - 1)).toNat

/-- Increment or loop to the start of the array. -/
def nextSlot (cfg : SbrConfig) (hash : Nat) : Nat := (hash + 1) &&& (hashMapSize cfg - 1)

/-- `CFE_SBR_SetRouteId`; the loop carries the slot and the collisions. -/
def hashSetRouteId (cfg : SbrConfig) (fuel : Nat) (s : SbrState) (msgId : MsgId)
    (routeId : Nat) : Option (Nat × SbrState) :=
  if isValidMsgId cfg msgId then
    (whileFuel (fun st => isValidRouteId cfg (s.msgMap.getD st.1 0))
      (fun st => (nextSlot cfg st.1, (st.2 + 1) % 2 ^ 32)) fuel (msgIdHash cfg msgId, 0)).map
      fun (hash, collisions) => (collisions, { s with msgMap := s.msgMap.set hash routeId })
  else some (0, s)

/-- `CFE_SBR_GetRouteId` -/
def hashGetRouteId (cfg : SbrConfig) (fuel : Nat) (s : SbrState) (msgId : MsgId) :
    Option Nat :=
  if isValidMsgId cfg msgId then
    (whileFuel (fun hash => isValidRouteId cfg (s.msgMap.getD hash 0) &&
        getMsgId cfg s (s.msgMap.getD hash 0) ≠ msgId)
      (nextSlot cfg) fuel (msgIdHash cfg msgId)).map fun hash => s.msgMap.getD hash 0
  else some 0

/-! ## The direct map -/

/-- `CFE_SBR_MSG_MAP_SIZE` of the direct map -/
def directMapSize (cfg : SbrConfig) : Nat := cfg.highestValidMsgId + 1

/-- `CFE_SBR_SetRouteId` -/
def directSetRouteId (cfg : SbrConfig) (s : SbrState) (msgId : MsgId) (routeId : Nat) :
    Option (Nat × SbrState) :=
  if isValidMsgId cfg msgId then
    some (0, { s with msgMap := s.msgMap.set msgId.toNat routeId })
  else some (0, s)

/-- `CFE_SBR_GetRouteId` -/
def directGetRouteId (cfg : SbrConfig) (s : SbrState) (msgId : MsgId) : Nat :=
  if isValidMsgId cfg msgId then s.msgMap.getD msgId.toNat 0 else 0

/-! ## What adding a route does -/

variable {cfg : SbrConfig} {s : SbrState} {ids : List MsgId} {msgId : MsgId}

/-- The route of an ID after the routes of `ids` were added, or the invalid route. -/
def routeAdded (ids : List MsgId) (msgId : MsgId) : Nat :=
  if msgId ∈ ids then ids.idxOf msgId + 1 else 0

/-- An array after one assignment. -/
theorem getD_set {α : Type} {l : List α} {i : Nat} (hi : i < l.length) (v d : α) :
    (fun p => (l.set i v).getD p d) = update (fun p => l.getD p d) i v := by
  funext p
  by_cases hp : p = i
  · subst hp
    rw [update_self, getD_eq_getElem _ _ (by rwa [length_set])]
    exact getElem_set_self _
  · rw [update_of_ne hp, getD_eq_getElem?_getD, getElem?_set_ne (Ne.symm hp), getD_eq_getElem?_getD]

/-- The routing table holds the IDs in the order they were added. -/
structure RoutesInv (cfg : SbrConfig) (ids : List MsgId) (s : SbrState) : Prop where
  top : s.routeIdxTop = ids.length
  count : ids.length ≤ cfg.maxMsgIds
  size : s.routingTbl.length = cfg.maxMsgIds
  entries : ∀ r k, ids[r]? = some k → s.routingTbl.getD r 0 = k

theorem routesInv_init (mapSize : Nat) : RoutesInv cfg [] (sbrInit cfg mapSize) where
  top := rfl
  count := Nat.zero_le _
  size := length_replicate
  entries r k hk := absurd hk (by simp)

/-- A route that is there is valid, and its ID is found. -/
theorem RoutesInv.getMsgId_eq (h : RoutesInv cfg ids s) {routeId : Nat} {k : MsgId}
    (hk : ids[routeId - 1]? = some k) (h0 : routeId ≠ 0) :
    isValidRouteId cfg routeId = true ∧ getMsgId cfg s routeId = k := by
  have hlt : routeId - 1 < ids.length := by
    by_contra hge
    rw [getElem?_eq_none (Nat.not_lt.1 hge)] at hk
    cases hk
  have hcount := h.count
  have hatom := cfg.hatom
  have hvalid : isValidRouteId cfg routeId = true := by
    simp only [isValidRouteId, ne_eq, decide_not, Bool.and_eq_true, decide_eq_true_eq,
      Bool.not_eq_true', decide_eq_false_iff_not]
    omega
  refine ⟨hvalid, ?_⟩
  unfold getMsgId routeIdToValue
  rw [if_pos hvalid, show (routeId + 2 ^ 16 - 1) % 2 ^ 16 = routeId - 1 by omega]
  exact h.entries _ k hk

/-- A call that adds a route, when the map's own part succeeds. -/
theorem RoutesInv.add {set : SetRouteId}
    (h : RoutesInv cfg ids s) (hvalid : isValidMsgId cfg msgId = true)
    (hroom : ids.length < cfg.maxMsgIds) {collisions : Nat} {msgMap : List Nat}
    (hset : set s msgId (ids.length + 1) = some (collisions, { s with msgMap := msgMap })) :
    ∃ s', addRoute cfg set s msgId = some ((ids.length + 1, collisions), s') ∧
      RoutesInv cfg (ids ++ [msgId]) s' ∧ s'.msgMap = msgMap := by
  have hatom := cfg.hatom
  have hid : valueToRouteId s.routeIdxTop = ids.length + 1 := by
    unfold valueToRouteId
    rw [h.top]
    omega
  unfold addRoute
  rw [if_pos ⟨hvalid, by rw [h.top]; exact hroom⟩, hid, hset]
  refine ⟨_, rfl, ⟨?_, ?_, ?_, ?_⟩, rfl⟩
  · show (s.routeIdxTop + 1) % 2 ^ 16 = (ids ++ [msgId]).length
    rw [h.top, List.length_append, List.length_singleton]
    omega
  · rw [List.length_append, List.length_singleton]
    omega
  · show (s.routingTbl.set s.routeIdxTop msgId).length = _
    rw [length_set, h.size]
  · intro r k hk
    have hset' := congrFun (getD_set (l := s.routingTbl) (i := s.routeIdxTop)
      (by rw [h.top, h.size]; exact hroom) msgId 0) r
    show (s.routingTbl.set s.routeIdxTop msgId).getD r 0 = k
    rw [hset', h.top]
    rcases Nat.lt_or_ge r ids.length with hr | hr
    · rw [update_of_ne (Nat.ne_of_lt hr)]
      exact h.entries r k (by rwa [getElem?_append_left hr] at hk)
    obtain ⟨hr', hk'⟩ := List.getElem?_eq_some_iff.1 hk
    rw [List.length_append, List.length_singleton] at hr'
    obtain rfl : r = ids.length := by omega
    rw [← hk']
    simp

/-- What every added route keeps holds after a sequence of them. -/
theorem addRoutes_inv {set : SetRouteId} {Inv : List MsgId → SbrState → Prop}
    (hstep : ∀ ids s msgId, Inv ids s → isValidMsgId cfg msgId = true → ids.length < cfg.maxMsgIds →
      ∃ collisions s', addRoute cfg set s msgId = some ((ids.length + 1, collisions), s') ∧
        Inv (ids ++ [msgId]) s') :
    ∀ (rest ids : List MsgId) (s : SbrState), Inv ids s →
      (∀ msgId ∈ rest, isValidMsgId cfg msgId = true) →
      ids.length + rest.length ≤ cfg.maxMsgIds →
      ∃ s', addRoutes cfg set s rest = some (List.range' (ids.length + 1) rest.length, s') ∧
        Inv (ids ++ rest) s' := by
  intro rest
  induction rest with
  | nil =>
    intro ids s h _ _
    exact ⟨s, rfl, by rwa [append_nil]⟩
  | cons msgId rest ih =>
    intro ids s h hvalid hcount
    rw [length_cons] at hcount
    obtain ⟨collisions, s', hadd, h'⟩ := hstep ids s msgId h (hvalid msgId mem_cons_self) (by omega)
    obtain ⟨s'', hrest, h''⟩ := ih (ids ++ [msgId]) s' h'
      (fun k hk => hvalid k (mem_cons_of_mem _ hk))
      (by rw [List.length_append, List.length_singleton]; omega)
    refine ⟨s'', ?_, by rwa [append_assoc, singleton_append] at h''⟩
    rw [List.length_append, List.length_singleton] at hrest
    unfold addRoutes
    rw [hadd]
    simp only [hrest, Option.map_some, length_cons, List.range'_succ]

/-! ## The hash map is a probed table -/

/-- The routing table, and the map as a table that is probed from the hash of an ID. -/
structure HashInv (cfg : SbrConfig) (ids : List MsgId) (s : SbrState) : Prop where
  routes : RoutesInv cfg ids s
  mapSize : s.msgMap.length = hashMapSize cfg
  probe : ProbeInv (hashMapSize cfg) (msgIdHash cfg) ids fun p => s.msgMap.getD p 0

theorem hashMapSize_pos (cfg : SbrConfig) : 0 < hashMapSize cfg := by
  unfold hashMapSize
  rw [cfg.hsize]
  exact Nat.two_pow_pos _

theorem msgIdHash_lt (cfg : SbrConfig) (msgId : MsgId) : msgIdHash cfg msgId < hashMapSize cfg := by
  have hpos := hashMapSize_pos cfg
  unfold msgIdHash
  refine Nat.lt_of_le_of_lt Nat.and_le_right ?_
  exact Nat.lt_of_le_of_lt (Nat.mod_le _ _) (by omega)

theorem nextSlot_eq (cfg : SbrConfig) (hash : Nat) :
    nextSlot cfg hash = (hash + 1) % hashMapSize cfg := by
  unfold nextSlot hashMapSize
  rw [cfg.hsize, Nat.and_two_pow_sub_one_eq_mod]

/-- Every slot is free or has a route that was added. -/
theorem HashInv.slot_le (h : HashInv cfg ids s) (p : Nat) : s.msgMap.getD p 0 ≤ ids.length := by
  rcases Nat.lt_or_ge p (hashMapSize cfg) with hp | hp
  · exact h.probe.known p hp
  · rw [getD_eq_default _ _ (by rw [h.mapSize]; exact hp)]
    exact Nat.zero_le _

/-- The route IDs in the map that are valid are those that are not zero. -/
theorem HashInv.isValidRouteId_iff (h : HashInv cfg ids s) (p : Nat) :
    isValidRouteId cfg (s.msgMap.getD p 0) = true ↔ s.msgMap.getD p 0 ≠ 0 := by
  have hle := h.slot_le p
  have hcount := h.routes.count
  simp only [isValidRouteId, ne_eq, decide_not, Bool.and_eq_true, decide_eq_true_eq,
    Bool.not_eq_true', decide_eq_false_iff_not]
  omega

/-- The first free slot is found, and the new entry is where a search meets it. -/
theorem HashInv.add (h : HashInv cfg ids s) {fuel : Nat} (hfuel : hashMapSize cfg ≤ fuel)
    (hvalid : isValidMsgId cfg msgId = true) (hroom : ids.length < cfg.maxMsgIds) :
    ∃ collisions s', addRoute cfg (hashSetRouteId cfg fuel) s msgId =
      some ((ids.length + 1, collisions), s') ∧ HashInv cfg (ids ++ [msgId]) s' := by
  obtain ⟨⟨hash, collisions⟩, j, hloop, hhash, hfree, hbefore⟩ := exists_walk
    (fun st : Nat × Nat => isValidRouteId cfg (s.msgMap.getD st.1 0))
    (fun st => (nextSlot cfg st.1, (st.2 + 1) % 2 ^ 32)) Prod.fst (fun p => s.msgMap.getD p 0 = 0)
    (s := (msgIdHash cfg msgId, 0)) hfuel (fun st => h.isValidRouteId_iff st.1)
    (fun st => nextSlot_eq cfg st.1) (msgIdHash_lt cfg msgId)
    (h.probe.exists_free (by unfold hashMapSize; omega))
  have hset : hashSetRouteId cfg fuel s msgId (ids.length + 1) = some (collisions, { s with
        msgMap := s.msgMap.set ((msgIdHash cfg msgId + j) % hashMapSize cfg) (ids.length + 1) }) := by
    unfold hashSetRouteId
    rw [if_pos hvalid, hloop, ← hhash]
    rfl
  obtain ⟨s', hadd, hroutes, hmap⟩ := h.routes.add hvalid hroom hset
  refine ⟨collisions, s', hadd, hroutes, ?_, ?_⟩
  · rw [hmap, length_set, h.mapSize]
  · rw [hmap, getD_set (by rw [h.mapSize]; exact Nat.mod_lt _ (hashMapSize_pos cfg))]
    exact h.probe.insert hfree hbefore

/-- A search ends, at the route that was added for the ID or at a free slot. -/
theorem HashInv.get (h : HashInv cfg ids s) (hdistinct : ids.Nodup)
    (hids : ∀ k ∈ ids, isValidMsgId cfg k = true) {fuel : Nat}
    (hfuel : hashMapSize cfg ≤ fuel) (msgId : MsgId) :
    hashGetRouteId cfg fuel s msgId = some (routeAdded ids msgId) := by
  unfold hashGetRouteId
  split
  · have hroom : ids.length < hashMapSize cfg := by
      have hpos := hashMapSize_pos cfg
      have hcount := h.routes.count
      unfold hashMapSize at hpos ⊢
      omega
    obtain ⟨p, hp, h0⟩ := h.probe.exists_free hroom
    obtain ⟨hash, j, hloop, hhash, hstop, hbefore⟩ := exists_walk
      (fun hash => isValidRouteId cfg (s.msgMap.getD hash 0) &&
        getMsgId cfg s (s.msgMap.getD hash 0) ≠ msgId)
      (nextSlot cfg) (fun p => p)
      (fun p => s.msgMap.getD p 0 = 0 ∨ ids[s.msgMap.getD p 0 - 1]? = some msgId)
      (s := msgIdHash cfg msgId) hfuel (fun hash => by
        rw [Bool.and_eq_true, h.isValidRouteId_iff, decide_eq_true_eq, not_or]
        refine and_congr_right fun hne => not_congr ?_
        have hin : s.msgMap.getD hash 0 - 1 < ids.length := by
          have hle := h.slot_le hash
          omega
        rw [(h.routes.getMsgId_eq (getElem?_eq_getElem hin) hne).2,
          getElem?_eq_getElem hin, Option.some.injEq])
      (nextSlot_eq cfg) (msgIdHash_lt cfg msgId) ⟨p, hp, .inl h0⟩
    rw [hloop, hhash]
    exact congrArg some (h.probe.found hdistinct hstop hbefore)
  · next hinvalid =>
    rw [routeAdded, if_neg fun hmem => hinvalid (hids msgId hmem)]

/-! ## The direct map is the function itself -/

structure DirectInv (cfg : SbrConfig) (ids : List MsgId) (s : SbrState) : Prop where
  routes : RoutesInv cfg ids s
  mapSize : s.msgMap.length = directMapSize cfg
  direct : ids.Nodup → ∀ msgId, isValidMsgId cfg msgId = true →
    s.msgMap.getD msgId.toNat 0 = routeAdded ids msgId

theorem routeAdded_append (hnew : msgId ∉ ids) (k : MsgId) :
    routeAdded (ids ++ [msgId]) k = if k = msgId then ids.length + 1 else routeAdded ids k := by
  unfold routeAdded
  by_cases hk : k = msgId
  · subst hk
    simp [idxOf_append, hnew]
  · by_cases hmem : k ∈ ids <;> simp [idxOf_append, hk, hmem]

theorem DirectInv.add (h : DirectInv cfg ids s)
    (hvalid : isValidMsgId cfg msgId = true) (hroom : ids.length < cfg.maxMsgIds) :
    ∃ collisions s', addRoute cfg (directSetRouteId cfg) s msgId =
      some ((ids.length + 1, collisions), s') ∧ DirectInv cfg (ids ++ [msgId]) s' := by
  have hset : directSetRouteId cfg s msgId (ids.length + 1) =
      some (0, { s with msgMap := s.msgMap.set msgId.toNat (ids.length + 1) }) := by
    unfold directSetRouteId
    rw [if_pos hvalid]
  obtain ⟨s', hadd, hroutes, hmap⟩ := h.routes.add hvalid hroom hset
  refine ⟨0, s', hadd, hroutes, ?_, ?_⟩
  · rw [hmap, length_set, h.mapSize]
  · intro hdistinct k hk
    have hin : msgId.toNat < s.msgMap.length := by
      simp only [isValidMsgId, Bool.and_eq_true, decide_eq_true_eq] at hvalid
      rw [h.mapSize, directMapSize]
      omega
    obtain ⟨hold, -, hnew⟩ := nodup_append.1 hdistinct
    have hnotin : msgId ∉ ids := fun hmem =>
      hnew msgId hmem msgId (mem_singleton.2 rfl) rfl
    have hslot := congrFun (getD_set hin (ids.length + 1) 0) k.toNat
    rw [hmap, hslot, routeAdded_append hnotin]
    by_cases hkm : k = msgId
    · rw [if_pos hkm, hkm, update_self]
    · rw [if_neg hkm, update_of_ne fun heq => hkm (BitVec.eq_of_toNat_eq heq)]
      exact h.direct hold k hk

/-- After routes were added for distinct valid IDs, and after every prefix of that sequence,
both maps have handed out the same routes and give every ID its own. -/
theorem hash_map_eq_direct_map (cfg : SbrConfig) (msgIds : List MsgId)
    (hvalid : ∀ msgId ∈ msgIds, isValidMsgId cfg msgId = true)
    (hdistinct : msgIds.Nodup) (hcount : msgIds.length ≤ cfg.maxMsgIds)
    (fuel : Nat) (hfuel : hashMapSize cfg ≤ fuel) (ids : List MsgId) (hpre : ids <+: msgIds) :
    ∃ s d, addRoutes cfg (hashSetRouteId cfg fuel) (sbrInit cfg (hashMapSize cfg)) ids =
        some (List.range' 1 ids.length, s) ∧
      addRoutes cfg (directSetRouteId cfg) (sbrInit cfg (directMapSize cfg)) ids =
        some (List.range' 1 ids.length, d) ∧
      ∀ msgId, hashGetRouteId cfg fuel s msgId = some (routeAdded ids msgId) ∧
        directGetRouteId cfg d msgId = routeAdded ids msgId := by
  have hids : ∀ k ∈ ids, isValidMsgId cfg k = true := fun k hk => hvalid k (hpre.subset hk)
  have hnodup : ids.Nodup := hdistinct.sublist hpre.sublist
  have hlen : ids.length ≤ cfg.maxMsgIds := Nat.le_trans hpre.length_le hcount
  have hzero : ∀ n, (fun p => (List.replicate n 0).getD p 0) = fun _ => 0 := by
    intro n
    funext p
    rw [getD_eq_getElem?_getD, getElem?_replicate]
    split <;> rfl
  obtain ⟨s, hs, hsinv⟩ := addRoutes_inv (fun _ _ _ h hk hroom => HashInv.add h hfuel hk hroom)
    ids [] (sbrInit cfg (hashMapSize cfg))
    ⟨routesInv_init _, length_replicate, by
      show ProbeInv _ _ _ (fun p => (List.replicate (hashMapSize cfg) 0).getD p 0)
      rw [hzero]
      exact probeInv_nil⟩ hids (by simpa using hlen)
  obtain ⟨d, hd, hdinv⟩ := addRoutes_inv (fun _ _ _ h hk hroom => DirectInv.add h hk hroom)
    ids [] (sbrInit cfg (directMapSize cfg))
    ⟨routesInv_init _, length_replicate, fun _ k _ => congrFun (hzero _) k.toNat⟩ hids
    (by simpa using hlen)
  refine ⟨s, d, hs, hd, fun msgId => ⟨hsinv.get hnodup hids hfuel msgId, ?_⟩⟩
  unfold directGetRouteId
  split
  · next hk => exact hdinv.direct hnodup msgId hk
  · next hk => rw [routeAdded, if_neg fun hmem => hk (hids msgId hmem)]

/-- Four routes, as many as there can be. -/
def fourRoutes : SbrConfig where
  maxMsgIds := 4
  highestValidMsgId := 0x1fff
  logSize := 4
  hsize := by decide
  hatom := by decide

theorem hash_map_eq_direct_map_four : ∃ s d, ∀ msgId,
    hashGetRouteId fourRoutes 16 s msgId = some (directGetRouteId fourRoutes d msgId) := by
  obtain ⟨s, d, -, -, h⟩ := hash_map_eq_direct_map fourRoutes [0x1801, 0x1803, 0x801, 0x1fff]
    (by simp [isValidMsgId, fourRoutes]) (by simp) (by decide) 16 (by decide) _ prefix_rfl
  exact ⟨s, d, fun msgId => (h msgId).1.trans (congrArg some (h msgId).2.symm)⟩

end CfsEds.Sbr
