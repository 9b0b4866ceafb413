import CfsEds.Osal.IdMap
import Mathlib.Algebra.Order.BigOperators.Group.List
import Mathlib.Algebra.Order.Ring.Nat

/-!
# Clean-up of the resources of a task

`CFE_ES_CleanupTaskResources` deletes the OSAL objects of a task in passes over all objects, until
a pass finds none, or one more pass after the number of found objects did not go down. What a pass
finds is up to the delete calls and to the other tasks: for every pass, type and entry of the
table, `visit` has the type of the task's object that is there when the iteration comes by, and
whether its delete call returns `OS_SUCCESS`. Nothing is assumed about it.

The loop ends all the same. While the number of found objects goes down it bounds the passes that
are left, and the first pass in which it does not is the last but one (`cleanupLoop_ends`). That the
counters of 32 bits do not wrap around follows from the sizes of the OSAL tables.
-/

namespace CfsEds.Es

open CfsEds.Osal List

/-- The codes of the function -/
inductive CleanupStatus where
  | success
  | errChildTaskDelete
  | queueDeleteErr
  | binSemDeleteErr
  | countSemDeleteErr
  | mutSemDeleteErr
  | timerDeleteErr
  | appCleanupErr
  | taskDeleteErr
  deriving DecidableEq

/-- `CFE_ES_CleanupState_t`, as it is before the first pass -/
structure CleanupState where
  errorFlag : Bool := false
  foundObjects : BitVec 32 := 0
  prevFoundObjects : BitVec 32 := 0 - 1
  deletedObjects : BitVec 32 := 0
  overallStatus : CleanupStatus := .success

/-- The code for an object that cannot be deleted, if its type is handled. -/
def deleteError : Nat → Option CleanupStatus
  | 0x01 => some .errChildTaskDelete
  | 0x02 => some .queueDeleteErr
  | 0x03 => some .countSemDeleteErr
  | 0x04 => some .binSemDeleteErr
  | 0x05 => some .mutSemDeleteErr
  | 0x06 => some .appCleanupErr
  | 0x09 => some .timerDeleteErr
  | 0x0A => some .appCleanupErr
  | _ => none

/-- `CFE_ES_CleanupObjectCallback` -/
def cleanupObjectCallback (st : CleanupState) (object : Nat × Bool) : CleanupState :=
  (deleteError object.1).elim st fun code =>
    let st := { st with foundObjects := st.foundObjects + 1 }
    if object.2 then { st with deletedObjects := st.deletedObjects + 1 }
    else if st.overallStatus = .success then { st with overallStatus := code }
    else st

/-- The objects that `OS_ForEachObject` comes by -/
def forEachObject (cfg : OsConfig) (visit : Nat → Nat → Option (Nat × Bool)) : List (Nat × Bool) :=
  (range objectTypeUser).flatMap fun idtype =>
    (range (cfg.getMaxForObjectType idtype)).filterMap (visit idtype)

/-- The state for the next pass; the flag is set if the number of objects did not go down. -/
def CleanupState.next (st : CleanupState) : CleanupState where
  errorFlag := decide (st.deletedObjects = 0 ∨ st.foundObjects ≥ st.prevFoundObjects)
  prevFoundObjects := st.foundObjects
  overallStatus := st.overallStatus

/-- The loop of `CFE_ES_CleanupTaskResources` with `n` passes left: the number of passes, and the
state at the end. -/
def cleanupLoop (objects : Nat → List (Nat × Bool)) :
    Nat → Nat → CleanupState → Option (Nat × CleanupState)
  | 0, _, _ => none
  | n + 1, pass, st =>
    let st := (objects pass).foldl cleanupObjectCallback st
    if st.foundObjects = 0 ∨ st.errorFlag = true then some (pass + 1, st)
    else cleanupLoop objects n (pass + 1) st.next

/-- `CFE_ES_CleanupTaskResources`, in at most `n` passes; `taskDelete` is what `OS_TaskDelete`
returns for the task itself. -/
def cleanupTaskResources (cfg : OsConfig) (visit : Nat → Nat → Nat → Option (Nat × Bool))
    (taskDelete : Osal.Status) (n : Nat) : Option (Nat × CleanupStatus) :=
  (cleanupLoop (fun pass => forEachObject cfg (visit pass)) n 0 {}).map fun (passes, st) =>
    (passes,
      if taskDelete = .success ∨ taskDelete = .invalidId then
        if st.overallStatus = .success ∧ 0 < st.foundObjects then .appCleanupErr
        else st.overallStatus
      else .taskDeleteErr)

/-- The objects of a pass that have a handled type -/
def handled (objects : List (Nat × Bool)) : List (Nat × Bool) :=
  objects.filter fun object => (deleteError object.1).isSome

theorem deleteError_ne_success (ty : Nat) : deleteError ty ≠ some .success := by
  unfold deleteError
  split <;> simp

/-- What the callback leaves of the state, for the objects of a pass -/
structure Passed (objects : List (Nat × Bool)) (st st' : CleanupState) : Prop where
  errorFlag : st'.errorFlag = st.errorFlag
  prevFoundObjects : st'.prevFoundObjects = st.prevFoundObjects
  foundObjects : st'.foundObjects = st.foundObjects + BitVec.ofNat 32 (handled objects).length
  overallStatus : st'.overallStatus = .success →
    st.overallStatus = .success ∧ ∀ object ∈ handled objects, object.2 = true

theorem callback_passed (st : CleanupState) (object : Nat × Bool) :
    Passed [object] st (cleanupObjectCallback st object) := by
  have hne := deleteError_ne_success object.1
  unfold cleanupObjectCallback
  cases hcode : deleteError object.1 with
  | none => constructor <;> simp [handled, hcode]
  | some code =>
    rw [hcode] at hne
    by_cases hdeleted : object.2 = true
    · constructor <;> simp [handled, hcode, hdeleted]
    by_cases hstatus : st.overallStatus = .success
    · constructor <;> simp_all [handled]
    · constructor <;> simp_all [handled]

/-- A pass over the objects -/
theorem foldl_passed (objects : List (Nat × Bool)) (st : CleanupState) :
    Passed objects st (objects.foldl cleanupObjectCallback st) := by
  induction objects generalizing st with
  | nil => constructor <;> simp [handled]
  | cons object objects ih =>
    have hfirst := callback_passed st object
    have hrest := ih (cleanupObjectCallback st object)
    have hboth : handled ([object] ++ objects) = handled [object] ++ handled objects :=
      filter_append ..
    rw [singleton_append] at hboth
    refine ⟨hrest.errorFlag.trans hfirst.errorFlag,
      hrest.prevFoundObjects.trans hfirst.prevFoundObjects, ?_, fun hsuccess => ?_⟩
    · rw [foldl_cons, hrest.foundObjects, hfirst.foundObjects, hboth, length_append,
        BitVec.ofNat_add, BitVec.add_assoc]
    · obtain ⟨hsuccess, hdeleted⟩ := hrest.overallStatus hsuccess
      obtain ⟨hsuccess, hdeleted'⟩ := hfirst.overallStatus hsuccess
      rw [hboth, forall_mem_append]
      exact ⟨hsuccess, hdeleted', hdeleted⟩

/-- The loop ends in two passes, or one more for every object if their number goes down. -/
theorem cleanupLoop_ends {objects : Nat → List (Nat × Bool)}
    (hlen : ∀ p, (handled (objects p)).length < 2 ^ 32) (n : Nat) :
    ∀ p st, st.foundObjects = 0 → 0 < n →
      (st.errorFlag = false → 2 ≤ n ∧
        ((handled (objects p)).length < st.prevFoundObjects.toNat →
          (handled (objects p)).length + 2 ≤ n)) →
      ∃ k st', cleanupLoop objects n p st = some (p + k + 1, st') ∧
        st'.foundObjects = BitVec.ofNat 32 (handled (objects (p + k))).length ∧
        (st'.overallStatus = .success → st.overallStatus = .success ∧
          ∀ q ≤ k, ∀ object ∈ handled (objects (p + q)), object.2 = true) := by
  induction n with
  | zero => exact fun _ _ _ hpos => absurd hpos (Nat.lt_irrefl 0)
  | succ n ih =>
    intro p st hzero _ hleft
    have hpass := foldl_passed (objects p) st
    have hfound := hpass.foundObjects
    rw [hzero, zero_add] at hfound
    unfold cleanupLoop
    generalize (objects p).foldl cleanupObjectCallback st = st₁ at hpass hfound
    dsimp only
    split
    · refine ⟨0, st₁, rfl, hfound, fun hsuccess => ?_⟩
      obtain ⟨hsuccess, hdeleted⟩ := hpass.overallStatus hsuccess
      exact ⟨hsuccess, fun q hq => Nat.le_zero.1 hq ▸ hdeleted⟩
    rename_i hgoes
    obtain ⟨hsome, herror⟩ := not_or.1 hgoes
    rw [hpass.errorFlag, Bool.not_eq_true] at herror
    obtain ⟨htwo, hdown⟩ := hleft herror
    have hcount : st₁.foundObjects.toNat = (handled (objects p)).length := by
      rw [hfound, BitVec.toNat_ofNat, Nat.mod_eq_of_lt (hlen p)]
    have hpos : st₁.foundObjects.toNat ≠ 0 := fun h => hsome (BitVec.eq_of_toNat_eq h)
    obtain ⟨k, st', hloop, hlast, hall⟩ := ih (p + 1) st₁.next rfl (by omega) fun hflag => by
      have hless := (not_or.1 (of_decide_eq_false hflag)).2
      rw [ge_iff_le, BitVec.le_def, hpass.prevFoundObjects] at hless
      change _ ∧ (_ < st₁.foundObjects.toNat → _)
      omega
    have hnext (q : Nat) : p + (q + 1) = p + 1 + q := by omega
    refine ⟨k + 1, st', by rw [hloop, hnext k], by rw [hlast, hnext k], fun hsuccess => ?_⟩
    obtain ⟨hsuccess, hrest⟩ := hall hsuccess
    obtain ⟨hsuccess, hdeleted⟩ := hpass.overallStatus hsuccess
    refine ⟨hsuccess, fun q hq => ?_⟩
    cases q with
    | zero => exact hdeleted
    | succ q =>
      rw [hnext]
      exact hrest q (by omega)

/-- A pass comes by every entry once. -/
theorem length_forEachObject (cfg : OsConfig) (visit : Nat → Nat → Option (Nat × Bool)) :
    (forEachObject cfg visit).length ≤ 16 * 65535 := by
  unfold forEachObject
  rw [length_flatMap]
  refine (sum_le_card_nsmul _ 65535 fun n hn => ?_).trans (by simp [objectTypeUser])
  obtain ⟨ty, -, rfl⟩ := mem_map.1 hn
  refine (length_filterMap_le _ _).trans ?_
  rw [length_range]
  by_cases hmax : cfg.getMaxForObjectType ty = 0
  · omega
  · exact (OsConfig.type_of_max hmax).2.2

/-- Whatever the delete calls do, the clean-up ends after at most two passes more than there are
objects in the first one. It is successful only if the last pass has found nothing, every object
that was found in any pass has been deleted, and the task is gone. -/
theorem cleanup_ends_honestly (cfg : OsConfig) (visit : Nat → Nat → Nat → Option (Nat × Bool))
    (taskDelete : Osal.Status) :
    let found pass := handled (forEachObject cfg (visit pass))
    ∃ passes status, cleanupTaskResources cfg visit taskDelete ((found 0).length + 2) =
        some (passes + 1, status) ∧
      (status = .success → found passes = [] ∧
        (∀ pass ≤ passes, ∀ object ∈ found pass, object.2 = true) ∧
        (taskDelete = .success ∨ taskDelete = .invalidId)) := by
  intro found
  have hlen (p : Nat) : (found p).length < 2 ^ 32 := by
    have hle := length_forEachObject cfg (visit p)
    have hfilter : (found p).length ≤ _ := length_filter_le ..
    omega
  obtain ⟨k, st, hloop, hlast, hall⟩ := cleanupLoop_ends hlen ((found 0).length + 2) 0 {} rfl
    (by omega) fun _ => ⟨by omega, fun _ => le_rfl⟩
  rw [Nat.zero_add] at hloop hlast
  refine ⟨k, _, by rw [cleanupTaskResources, hloop]; rfl, fun hsuccess => ?_⟩
  split_ifs at hsuccess with htask hleft
  have hnone : st.foundObjects = 0 := by
    by_contra hne
    exact hleft ⟨hsuccess, by bv_omega⟩
  refine ⟨length_eq_zero_iff.1 ?_, fun pass hp => ?_, htask⟩
  · have htoNat := congrArg BitVec.toNat (hlast.symm.trans hnone)
    rwa [BitVec.toNat_ofNat, Nat.mod_eq_of_lt (hlen k)] at htoNat
  · have hdeleted := (hall hsuccess).2 pass hp
    rwa [Nat.zero_add] at hdeleted

end CfsEds.Es
