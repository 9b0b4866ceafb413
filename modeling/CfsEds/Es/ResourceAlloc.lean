import CfsEds.Es.ResourceId
import Mathlib.Logic.Function.Basic

/-!
# Issuing resource IDs

`CFE_ResourceId_FindNext` goes through the IDs after the last one issued until it finds one
whose slot of the table is free. When the serial number reaches `CFE_RESOURCEID_MAX` it
continues with the same slot at a small serial number, so that `n` IDs in a row lead to
`n` different slots. That holds as long as every slot has a serial number, for tables of at
most 65536 entries.

`Allocations` is a table of one type over its whole life. A slot is taken from the moment it
is reserved until it is set free; in between belongs what `CFE_SB_CreatePipe` and its like do
with the entry. An ID is not issued again as long as its slot is taken, and not before the
serial number has wrapped around.
-/

namespace CfsEds.Es

open CfsEds.Lib.Memory Function Option Bool

/-- A type of resources with the size of its table: the base value is one of
`CFE_RESOURCEID_MAKE_BASE`, and every entry has a serial number. -/
structure ResourceType where
  base : Nat
  tableSize : Nat
  hbase : 0 < base ∧ base % 2 ^ 16 = 0 ∧ base < 2 ^ 32
  htable : tableSize ≤ 2 ^ 16

/-- The function that callers pass: an ID that leads to no slot is as good as taken. -/
def checkSlotUsed (base tableSize : Nat) (used : Nat → Bool) (checkId : Nat) : Bool :=
  (resourceIdToIndex checkId base tableSize).elim true used

/-- The next serial number of the scan. -/
def nextSerial (tableSize serial : Nat) : Nat :=
  if serial + 1 ≥ resourceIdMax then (serial + 1) % tableSize else serial + 1

section Scan

variable {R : ResourceType} {used : Nat → Bool} {serial : Nat}

theorem base_and (R : ResourceType) (h : serial ≤ resourceIdMax) :
    (R.base + serial) &&& resourceIdMax = serial := by
  have hbase := R.hbase
  unfold resourceIdMax at h ⊢
  rw [show (0xffff : Nat) = 2 ^ 16 - 1 from rfl, Nat.and_two_pow_sub_one_eq_mod]
  omega

theorem and_base (R : ResourceType) (h : serial ≤ resourceIdMax) :
    (R.base + serial) &&& (2 ^ 32 - 1 - resourceIdMax) = R.base := by
  obtain ⟨-, haligned, hlt⟩ := R.hbase
  unfold resourceIdMax at h ⊢
  obtain ⟨k, hk⟩ := Nat.dvd_of_mod_eq_zero haligned
  have hmask : 2 ^ 32 - 1 - 0xffff = (2 ^ 16 - 1) * 2 ^ 16 := rfl
  rw [hk, hmask]
  apply Nat.eq_of_testBit_eq
  intro i
  rw [Nat.testBit_and, Nat.testBit_mul_two_pow, Nat.testBit_two_pow_sub_one,
    Nat.testBit_two_pow_mul_add k (by omega), Nat.mul_comm, Nat.testBit_mul_two_pow]
  by_cases hi : i < 16
  · simp [hi, Nat.not_le.mpr hi]
  by_cases hi' : i - 16 < 16
  · simp [hi, hi', Nat.le_of_not_lt hi]
  -- above the base value there are no bits
  have hzero : k.testBit (i - 16) = false := by
    apply Nat.testBit_lt_two_pow
    have hpow : 2 ^ 16 ≤ 2 ^ (i - 16) := Nat.pow_le_pow_right (by decide) (by omega)
    omega
  simp [hi, hzero]

theorem toIndex_serial (R : ResourceType) (h : serial ≤ resourceIdMax) (hpos : 0 < R.tableSize) :
    resourceIdToIndex (R.base + serial) R.base R.tableSize = some (serial % R.tableSize) := by
  have hserial : uint32 (R.base + serial + 2 ^ 32 - R.base) = serial := by
    unfold uint32
    unfold resourceIdMax at h
    omega
  unfold resourceIdToIndex
  rw [hserial]
  exact if_neg (by omega)

theorem toIndex_undefined (R : ResourceType) :
    resourceIdToIndex resourceIdUndefined R.base R.tableSize = none := by
  obtain ⟨hpos, haligned, hlt⟩ := R.hbase
  have hserial : uint32 (resourceIdUndefined + 2 ^ 32 - R.base) > resourceIdMax := by
    unfold uint32 resourceIdUndefined resourceIdMax
    omega
  exact if_pos (.inl hserial)

theorem nextSerial_le (htable : 0 < R.tableSize) : nextSerial R.tableSize serial ≤ resourceIdMax := by
  have hsize := R.htable
  have hmod := Nat.mod_lt (serial + 1) htable
  unfold nextSerial
  unfold resourceIdMax
  split <;> omega

/-- The slots come one after the other. -/
theorem nextSerial_mod (n serial : Nat) : nextSerial n serial % n = (serial + 1) % n := by
  unfold nextSerial
  split
  · rw [Nat.mod_mod]
  · rfl

/-- The scan over `count` serial numbers: it ends with the first one whose slot is free, or
all the slots were taken. -/
theorem findNextLoop_scan (htable : 0 < R.tableSize) (count : Nat) : ∀ serial,
    (findNextLoop R.base R.tableSize (checkSlotUsed R.base R.tableSize used) count serial =
        resourceIdUndefined ∧
      ∀ k, 0 < k → k ≤ count → used ((serial + k) % R.tableSize) = true) ∨
    ∃ serial', serial' ≤ resourceIdMax ∧ used (serial' % R.tableSize) = false ∧
      findNextLoop R.base R.tableSize (checkSlotUsed R.base R.tableSize used) count serial =
        R.base + serial' := by
  induction count with
  | zero =>
    intro serial
    exact .inl ⟨rfl, fun k hpos hle => absurd hpos (by omega)⟩
  | succ count ih =>
    intro serial
    have hnext : nextSerial R.tableSize serial ≤ resourceIdMax := nextSerial_le htable
    have hid : uint32 (R.base + nextSerial R.tableSize serial) =
        R.base + nextSerial R.tableSize serial := by
      have hbase := R.hbase
      unfold resourceIdMax at hnext
      unfold uint32
      omega
    have hcheck : checkSlotUsed R.base R.tableSize used (R.base + nextSerial R.tableSize serial) =
        used (nextSerial R.tableSize serial % R.tableSize) := by
      rw [checkSlotUsed, toIndex_serial R hnext htable]
      rfl
    have hloop : findNextLoop R.base R.tableSize (checkSlotUsed R.base R.tableSize used) (count + 1)
        serial = if used (nextSerial R.tableSize serial % R.tableSize) then
          findNextLoop R.base R.tableSize (checkSlotUsed R.base R.tableSize used) count
            (nextSerial R.tableSize serial)
        else R.base + nextSerial R.tableSize serial := by
      rw [← hcheck, ← hid]
      rfl
    rw [hloop]
    split
    · rename_i htaken
      rcases ih (nextSerial R.tableSize serial) with ⟨hnone, hall⟩ | hfound
      · refine .inl ⟨hnone, fun k hpos hle => ?_⟩
        by_cases hk : k = 1
        · rw [hk, ← nextSerial_mod]
          exact htaken
        -- the slots after the next one are those of the rest of the scan
        have hrest := hall (k - 1) (by omega) (by omega)
        rw [Nat.add_mod, nextSerial_mod, ← Nat.add_mod] at hrest
        rw [show serial + k = serial + 1 + (k - 1) by omega]
        exact hrest
      · exact .inr hfound
    · rename_i hfree
      exact .inr ⟨_, hnext, by simpa using hfree, rfl⟩

/-- `CFE_ResourceId_FindNext` from any ID of the type. -/
theorem findNext_scan (R : ResourceType) (used : Nat → Bool) (hserial : serial ≤ resourceIdMax) :
    (resourceIdFindNext (R.base + serial) R.tableSize (checkSlotUsed R.base R.tableSize used) =
        resourceIdUndefined ∧ ∀ i < R.tableSize, used i = true) ∨
    ∃ serial', serial' ≤ resourceIdMax ∧ 0 < R.tableSize ∧ used (serial' % R.tableSize) = false ∧
      resourceIdFindNext (R.base + serial) R.tableSize (checkSlotUsed R.base R.tableSize used) =
        R.base + serial' := by
  unfold resourceIdFindNext
  rw [and_base R hserial, base_and R hserial]
  rcases Nat.eq_zero_or_pos R.tableSize with hzero | htable
  · rw [hzero]
    exact .inl ⟨rfl, fun i hi => absurd hi (Nat.not_lt_zero i)⟩
  rcases findNextLoop_scan htable R.tableSize serial with ⟨hnone, hall⟩ | ⟨serial', hle, hfree, hid⟩
  · refine .inl ⟨hnone, fun i hi => ?_⟩
    -- the slot is at most a round away
    have hmod := Nat.mod_lt serial htable
    by_cases hlt : serial % R.tableSize < i
    · have hk := hall (i - serial % R.tableSize) (by omega) (by omega)
      rw [Nat.add_mod, Nat.mod_eq_of_lt (show i - serial % R.tableSize < R.tableSize by omega),
        Nat.add_sub_cancel' (Nat.le_of_lt hlt), Nat.mod_eq_of_lt hi] at hk
      exact hk
    have hk := hall (i + R.tableSize - serial % R.tableSize) (by omega) (by omega)
    have hslot : (serial + (i + R.tableSize - serial % R.tableSize)) % R.tableSize = i := by
      have hdiv := Nat.div_add_mod serial R.tableSize
      rw [show serial + (i + R.tableSize - serial % R.tableSize) =
        i + R.tableSize * (serial / R.tableSize + 1) by rw [Nat.mul_add]; omega,
        Nat.add_mul_mod_self_left, Nat.mod_eq_of_lt hi]
    rw [hslot] at hk
    exact hk
  · exact .inr ⟨serial', hle, htable, hfree, hid⟩

/-- The scan comes to `CFE_RESOURCEID_MAX` before it ends. -/
def findNextWraps (resourceType tableSize : Nat) (checkFunc : Nat → Bool) : Nat → Nat → Bool
  | 0, _ => false
  | count + 1, serial =>
    decide (serial + 1 ≥ resourceIdMax) ||
      (checkFunc (uint32 (resourceType + nextSerial tableSize serial)) &&
        findNextWraps resourceType tableSize checkFunc count (nextSerial tableSize serial))

/-- Without that the serial number has grown. -/
theorem findNextLoop_grows {checkFunc : Nat → Bool} (count : Nat) : ∀ serial,
    findNextWraps R.base R.tableSize checkFunc count serial = false →
    findNextLoop R.base R.tableSize checkFunc count serial = resourceIdUndefined ∨
      ∃ serial', serial < serial' ∧ serial' ≤ resourceIdMax ∧
        findNextLoop R.base R.tableSize checkFunc count serial = R.base + serial' := by
  induction count with
  | zero => exact fun serial _ => .inl rfl
  | succ count ih =>
    intro serial hwraps
    rw [findNextWraps, or_eq_false_iff] at hwraps
    obtain ⟨hbelow, hrest⟩ := hwraps
    have hlt : serial + 1 < resourceIdMax := by simpa using hbelow
    have hnext : nextSerial R.tableSize serial = serial + 1 := if_neg (by omega)
    have hid : uint32 (R.base + (serial + 1)) = R.base + (serial + 1) := by
      have hbase := R.hbase
      unfold resourceIdMax at hlt
      unfold uint32
      omega
    have hloop : findNextLoop R.base R.tableSize checkFunc (count + 1) serial =
        if checkFunc (R.base + (serial + 1)) then
          findNextLoop R.base R.tableSize checkFunc count (serial + 1)
        else R.base + (serial + 1) := by
      rw [← hid, ← hnext]
      rfl
    rw [hnext, hid] at hrest
    rw [hloop]
    split
    · rename_i htaken
      rw [htaken, Bool.true_and] at hrest
      rcases ih (serial + 1) hrest with hnone | ⟨serial', hgrows, hle, hfound⟩
      · exact .inl hnone
      · exact .inr ⟨serial', by omega, hle, hfound⟩
    · exact .inr ⟨serial + 1, by omega, by omega, rfl⟩

end Scan

/-! ## Histories -/

/-- The last ID issued, and for every slot that is taken the ID it was taken for. -/
structure Allocations where
  lastId : Nat
  slots : Nat → Option Nat

inductive AllocEvent where
  | allocate
  | free (i : Nat)

namespace Allocations

def used (A : Allocations) (i : Nat) : Bool := (A.slots i).isSome

/-- The ID that is found, if there is one, and the table with its slot taken. -/
def allocate (R : ResourceType) (A : Allocations) : Option (Nat × Allocations) :=
  let id := resourceIdFindNext A.lastId R.tableSize (checkSlotUsed R.base R.tableSize A.used)
  (resourceIdToIndex id R.base R.tableSize).map fun i =>
    (id, ⟨id, Function.update A.slots i (some id)⟩)

def step (R : ResourceType) (A : Allocations) : AllocEvent → Allocations
  | .allocate => (A.allocate R).elim A Prod.snd
  | .free i => { A with slots := Function.update A.slots i none }

def exec (R : ResourceType) (A : Allocations) (es : List AllocEvent) : Allocations :=
  es.foldl (step R) A

/-- The serial number wraps when the next ID is issued. -/
def wrapsNext (R : ResourceType) (A : Allocations) : Bool :=
  (A.allocate R).isSome && findNextWraps R.base R.tableSize
    (checkSlotUsed R.base R.tableSize A.used) R.tableSize (A.lastId &&& resourceIdMax)

/-- The serial number wraps in the course of some events. -/
def wraps (R : ResourceType) : Allocations → List AllocEvent → Bool
  | _, [] => false
  | A, .allocate :: es => A.wrapsNext R || wraps R (A.step R .allocate) es
  | A, .free i :: es => wraps R (A.step R (.free i)) es

/-- The last ID is one of the type, and a taken slot is that of its ID. -/
structure Valid (R : ResourceType) (A : Allocations) : Prop where
  last : ∃ serial, serial ≤ resourceIdMax ∧ A.lastId = R.base + serial
  slots : ∀ i id, A.slots i = some id → resourceIdToIndex id R.base R.tableSize = some i

variable {R : ResourceType} {A A' : Allocations} {id : Nat}

/-- What is issued is an ID of the type with a free slot. -/
theorem Valid.allocate (h : A.Valid R) (hid : A.allocate R = some (id, A')) :
    ∃ serial, serial ≤ resourceIdMax ∧ id = R.base + serial ∧
      resourceIdToIndex id R.base R.tableSize = some (serial % R.tableSize) ∧
      A.slots (serial % R.tableSize) = none ∧
      A' = ⟨id, update A.slots (serial % R.tableSize) (some id)⟩ := by
  obtain ⟨serial₀, hle₀, hlast⟩ := h.last
  unfold Allocations.allocate at hid
  rw [hlast] at hid
  dsimp only at hid
  rcases findNext_scan R A.used hle₀ with ⟨hnone, -⟩ | ⟨serial, hle, htable, hfree, hfound⟩
  · rw [hnone, toIndex_undefined] at hid
    cases hid
  have hindex := toIndex_serial R hle htable
  rw [hfound, hindex] at hid
  obtain ⟨rfl, rfl⟩ := Prod.mk.inj (Option.some.inj hid)
  refine ⟨serial, hle, rfl, hindex, ?_, rfl⟩
  simpa [used] using hfree

theorem step_allocate_some (hid : A.allocate R = some (id, A')) : A.step R .allocate = A' := by
  rw [step, hid, elim_some]

theorem step_allocate_none (hid : A.allocate R = none) : A.step R .allocate = A := by
  rw [step, hid, elim_none]

theorem Valid.step (h : A.Valid R) (e : AllocEvent) : (A.step R e).Valid R := by
  cases e with
  | allocate =>
    cases hid : A.allocate R with
    | none =>
      rw [step_allocate_none hid]
      exact h
    | some =>
      obtain ⟨serial, hle, hserial, hindex, -, htable⟩ := h.allocate hid
      rw [step_allocate_some hid, htable]
      refine ⟨⟨serial, hle, hserial⟩, fun i id hi => ?_⟩
      by_cases hslot : i = serial % R.tableSize
      · subst hslot
        dsimp only at hi
        rw [update_self] at hi
        cases hi
        exact hindex
      · dsimp only at hi
        rw [update_of_ne hslot] at hi
        exact h.slots i id hi
  | free j =>
    refine ⟨h.last, fun i id hi => ?_⟩
    change update A.slots j none i = some id at hi
    by_cases hslot : i = j
    · rw [hslot, update_self] at hi
      cases hi
    · rw [update_of_ne hslot] at hi
      exact h.slots i id hi

theorem Valid.exec (h : A.Valid R) (es : List AllocEvent) : (A.exec R es).Valid R := by
  induction es generalizing A with
  | nil => exact h
  | cons e es ih => exact ih (h.step e)

/-- An ID whose slot is taken for it is not issued. -/
theorem Valid.allocate_fresh (h : A.Valid R) (hid : A.allocate R = some (id, A')) (i : Nat) :
    A.slots i ≠ some id := by
  intro hslot
  obtain ⟨serial, -, -, hindex, hfree, -⟩ := h.allocate hid
  rw [h.slots i id hslot] at hindex
  rw [Option.some.inj hindex, hfree] at hslot
  cases hslot

/-- Unless the serial number wraps, the next ID is larger than the last one. -/
theorem Valid.allocate_grows (h : A.Valid R) (hid : A.allocate R = some (id, A'))
    (hwraps : A.wrapsNext R = false) : A.lastId < id := by
  obtain ⟨serial₀, hle₀, hlast⟩ := h.last
  obtain ⟨serial, hle, hserial, -⟩ := h.allocate hid
  have hid' : id = resourceIdFindNext A.lastId R.tableSize
      (checkSlotUsed R.base R.tableSize A.used) := by
    obtain ⟨i, -, hpair⟩ := map_eq_some_iff.mp hid
    exact (congrArg Prod.fst hpair).symm
  have hfound : findNextLoop R.base R.tableSize (checkSlotUsed R.base R.tableSize A.used)
      R.tableSize serial₀ = id := by
    rw [hid', hlast, resourceIdFindNext, and_base R hle₀, base_and R hle₀]
  unfold wrapsNext at hwraps
  rw [hid, isSome_some, Bool.true_and, hlast, base_and R hle₀] at hwraps
  rcases findNextLoop_grows R.tableSize _ hwraps with hnone | ⟨serial', hgrows, -, hfound'⟩
  · have hpos := R.hbase.1
    unfold resourceIdUndefined at hnone
    omega
  · omega

/-- Unless the serial number wraps, the last ID never gets smaller. -/
theorem Valid.lastId_le (h : A.Valid R) (es : List AllocEvent) (hwraps : wraps R A es = false) :
    A.lastId ≤ (A.exec R es).lastId := by
  induction es generalizing A with
  | nil => exact Nat.le_refl _
  | cons e es ih =>
    cases e with
    | allocate =>
      rw [wraps, or_eq_false_iff] at hwraps
      refine Nat.le_trans ?_ (ih (h.step .allocate) hwraps.2)
      cases hid : A.allocate R with
      | none => rw [step_allocate_none hid]
      | some =>
        obtain ⟨serial, -, -, -, -, htable⟩ := h.allocate hid
        rw [step_allocate_some hid, htable]
        exact Nat.le_of_lt (h.allocate_grows hid hwraps.1)
    | free i => exact ih (h.step (.free i)) hwraps

theorem wraps_append (es es' : List AllocEvent) :
    wraps R A (es ++ es') = (wraps R A es || wraps R (A.exec R es) es') := by
  induction es generalizing A with
  | nil => rfl
  | cons e es ih =>
    cases e with
    | allocate =>
      rw [List.cons_append, wraps, wraps, ih, Bool.or_assoc]
      rfl
    | free =>
      rw [List.cons_append, wraps, wraps, ih]
      rfl

/-- An ID is not issued a second time before the serial number has wrapped. -/
theorem Valid.wraps_of_again {A₂ : Allocations} (h : A.Valid R)
    (hid : A.allocate R = some (id, A')) (es : List AllocEvent)
    (hagain : (A'.exec R es).allocate R = some (id, A₂)) :
    wraps R A' (es ++ [.allocate]) = true := by
  have hvalid : A'.Valid R := by
    rw [← step_allocate_some hid]
    exact h.step .allocate
  have hlast : A'.lastId = id := by
    obtain ⟨serial, -, -, -, -, htable⟩ := h.allocate hid
    rw [htable]
  by_contra hno
  rw [not_eq_true, wraps_append, or_eq_false_iff] at hno
  obtain ⟨hbefore, hnext⟩ := hno
  rw [wraps, or_eq_false_iff] at hnext
  have hle := hvalid.lastId_le es hbefore
  have hlt := (hvalid.exec es).allocate_grows hagain hnext.1
  omega

end Allocations

/-- From every ID of a type of resources and for every set of used slots, an ID with a free
slot is found if there is one, and the undefined ID otherwise. In every history an ID in use
is not issued again, and no ID is issued again before the serial number has wrapped. -/
theorem resourceId_allocation (R : ResourceType) : (∀ serial ≤ resourceIdMax, ∀ used : Nat → Bool,
      let id := resourceIdFindNext (R.base + serial) R.tableSize
        (checkSlotUsed R.base R.tableSize used)
      ((∃ i < R.tableSize, used i = false) → id ≠ resourceIdUndefined ∧
        ∃ i < R.tableSize, resourceIdToIndex id R.base R.tableSize = some i ∧ used i = false) ∧
      ((∀ i < R.tableSize, used i = true) → id = resourceIdUndefined)) ∧
    (∀ A : Allocations, A.Valid R → ∀ es id A', (A.exec R es).allocate R = some (id, A') →
      ∀ i, (A.exec R es).slots i ≠ some id) ∧
    (∀ A : Allocations, A.Valid R → ∀ id A' es A₂, A.allocate R = some (id, A') →
      (A'.exec R es).allocate R = some (id, A₂) →
      Allocations.wraps R A' (es ++ [.allocate]) = true) := by
  refine ⟨?_, ?_, ?_⟩
  · intro serial hserial used id
    rcases findNext_scan R used hserial with ⟨hnone, hall⟩ | ⟨serial', hle, htable, hfree, hfound⟩
    · refine ⟨?_, fun _ => hnone⟩
      rintro ⟨i, hi, hunused⟩
      rw [hall i hi] at hunused
      cases hunused
    have hmod := Nat.mod_lt serial' htable
    refine ⟨fun _ => ⟨?_, serial' % R.tableSize, hmod, ?_, hfree⟩, fun hall => ?_⟩
    · have hpos := R.hbase.1
      unfold resourceIdUndefined
      omega
    · change resourceIdToIndex (resourceIdFindNext _ _ _) _ _ = _
      rw [hfound]
      exact toIndex_serial R hle htable
    · rw [hall _ hmod] at hfree
      cases hfree
  · intro A hvalid es id A' hid i
    exact (hvalid.exec es).allocate_fresh hid i
  · intro A hvalid id A' es A₂ hid hagain
    exact hvalid.wraps_of_again hid es hagain

/-- The IDs of pipes, with `CFE_PLATFORM_SB_MAX_PIPES` as delivered. -/
def pipeResources : ResourceType := ⟨0x02160000, 64, by decide, by decide⟩

/-- Only one slot is free, and the serial number is at its end. -/
theorem resourceId_allocation_pipes : (∃ i < 64, decide (i ≠ 5) = false) ∧
    ∃ i < 64, resourceIdToIndex (resourceIdFindNext (0x02160000 + 0xfffe) 64
      (checkSlotUsed 0x02160000 64 fun i => decide (i ≠ 5))) 0x02160000 64 = some i ∧
      decide (i ≠ 5) = false := by
  have hfree : ∃ i < 64, decide (i ≠ 5) = false := ⟨5, by decide, by decide⟩
  have hscan := (resourceId_allocation pipeResources).1 0xfffe (by decide) fun i => decide (i ≠ 5)
  exact ⟨hfree, (hscan.1 hfree).2⟩

theorem findNextLoop_taken {resourceType tableSize : Nat} {checkFunc : Nat → Bool}
    (h : ∀ id, checkFunc id = true) (count : Nat) : ∀ serial,
    findNextLoop resourceType tableSize checkFunc count serial = resourceIdUndefined := by
  induction count with
  | zero => exact fun _ => rfl
  | succ count ih =>
    intro serial
    unfold findNextLoop
    rw [if_pos (h _)]
    exact ih _

/-- The last entry of a table with 65537 entries is free, but has no ID. And IDs without a base
value are no good: the slot is free, but its ID is the undefined one. -/
theorem resourceId_no_serial : ((∃ i < 65537, decide (i ≠ 65536) = false) ∧
      resourceIdFindNext 0x02160000 65537
        (checkSlotUsed 0x02160000 65537 fun i => decide (i ≠ 65536)) = resourceIdUndefined) ∧
    resourceIdFindNext 0xfffe 1 (checkSlotUsed 0 1 fun _ => false) = resourceIdUndefined := by
  refine ⟨⟨⟨65536, by decide, by decide⟩, ?_⟩, by decide⟩
  apply findNextLoop_taken
  intro id
  unfold checkSlotUsed resourceIdToIndex
  dsimp only
  split
  · rfl
  rename_i hserial
  unfold resourceIdMax at hserial
  rw [elim_some, decide_eq_true_eq]
  omega

end CfsEds.Es
