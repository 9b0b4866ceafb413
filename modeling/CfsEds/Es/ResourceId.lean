import CfsEds.Es.GenericPool

/-!
# Resource IDs

`cfe_resourceid_api.c`: an ID is the base value of its resource type plus a serial
number, and the index of a table entry is the serial number modulo the size of the
table. A new ID is the next one whose table entry is not in use.
-/

namespace CfsEds.Es

open CfsEds.Lib.Memory

/-- `CFE_RESOURCEID_MAX` -/
def resourceIdMax : Nat := 0xffff

/-- `CFE_RESOURCEID_UNDEFINED` -/
def resourceIdUndefined : Nat := 0

/-- `CFE_ResourceId_ToIndex` -/
def resourceIdToIndex (id baseValue tableSize : Nat) : Option Nat :=
  let serial := uint32 (id + 2 ^ 32 - baseValue)
  if serial > resourceIdMax ∨ tableSize = 0 then none else some (serial % tableSize)

/-- The loop of `CFE_ResourceId_FindNext`, on its variables `Count` and `Serial`. -/
def findNextLoop (resourceType tableSize : Nat) (checkFunc : Nat → Bool) : Nat → Nat → Nat
  | 0, _ => resourceIdUndefined
  | count + 1, serial =>
    let serial' := if serial + 1 ≥ resourceIdMax then (serial + 1) % tableSize else serial + 1
    let checkId := uint32 (resourceType + serial')
    if checkFunc checkId then findNextLoop resourceType tableSize checkFunc count serial'
    else checkId

/-- `CFE_ResourceId_FindNext` -/
def resourceIdFindNext (startId tableSize : Nat) (checkFunc : Nat → Bool) : Nat :=
  findNextLoop (startId &&& (2 ^ 32 - 1 - resourceIdMax)) tableSize checkFunc tableSize
    (startId &&& resourceIdMax)

/-- The scan for a free slot finds an ID of 32 bits. -/
theorem findNextLoop_lt {resourceType tableSize : Nat} {checkFunc : Nat → Bool} :
    ∀ count serial, findNextLoop resourceType tableSize checkFunc count serial < 2 ^ 32 := by
  intro count
  induction count with
  | zero => intro serial; exact show 0 < 2 ^ 32 by decide
  | succ count ih =>
    intro serial
    unfold findNextLoop
    generalize (if serial + 1 ≥ resourceIdMax then (serial + 1) % tableSize else serial + 1) = next
    simp only
    split
    · exact ih next
    · exact Nat.mod_lt _ (by decide)

/-- What the scan finds is free, unless it finds nothing. -/
theorem findNextLoop_free {resourceType tableSize : Nat} {checkFunc : Nat → Bool} :
    ∀ count serial, findNextLoop resourceType tableSize checkFunc count serial =
        resourceIdUndefined ∨
      checkFunc (findNextLoop resourceType tableSize checkFunc count serial) = false := by
  intro count
  induction count with
  | zero => intro serial; exact .inl rfl
  | succ count ih =>
    intro serial
    unfold findNextLoop
    generalize (if serial + 1 ≥ resourceIdMax then (serial + 1) % tableSize else serial + 1) = next
    simp only
    split
    · exact ih next
    · next hfree => exact .inr (by simpa using hfree)

end CfsEds.Es
