import Mathlib.Data.BitVec

/-!
# Memory ranges

`cfe_psp_memrange.c`: a table of memory ranges, set by `CFE_PSP_MemRangeSet`, against which
`CFE_PSP_MemValidateRange` checks a range of addresses. Addresses and sizes have 64 bits, and the
last address of a range is computed modulo `2 ^ 64`: an entry of no addresses at address zero,
which is what the entries are before they are set, is read as the whole address space. Only a
matching entry ends the search. Otherwise the last entry gives the result.
-/

namespace CfsEds.Psp

open List

/-- The status codes of the functions -/
inductive MemStatus where
  | success
  | invalidMemAddr
  | invalidMemType
  | invalidMemRange
  | invalidMemWordSize
  | invalidMemAttr
  deriving DecidableEq

open MemStatus

/-- `CFE_PSP_MEM_RAM` -/
def memRam : BitVec 32 := 1

/-- `CFE_PSP_MEM_EEPROM` -/
def memEeprom : BitVec 32 := 2

/-- `CFE_PSP_MEM_ANY` -/
def memAny : BitVec 32 := 3

/-- `CFE_PSP_MEM_INVALID`, which no function writes to the table. -/
def memInvalid : BitVec 32 := 4

/-- `CFE_PSP_MemTable_t` -/
structure MemTable where
  memoryType : BitVec 32 := 0
  wordSize : BitVec 64 := 0
  startAddr : BitVec 64 := 0
  size : BitVec 64 := 0
  attributes : BitVec 32 := 0

/-- `SysMemoryTable` of `n` entries at startup: static memory, all zeros. -/
def initialTable (n : Nat) : List MemTable := replicate n {}

/-- `CFE_PSP_MemRangeSet`; the sizes of a word are 1, 2 and 4 bytes, and the attributes are to
write, to read or both. -/
def memRangeSet (table : List MemTable) (rangeNum : Nat) (e : MemTable) :
    MemStatus × List MemTable :=
  if table.length ≤ rangeNum then (invalidMemRange, table)
  else if e.memoryType ≠ memRam ∧ e.memoryType ≠ memEeprom then (invalidMemType, table)
  else if e.wordSize ≠ 1 ∧ e.wordSize ≠ 2 ∧ e.wordSize ≠ 4 then (invalidMemWordSize, table)
  else if e.attributes ≠ 2 ∧ e.attributes ≠ 1 ∧ e.attributes ≠ 3 then (invalidMemAttr, table)
  else (success, table.set rangeNum e)

/-- What the loop of `CFE_PSP_MemValidateRange` finds for one entry -/
def testEntry (startAddressToTest endAddressToTest : BitVec 64) (memoryType : BitVec 32)
    (e : MemTable) : MemStatus :=
  let endAddressInTable := e.startAddr + e.size - 1
  if e.startAddr ≤ startAddressToTest ∧ startAddressToTest ≤ endAddressInTable then
    if endAddressToTest ≤ endAddressInTable then
      if memoryType = memAny then success
      else if memoryType = memRam ∧ e.memoryType = memRam then success
      else if memoryType = memEeprom ∧ e.memoryType = memEeprom then success
      else invalidMemType
    else invalidMemRange
  else invalidMemAddr

/-- The loop of `CFE_PSP_MemValidateRange` -/
def searchTable (test : MemTable → MemStatus) : List MemTable → MemStatus → MemStatus
  | [], returnCode => returnCode
  | e :: rest, returnCode =>
    if e.memoryType ≠ memInvalid then
      if test e = success then success else searchTable test rest (test e)
    else searchTable test rest returnCode

/-- `CFE_PSP_MemValidateRange` -/
def memValidateRange (table : List MemTable) (address size : BitVec 64)
    (memoryType : BitVec 32) : MemStatus :=
  let endAddressToTest := address + size - 1
  if memoryType ≠ memAny ∧ memoryType ≠ memRam ∧ memoryType ≠ memEeprom then invalidMemType
  else if endAddressToTest < address then invalidMemRange
  else searchTable (testEntry address endAddressToTest memoryType) table invalidMemAddr

/-! ## What is required -/

/-- What an entry of `len` addresses says about the `size` addresses from `address` on -/
def verdict (address size : Nat) (memoryType : BitVec 32) (e : MemTable) (len : Nat) : MemStatus :=
  if e.startAddr.toNat ≤ address ∧ address < e.startAddr.toNat + len then
    if address + size ≤ e.startAddr.toNat + len then
      if memoryType = memAny ∨ memoryType = e.memoryType then success else invalidMemType
    else invalidMemRange
  else invalidMemAddr

/-- The entries of the table -/
def entries (table : List MemTable) : List MemTable :=
  table.filter fun e => decide (e.memoryType ≠ memInvalid)

/-- What the entries say -/
def verdicts (table : List MemTable) (address size : BitVec 64) (memoryType : BitVec 32) :
    List MemStatus :=
  (entries table).map fun e => verdict address.toNat size.toNat memoryType e e.size.toNat

/-- The best of several verdicts -/
def best (l : List MemStatus) : MemStatus :=
  if success ∈ l then success
  else if invalidMemType ∈ l then invalidMemType
  else if invalidMemRange ∈ l then invalidMemRange
  else invalidMemAddr

/-- The result that does not depend on the order of the entries -/
def requiredStatus (table : List MemTable) (address size : BitVec 64) (memoryType : BitVec 32) :
    MemStatus :=
  if size = 0 ∨ 2 ^ 64 < address.toNat + size.toNat then invalidMemRange
  else best (verdicts table address size memoryType)

/-! ## What the code reads -/

/-- The number of addresses that the code sees in a range -/
def addressesRead (start size : BitVec 64) : Nat :=
  if start = 0 ∧ size = 0 then 2 ^ 64
  else if start.toNat + size.toNat ≤ 2 ^ 64 then size.toNat else 0

/-- What the entries say in the code's reading -/
def verdictsRead (table : List MemTable) (address size : BitVec 64) (memoryType : BitVec 32) :
    List MemStatus :=
  (entries table).map fun e =>
    verdict address.toNat (addressesRead address size) memoryType e
      (addressesRead e.startAddr e.size)

/-- The code reads a range as empty if it is empty or wraps, but not if it is empty at zero. -/
theorem addressesRead_eq_zero_iff (start size : BitVec 64) : addressesRead start size = 0 ↔
      (size = 0 ∨ 2 ^ 64 < start.toNat + size.toNat) ∧ ¬ (start = 0 ∧ size = 0) := by
  unfold addressesRead
  by_cases hzero : start = 0 ∧ size = 0
  · simp [hzero]
  rw [if_neg hzero, and_iff_left hzero]
  split_ifs with hfits
  · bv_omega
  · exact iff_of_true rfl (.inr (by omega))

/-- The last address that the code computes, by the number of addresses it sees. -/
theorem last_eq (start size : BitVec 64) :
    (addressesRead start size = 0 ∧ start + size - 1 < start) ∨ (0 < addressesRead start size ∧
        (start + size - 1).toNat + 1 = start.toNat + addressesRead start size) := by
  unfold addressesRead
  split_ifs with hzero hfits
  · rw [hzero.1, hzero.2]
    exact .inr (by decide)
  · bv_omega
  · exact .inl ⟨rfl, by bv_omega⟩

theorem testEntry_eq {address size : BitVec 64} {memoryType : BitVec 32}
    (htype : memoryType = memAny ∨ memoryType = memRam ∨ memoryType = memEeprom)
    (hread : ¬ address + size - 1 < address) (e : MemTable) :
    testEntry address (address + size - 1) memoryType e =
      verdict address.toNat (addressesRead address size) memoryType e
        (addressesRead e.startAddr e.size) := by
  have hmatch : (if memoryType = memAny then success
      else if memoryType = memRam ∧ e.memoryType = memRam then success
      else if memoryType = memEeprom ∧ e.memoryType = memEeprom then success
      else invalidMemType) =
      if memoryType = memAny ∨ memoryType = e.memoryType then success else invalidMemType := by
    rcases htype with rfl | rfl | rfl <;> simp [memAny, memRam, memEeprom, eq_comm]
  obtain ⟨-, hlast⟩ | ⟨-, hlast⟩ := last_eq address size
  · exact absurd hlast hread
  have hin : (e.startAddr ≤ address ∧ address ≤ e.startAddr + e.size - 1) ↔
      e.startAddr.toNat ≤ address.toNat ∧
        address.toNat < e.startAddr.toNat + addressesRead e.startAddr e.size := by
    simp only [BitVec.le_def]
    obtain ⟨hnone, hbelow⟩ | ⟨-, hend⟩ := last_eq e.startAddr e.size
    · rw [BitVec.lt_def] at hbelow
      omega
    · omega
  unfold testEntry verdict
  dsimp only
  rw [hmatch]
  refine ite_congr (propext hin) (fun hcontains => if_congr ?_ rfl rfl) fun _ => rfl
  rw [BitVec.le_def]
  obtain ⟨hnone, hbelow⟩ | ⟨-, hend⟩ := last_eq e.startAddr e.size
  · rw [BitVec.lt_def] at hbelow
    omega
  · omega

/-- The search stops at a matching entry. If there is none, the last entry gives the result. -/
theorem searchTable_eq (test : MemTable → MemStatus) (table : List MemTable) (rc : MemStatus) :
    searchTable test table rc = if success ∈ (entries table).map test then success
      else ((entries table).map test).getLast?.getD rc := by
  induction table generalizing rc with
  | nil => rfl
  | cons e rest ih =>
    unfold searchTable
    by_cases hvalid : e.memoryType ≠ memInvalid
    · have hentries : entries (e :: rest) = e :: entries rest := filter_cons_of_pos (by simpa)
      rw [if_pos hvalid, hentries, map_cons, ih]
      by_cases hfound : test e = success
      · simp [hfound]
      · simp [hfound, Ne.symm hfound, getLast?_cons]
    · have hentries : entries (e :: rest) = entries rest := filter_cons_of_neg (by simpa using hvalid)
      rw [if_neg hvalid, hentries, ih]

theorem getLast?_ne_success {l : List MemStatus} (hnone : success ∉ l) :
    l.getLast?.getD invalidMemAddr ≠ success := by
  cases hlast : l.getLast? with
  | none => simp
  | some v => exact fun h => hnone (h ▸ mem_of_getLast? hlast)

/-- The result is the required one exactly when the code misreads no range in a way that counts,
and a matching entry contains the addresses or the last entry says as much as any other. -/
theorem memValidateRange_required_iff (table : List MemTable) (address size : BitVec 64)
    (memoryType : BitVec 32)
    (htype : memoryType = memAny ∨ memoryType = memRam ∨ memoryType = memEeprom) :
    let asked := verdicts table address size memoryType
    let read := verdictsRead table address size memoryType
    let last := read.getLast?.getD invalidMemAddr
    memValidateRange table address size memoryType = requiredStatus table address size memoryType ↔
      if size = 0 ∨ 2 ^ 64 < address.toNat + size.toNat then
        address = 0 ∧ size = 0 → success ∉ read ∧ last = invalidMemRange
      else
        (success ∈ read ↔ success ∈ asked) ∧ (success ∉ asked → last = best asked) := by
  intro asked read last
  unfold memValidateRange requiredStatus
  dsimp only
  rw [if_neg (by tauto)]
  obtain ⟨hnone, hlast⟩ | ⟨hsome, hlast⟩ := last_eq address size
  · obtain ⟨hempty, hzero⟩ := (addressesRead_eq_zero_iff ..).mp hnone
    rw [if_pos hlast, if_pos hempty, if_pos hempty]
    tauto
  have hread : ¬ address + size - 1 < address := by
    rw [BitVec.lt_def]
    omega
  have hsearch : searchTable (testEntry address (address + size - 1) memoryType) table
      invalidMemAddr = if success ∈ read then success else last := by
    rw [searchTable_eq, map_congr_left fun e _ => testEntry_eq htype hread e]
    rfl
  rw [if_neg hread, hsearch]
  by_cases hempty : size = 0 ∨ 2 ^ 64 < address.toNat + size.toNat
  · -- only the empty range at zero is searched for
    have hzero : address = 0 ∧ size = 0 := by
      by_contra hzero
      exact absurd ((addressesRead_eq_zero_iff ..).mpr ⟨hempty, hzero⟩) (by omega)
    rw [if_pos hempty, if_pos hempty]
    by_cases hfound : success ∈ read <;> simp [hfound, hzero]
  rw [if_neg hempty, if_neg hempty]
  change _ = best asked ↔ _
  by_cases hasked : success ∈ asked
  · have hbest : best asked = success := if_pos hasked
    rw [hbest]
    by_cases hfound : success ∈ read <;> simp [hfound, hasked, last, getLast?_ne_success]
  · have hbest : success ≠ best asked := by
      unfold best
      split_ifs <;> simp
    by_cases hfound : success ∈ read <;> simp [hfound, hasked, hbest]

/-- Ten entries, of which the first is set to `0x1000` bytes of RAM -/
def oneRange : List MemTable :=
  (memRangeSet (initialTable 10) 0
    { memoryType := memRam, wordSize := 4, startAddr := 0x1000, size := 0x1000, attributes := 3 }).2

/-- An entry that is not set is read as one that contains every address. -/
theorem unset_entry_contains_all : memValidateRange oneRange 0x5000 16 memAny = success ∧
      requiredStatus oneRange 0x5000 16 memAny = invalidMemAddr := by
  decide +kernel

theorem one_range_validated : memValidateRange oneRange 0x1010 16 memRam = success :=
  ((memValidateRange_required_iff oneRange 0x1010 16 memRam (by decide)).mpr
    (by decide +kernel)).trans (by decide +kernel)

end CfsEds.Psp
