import Mathlib.Data.BitVec

/-!
# Versioned rings

One context publishes a value again and again, and others read it without a lock. The
values go to slots in turn, chosen by a 32-bit version number. To publish, the writer stamps
the next slot with the next version, fills it piece by piece and then makes that version
the last one. A reader takes the last version, reads the slot of it piece by piece, and
accepts what it read if the slot still has that version.

Besides the slots, a `Ring` remembers the values published so far, newest first, and the
number of versions stamped. `Ring.Grows` is what the writer does to it, in any number of
steps: the values published stay, and a slot that has the version of one of them was not
written. `Ring.Reading` is what a reader knows between two of its reads, and it survives
`Grows`. That a version may not come back is where the number of updates is bounded.
-/

namespace CfsEds.Lib.VersionedRing

open List Function

/-- A slot: the version it was stamped with and the value. -/
structure Slot (δ : Type) where
  version : BitVec 32
  data : δ

/-- The slots and the last version published, with the history of the ring. -/
structure Ring (ι δ : Type) where
  slots : ι → Slot δ
  last : BitVec 32
  published : List δ
  stamped : Nat

section

variable {ι δ : Type} (index : BitVec 32 → ι)

namespace Ring

/-- Stamp a slot. -/
def stamp [DecidableEq ι] (r : Ring ι δ) (i : ι) (v : BitVec 32) : Ring ι δ :=
  { r with
    slots := Function.update r.slots i { r.slots i with version := v }
    stamped := r.stamped + 1 }

/-- Write to the value in a slot. -/
def fill [DecidableEq ι] (r : Ring ι δ) (i : ι) (g : δ → δ) : Ring ι δ :=
  { r with slots := Function.update r.slots i { r.slots i with data := g (r.slots i).data } }

/-- Make a version the last one. -/
def publish (r : Ring ι δ) (v : BitVec 32) : Ring ι δ :=
  { r with last := v, published := (r.slots (index v)).data :: r.published }

/-- The slot of the last version holds the newest value. -/
def Current (r : Ring ι δ) (d : δ) : Prop :=
  r.published.head? = some d ∧ r.slots (index r.last) = ⟨r.last, d⟩

/-- No update is under way, and the value is `d`. -/
structure Quiet (r : Ring ι δ) (d : δ) : Prop where
  current : r.Current index d
  stamped : r.published.length = r.stamped + 1

/-- An update from `d` is under way, and the next slot holds `e`. -/
structure Filling (r : Ring ι δ) (d e : δ) : Prop where
  current : r.Current index d
  stamped : r.published.length = r.stamped
  next : r.slots (index (r.last + 1#32)) = ⟨r.last + 1#32, e⟩

/-- What the steps of a writer amount to. -/
structure Grows (r r' : Ring ι δ) : Prop where
  /-- Some values were published after those that were. -/
  news : ∃ l, r'.published = l ++ r.published ∧ r'.last = r.last + BitVec.ofNat 32 l.length
  stamped : r.stamped ≤ r'.stamped
  current : (∃ d, r.Current index d) → ∃ d, r'.Current index d
  /-- A slot that has the version of a published value was not written to. -/
  kept : r'.stamped < 2 ^ 32 → ∀ i < r.published.length,
    (r'.slots (index (r.last - BitVec.ofNat 32 i))).version = r.last - BitVec.ofNat 32 i →
    r.slots (index (r.last - BitVec.ofNat 32 i)) = r'.slots (index (r.last - BitVec.ofNat 32 i))

/-- What a reader knows that took the version `v`: it is the version of a published value
`d`, and the slot holds this value unless its version changed. -/
def Reading (r : Ring ι δ) (v : BitVec 32) (d : δ) : Prop :=
  ∃ i : Nat, r.published[i]? = some d ∧ v = r.last - BitVec.ofNat 32 i ∧
    ((r.slots (index v)).version = v → (r.slots (index v)).data = d)

variable {index} {r r' r'' : Ring ι δ} {d e : δ} {v : BitVec 32}

/-! ## The slots after a write -/

section Slots

variable [DecidableEq ι]

@[simp] theorem stamp_slots_self (i : ι) (v : BitVec 32) :
    (r.stamp i v).slots i = ⟨v, (r.slots i).data⟩ :=
  update_self ..

theorem stamp_slots_of_ne {i j : ι} (h : j ≠ i) (v : BitVec 32) :
    (r.stamp i v).slots j = r.slots j :=
  update_of_ne h ..

@[simp] theorem fill_slots_self (i : ι) (g : δ → δ) :
    (r.fill i g).slots i = ⟨(r.slots i).version, g (r.slots i).data⟩ :=
  update_self ..

theorem fill_slots_of_ne {i j : ι} (h : j ≠ i) (g : δ → δ) : (r.fill i g).slots j = r.slots j :=
  update_of_ne h ..

end Slots

/-! ## Versions -/

/-- Fewer than 2³² versions back, no version is the next one. -/
theorem next_ne_version (last : BitVec 32) {i : Nat} (hi : i + 1 < 2 ^ 32) :
    last + 1#32 ≠ last - BitVec.ofNat 32 i := by
  intro h
  have h' := congrArg BitVec.toNat h
  simp only [BitVec.toNat_add, BitVec.toNat_sub, BitVec.toNat_ofNat] at h'
  omega

theorem version_shift (last : BitVec 32) (i n : Nat) :
    last + BitVec.ofNat 32 n - BitVec.ofNat 32 (n + i) = last - BitVec.ofNat 32 i := by
  apply BitVec.eq_of_toNat_eq
  simp only [BitVec.toNat_add, BitVec.toNat_sub, BitVec.toNat_ofNat]
  omega

/-! ## What a writer does -/

namespace Grows

theorem refl (r : Ring ι δ) : r.Grows index r where
  news := ⟨[], rfl, by simp⟩
  stamped := Nat.le_refl _
  current := id
  kept := fun _ _ _ _ => rfl

theorem trans (h : r.Grows index r') (h' : r'.Grows index r'') : r.Grows index r'' := by
  obtain ⟨l, hl, hlast⟩ := h.news
  obtain ⟨l', hl', hlast'⟩ := h'.news
  refine ⟨⟨l' ++ l, ?_, ?_⟩, Nat.le_trans h.stamped h'.stamped, h'.current ∘ h.current, ?_⟩
  · rw [hl', hl, append_assoc]
  · rw [hlast', hlast, length_append, Nat.add_comm l'.length, BitVec.ofNat_add, BitVec.add_assoc]
  · intro hst i hi hver
    -- the same value is some places further back in the list of the middle ring
    have hback : r.last - BitVec.ofNat 32 i = r'.last - BitVec.ofNat 32 (l.length + i) := by
      rw [hlast, version_shift]
    have hi' : l.length + i < r'.published.length := by
      rw [hl, length_append]
      omega
    have hmid := h'.kept hst (l.length + i) hi'
    rw [← hback] at hmid
    have hver' := hmid hver
    rw [← hver'] at hver
    rw [h.kept (Nat.lt_of_le_of_lt h'.stamped hst) i hi hver, hver']

end Grows

section Writes

variable [DecidableEq ι]

theorem Quiet.grows_stamp (h : r.Quiet index d) (hne : index (r.last + 1#32) ≠ index r.last) :
    r.Grows index (r.stamp (index (r.last + 1#32)) (r.last + 1#32)) where
  news := ⟨[], rfl, by simp [stamp]⟩
  stamped := Nat.le_succ _
  current := fun _ => ⟨d, h.current.1, (stamp_slots_of_ne hne.symm _).trans h.current.2⟩
  kept := by
    intro hst i hi hver
    have hi' : i + 1 < 2 ^ 32 := by
      have := h.stamped
      simp only [stamp] at hst
      omega
    by_cases hslot : index (r.last - BitVec.ofNat 32 i) = index (r.last + 1#32)
    · rw [hslot, stamp_slots_self] at hver
      exact absurd hver (next_ne_version r.last hi')
    · rw [stamp_slots_of_ne hslot]

theorem Quiet.stamp (h : r.Quiet index d) (hne : index (r.last + 1#32) ≠ index r.last) :
    (r.stamp (index (r.last + 1#32)) (r.last + 1#32)).Filling index d
      (r.slots (index (r.last + 1#32))).data where
  current := ⟨h.current.1, (stamp_slots_of_ne hne.symm _).trans h.current.2⟩
  stamped := h.stamped
  next := stamp_slots_self _ _

theorem Filling.grows_fill (h : r.Filling index d e)
    (hne : index (r.last + 1#32) ≠ index r.last) (g : δ → δ) :
    r.Grows index (r.fill (index (r.last + 1#32)) g) where
  news := ⟨[], rfl, by simp [Ring.fill]⟩
  stamped := Nat.le_refl _
  current := fun _ => ⟨d, h.current.1, (fill_slots_of_ne hne.symm _).trans h.current.2⟩
  kept := by
    intro hst i hi hver
    have hi' : i + 1 < 2 ^ 32 := by
      have := h.stamped
      simp only [Ring.fill] at hst
      omega
    by_cases hslot : index (r.last - BitVec.ofNat 32 i) = index (r.last + 1#32)
    · -- the slot being filled has the next version already
      rw [hslot, fill_slots_self, h.next] at hver
      exact absurd hver (next_ne_version r.last hi')
    · rw [fill_slots_of_ne hslot]

theorem Filling.fill (h : r.Filling index d e)
    (hne : index (r.last + 1#32) ≠ index r.last) (g : δ → δ) :
    (r.fill (index (r.last + 1#32)) g).Filling index d (g e) where
  current := ⟨h.current.1, (fill_slots_of_ne hne.symm _).trans h.current.2⟩
  stamped := h.stamped
  next := by
    change (r.fill (index (r.last + 1#32)) g).slots (index (r.last + 1#32)) = _
    rw [fill_slots_self, h.next]
    rfl

end Writes

theorem Filling.grows_publish (h : r.Filling index d e) :
    r.Grows index (r.publish index (r.last + 1#32)) where
  news := ⟨[(r.slots (index (r.last + 1#32))).data], rfl, rfl⟩
  stamped := Nat.le_refl _
  current := fun _ => ⟨e, by simp [publish, h.next], h.next⟩
  kept := fun _ _ _ _ => rfl

theorem Filling.publish (h : r.Filling index d e) :
    (r.publish index (r.last + 1#32)).Quiet index e where
  current := ⟨by simp [Ring.publish, h.next], h.next⟩
  stamped := by
    rw [Ring.publish, length_cons, h.stamped]

/-! ## What a reader knows -/

theorem Current.reading (h : r.Current index d) : r.Reading index r.last d := by
  refine ⟨0, ?_, by simp, fun _ => by rw [h.2]⟩
  rw [← head?_eq_getElem?]
  exact h.1

theorem Reading.grows (h : r.Reading index v d) (hg : r.Grows index r')
    (hst : r'.stamped < 2 ^ 32) : r'.Reading index v d := by
  obtain ⟨i, hi, rfl, hdata⟩ := h
  obtain ⟨l, hl, hlast⟩ := hg.news
  have hlen : i < r.published.length := (List.getElem?_eq_some_iff.mp hi).1
  refine ⟨l.length + i, ?_, ?_, fun hver => ?_⟩
  · rw [hl, getElem?_append_right (Nat.le_add_right _ _), Nat.add_sub_cancel_left]
    exact hi
  · rw [hlast, version_shift]
  · have hsame := hg.kept hst i hlen hver
    rw [← hsame] at hver ⊢
    exact hdata hver

/-- A version that the slot still has when the reading ends was not written meanwhile. -/
theorem Grows.version_of_reading (hg : r.Grows index r') (h : r.Reading index v d)
    (hst : r'.stamped < 2 ^ 32) (hver : (r'.slots (index v)).version = v) :
    (r.slots (index v)).version = v := by
  obtain ⟨i, hi, rfl, -⟩ := h
  have hlen : i < r.published.length := (List.getElem?_eq_some_iff.mp hi).1
  rw [hg.kept hst i hlen hver]
  exact hver

theorem Reading.mem (h : r.Reading index v d) : d ∈ r.published := by
  obtain ⟨i, hi, -⟩ := h
  exact mem_of_getElem? hi

end Ring

end

end CfsEds.Lib.VersionedRing
