import Mathlib.Logic.Function.Basic
import Mathlib.Logic.ExistsUnique

/-!
# Resources with one owner each

A pool marks its resources as taken. Who has taken them is written down elsewhere, by
holders that have one resource or none. `Owned` says that the marks and the holders
agree: what is marked has exactly one holder, what a holder has is marked. Taking a free
resource and giving one back keep the agreement.
-/

namespace CfsEds.Lib.Ownership

open Function

variable {ι κ : Type}

/-- The marks and the holders agree. -/
structure Owned (taken : ι → Bool) (held : κ → Option ι) : Prop where
  taken_iff : ∀ i, taken i = true ↔ ∃ o, held o = some i
  unique : ∀ o o' i, held o = some i → held o' = some i → o = o'

namespace Owned

variable {taken : ι → Bool} {held : κ → Option ι} {i : ι} {o : κ}

theorem existsUnique (h : Owned taken held) (hi : taken i = true) : ∃! o, held o = some i := by
  obtain ⟨o, ho⟩ := (h.taken_iff i).1 hi
  exact ⟨o, ho, fun o' ho' => h.unique o' o i ho' ho⟩

theorem empty (htaken : ∀ i, taken i = false) (hheld : ∀ o, held o = none) : Owned taken held where
  taken_iff i := by simp [htaken, hheld]
  unique o o' i ho := by simp [hheld] at ho

variable [DecidableEq ι] [DecidableEq κ]

/-- A free resource is taken by somebody who has none. -/
theorem acquire (h : Owned taken held) (hi : taken i = false) (ho : held o = none) :
    Owned (update taken i true) (update held o (some i)) := by
  have hnobody : ∀ o', held o' ≠ some i := by
    intro o' ho'
    have := (h.taken_iff i).2 ⟨o', ho'⟩
    simp [hi] at this
  refine ⟨fun j => ?_, fun o₁ o₂ j h₁ h₂ => ?_⟩
  · by_cases hj : j = i
    · subst hj
      rw [update_self]
      exact ⟨fun _ => ⟨o, update_self o _ held⟩, fun _ => rfl⟩
    rw [update_of_ne hj, h.taken_iff j]
    constructor
    · rintro ⟨o', ho'⟩
      have hne : o' ≠ o := by
        rintro rfl
        simp [ho] at ho'
      exact ⟨o', by rw [update_of_ne hne, ho']⟩
    · rintro ⟨o', ho'⟩
      by_cases hne : o' = o
      · subst hne
        rw [update_self] at ho'
        exact absurd (Option.some.inj ho').symm hj
      · exact ⟨o', by rwa [update_of_ne hne] at ho'⟩
  · by_cases hne₁ : o₁ = o
    · by_cases hne₂ : o₂ = o
      · rw [hne₁, hne₂]
      subst hne₁
      rw [update_self] at h₁
      rw [update_of_ne hne₂, ← Option.some.inj h₁] at h₂
      exact absurd h₂ (hnobody o₂)
    rw [update_of_ne hne₁] at h₁
    by_cases hne₂ : o₂ = o
    · subst hne₂
      rw [update_self] at h₂
      rw [← Option.some.inj h₂] at h₁
      exact absurd h₁ (hnobody o₁)
    · rw [update_of_ne hne₂] at h₂
      exact h.unique o₁ o₂ j h₁ h₂

/-- A holder gives back what it has. -/
theorem release (h : Owned taken held) (ho : held o = some i) :
    Owned (update taken i false) (update held o none) := by
  have hother : ∀ o' j, update held o none o' = some j → o' ≠ o ∧ held o' = some j := by
    intro o' j ho'
    by_cases hne : o' = o
    · subst hne
      simp at ho'
    · rw [update_of_ne hne] at ho'
      exact ⟨hne, ho'⟩
  refine ⟨fun j => ?_, fun o₁ o₂ j h₁ h₂ => ?_⟩
  · by_cases hj : j = i
    · subst hj
      rw [update_self]
      refine ⟨nofun, ?_⟩
      rintro ⟨o', ho'⟩
      obtain ⟨hne, ho'⟩ := hother o' j ho'
      exact absurd (h.unique o' o j ho' ho) hne
    rw [update_of_ne hj, h.taken_iff j]
    constructor
    · rintro ⟨o', ho'⟩
      have hne : o' ≠ o := by
        rintro rfl
        rw [ho] at ho'
        exact hj (Option.some.inj ho').symm
      exact ⟨o', by rw [update_of_ne hne, ho']⟩
    · rintro ⟨o', ho'⟩
      exact ⟨o', (hother o' j ho').2⟩
  · exact h.unique o₁ o₂ j (hother o₁ j h₁).2 (hother o₂ j h₂).2

end Owned

end CfsEds.Lib.Ownership
