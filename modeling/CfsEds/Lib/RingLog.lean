import Mathlib.Data.Nat.ModEq
import Mathlib.Logic.Function.Basic

/-!
# Logs in a ring

A log of a ring of `n` entries stores the `i`-th item at the index `i % n`, and so keeps the last
`n` of them. `Holds` says so, `Holds.push` is the step, and `Holds.read` is the log read back
from some item on.
-/

namespace CfsEds.Lib.RingLog

open List Function

variable {α : Type} {n : Nat} {entry : Nat → α} {xs : List α}

/-- Two of less than `n` items in a row have different entries. -/
theorem mod_ne_of_lt {j k n : Nat} (hjk : j < k) (hn : k < j + n) : j % n ≠ k % n := by
  intro h
  have hdvd : n ∣ k - j := (Nat.modEq_iff_dvd' (Nat.le_of_lt hjk)).mp h
  have := Nat.le_of_dvd (by omega) hdvd
  omega

/-- An index that is wrapped when it reaches the end. -/
theorem mod_succ {n : Nat} (hn : 0 < n) (i : Nat) :
    (if n ≤ i % n + 1 then 0 else i % n + 1) = (i + 1) % n := by
  have hlt := Nat.mod_lt i hn
  rw [← Nat.mod_add_mod]
  split_ifs with h
  · rw [show i % n + 1 = n by omega, Nat.mod_self]
  · exact (Nat.mod_eq_of_lt (by omega)).symm

/-- The ring has the last `n` items. -/
def Holds (n : Nat) (entry : Nat → α) (xs : List α) : Prop :=
  ∀ i x, xs[i]? = some x → xs.length ≤ i + n → entry (i % n) = x

theorem Holds.push (h : Holds n entry xs) (x : α) :
    Holds n (update entry (xs.length % n) x) (xs ++ [x]) := by
  intro i y hi hkept
  rw [length_append, length_singleton] at hkept
  rcases Nat.lt_trichotomy i xs.length with hlt | rfl | hgt
  · rw [getElem?_append_left hlt] at hi
    rw [update_of_ne (mod_ne_of_lt hlt (by omega))]
    exact h i y hi (by omega)
  · rw [getElem?_concat_length] at hi
    rw [update_self, Option.some.inj hi]
  · rw [getElem?_eq_none (by simp; omega)] at hi
    cases hi

/-- The items from the `j`-th on. -/
theorem Holds.read (h : Holds n entry xs) {j : Nat} (hj : xs.length ≤ j + n) :
    (range' j (xs.length - j)).map (fun i => entry (i % n)) = xs.drop j := by
  apply ext_getElem
  · simp
  · intro i hi _
    simp only [length_map, length_range'] at hi
    rw [getElem_map, getElem_range', getElem_drop, one_mul]
    exact h _ _ (getElem?_eq_getElem (by omega)) (by omega)

end CfsEds.Lib.RingLog
