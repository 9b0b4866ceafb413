import Mathlib.Algebra.Order.BigOperators.Group.List
import Mathlib.Algebra.Ring.Nat
import Mathlib.Data.List.GetD

/-!
# Reference counts

Objects `0, 1, …, n - 1` have a counter each, and are returned when it becomes zero.
`Counted` says that the counters are right: they equal the number of references, and
an object was returned once if there are none and not at all otherwise. References
may move, be taken (`Counted.acquire`), be given up (`Counted.release`) and a new object
may come with one (`Counted.create`).

The references are kept in the entries of tables, which are lists with a default value
outside. `tally f l` adds up a quantity over a table, and the lemmas here say what a
change to one entry does to it.
-/

namespace CfsEds.Lib.RefCount

open List

section Tables

variable {α β : Type} [Inhabited α] {f : α → Nat} {g : α → α} {l : List α} {i j : Nat}

/-! ## Entries -/

theorem getD_modify_self (hi : i < l.length) :
    (l.modify i g).getD i default = g (l.getD i default) := by
  simp [getD_eq_getElem?_getD, hi]

theorem getD_modify_of_ne (h : j ≠ i) : (l.modify i g).getD j default = l.getD j default := by
  simp [getD_eq_getElem?_getD, Ne.symm h]

/-- What a change leaves alone. -/
theorem getD_modify_of_eq {v : α → β} (h : ∀ x, v (g x) = v x) :
    v ((l.modify i g).getD j default) = v (l.getD j default) := by
  by_cases hj : j = i
  · subst hj
    by_cases hlt : j < l.length
    · rw [getD_modify_self hlt, h]
    · rw [modify_eq_self (Nat.le_of_not_lt hlt)]
  · rw [getD_modify_of_ne hj]

theorem getD_concat (x : α) :
    (l ++ [x]).getD j default = if j = l.length then x else l.getD j default := by
  rcases Nat.lt_trichotomy j l.length with hj | hj | hj
  · rw [getD_append _ _ _ _ hj, if_neg (by omega)]
  · subst hj
    rw [getD_append_right _ _ _ _ (Nat.le_refl _), if_pos rfl, Nat.sub_self]
    rfl
  have hlen : (l ++ [x]).length ≤ j := by
    rw [length_append, length_singleton]
    omega
  rw [getD_eq_default _ _ hlen, getD_eq_default _ _ (by omega), if_neg (by omega)]

/-! ## Tallies -/

/-- The sum of `f` over the entries of a table. -/
def tally (f : α → Nat) (l : List α) : Nat := (l.map f).sum

omit [Inhabited α] in
@[simp] theorem tally_cons (x : α) : tally f (x :: l) = f x + tally f l := rfl

/-- Changing one entry. -/
theorem tally_modify (hi : i < l.length) :
    tally f (l.modify i g) + f (l.getD i default) = tally f l + f (g (l.getD i default)) := by
  induction l generalizing i with
  | nil => cases hi
  | cons x l ih =>
    cases i with
    | zero =>
      simp only [modify_zero_cons, tally_cons, getD_cons_zero]
      omega
    | succ i =>
      have := @ih i (by simpa using hi)
      simp only [modify_succ_cons, tally_cons, getD_cons_succ]
      omega

/-- A change that does not matter for the tally. -/
theorem tally_modify_of_eq (h : ∀ x, f (g x) = f x) : tally f (l.modify i g) = tally f l := by
  by_cases hi : i < l.length
  · have hsum := @tally_modify _ _ f g l i hi
    have := h (l.getD i default)
    omega
  · rw [modify_eq_self (Nat.le_of_not_lt hi)]

theorem le_tally (hi : i < l.length) : f (l.getD i default) ≤ tally f l := by
  induction l generalizing i with
  | nil => cases hi
  | cons x l ih =>
    cases i with
    | zero => simp
    | succ i =>
      have := @ih i (by simpa using hi)
      simp only [tally_cons, getD_cons_succ]
      omega

/-- Two entries contribute both. -/
theorem add_le_tally (hi : i < l.length) (hj : j < l.length) (hij : i ≠ j) :
    f (l.getD i default) + f (l.getD j default) ≤ tally f l := by
  induction l generalizing i j with
  | nil => cases hi
  | cons x l ih =>
    cases i with
    | zero =>
      cases j with
      | zero => exact absurd rfl hij
      | succ j =>
        have := @le_tally _ _ f l j (by simpa using hj)
        simp only [tally_cons, getD_cons_zero, getD_cons_succ]
        omega
    | succ i =>
      cases j with
      | zero =>
        have := @le_tally _ _ f l i (by simpa using hi)
        simp only [tally_cons, getD_cons_zero, getD_cons_succ]
        omega
      | succ j =>
        have := @ih i j (by simpa using hi) (by simpa using hj) (by omega)
        simp only [tally_cons, getD_cons_succ]
        omega

omit [Inhabited α] in
omit [Inhabited α] in
theorem tally_eq_zero (h : ∀ x ∈ l, f x = 0) : tally f l = 0 := by
  induction l with
  | nil => rfl
  | cons x l ih =>
    rw [tally_cons, h x (by simp), ih fun y hy => h y (by simp [hy])]

end Tables

/-! ## Counters -/

/-- The counters of `n` objects are right for these numbers of references. -/
structure Counted (n : Nat) (useCount returns refs : Nat → Nat) : Prop where
  use : ∀ b < n, useCount b = refs b
  ret : ∀ b < n, returns b = if refs b = 0 then 1 else 0
  bound : ∀ b, n ≤ b → refs b = 0

section Counted

variable {n b : Nat} {useCount useCount' returns returns' refs refs' : Nat → Nat}

section

variable (h : Counted n useCount returns refs)
include h

/-- An object with a reference exists. -/
theorem Counted.lt (hb : 0 < refs b) : b < n := by
  by_contra hge
  have := h.bound b (by omega)
  omega

/-- It has not been returned. -/
theorem Counted.returns_eq_zero (hb : 0 < refs b) : returns b = 0 := by
  rw [h.ret b (h.lt hb), if_neg (by omega)]

theorem Counted.congr (huse : ∀ c, useCount' c = useCount c) (hret : ∀ c, returns' c = returns c)
    (hrefs : ∀ c, refs' c = refs c) : Counted n useCount' returns' refs' := by
  obtain rfl := funext huse
  obtain rfl := funext hret
  obtain rfl := funext hrefs
  exact h

/-- More references to an object that has one. -/
theorem Counted.acquire {k : Nat} (hb : 0 < refs b)
    (huse : ∀ c, useCount' c = useCount c + if c = b then k else 0)
    (hret : ∀ c, returns' c = returns c) (hrefs : ∀ c, refs' c = refs c + if c = b then k else 0) :
    Counted n useCount' returns' refs' := by
  have hlt := h.lt hb
  refine ⟨fun c hc => ?_, fun c hc => ?_, fun c hc => ?_⟩
  · rw [huse, hrefs, h.use c hc]
  · rw [hret, hrefs, h.ret c hc]
    by_cases hcb : c = b
    · subst hcb
      rw [if_neg (by omega), if_neg (by omega)]
    · simp [hcb]
  · have := h.bound c hc
    rw [hrefs, if_neg (by omega)]
    omega

/-- One reference less; the object is returned with the last one. -/
theorem Counted.release (hb : 0 < refs b)
    (huse : ∀ c, useCount' c = useCount c - if c = b then 1 else 0)
    (hret : ∀ c, returns' c = returns c + if c = b ∧ refs b = 1 then 1 else 0)
    (hrefs : ∀ c, refs' c = refs c - if c = b then 1 else 0) :
    Counted n useCount' returns' refs' := by
  refine ⟨fun c hc => ?_, fun c hc => ?_, fun c hc => ?_⟩
  · rw [huse, hrefs, h.use c hc]
  · rw [hret, hrefs, h.ret c hc]
    by_cases hcb : c = b
    · subst hcb
      by_cases hone : refs c = 1
      · simp [hone]
      · rw [if_neg (by omega), if_neg (fun hf => hone hf.2), if_pos rfl, if_neg (by omega)]
    · simp [hcb]
  · have := h.bound c hc
    rw [hrefs, this]
    omega

/-- A new object with one reference. -/
theorem Counted.create (huse : ∀ c, useCount' c = if c = n then 1 else useCount c)
    (hret : ∀ c, returns' c = if c = n then 0 else returns c)
    (hrefs : ∀ c, refs' c = refs c + if c = n then 1 else 0) :
    Counted (n + 1) useCount' returns' refs' := by
  refine ⟨fun c hc => ?_, fun c hc => ?_, fun c hc => ?_⟩
  · rw [huse, hrefs]
    by_cases hcn : c = n
    · simp [hcn, h.bound n (Nat.le_refl n)]
    · simp [hcn, h.use c (by omega)]
  · rw [hret, hrefs]
    by_cases hcn : c = n
    · simp [hcn]
    · simp [hcn, h.ret c (by omega)]
  · rw [hrefs, h.bound c (by omega), if_neg (by omega)]

end

end Counted

end CfsEds.Lib.RefCount
