import Mathlib.Data.List.Basic

/-!
# Splitting a list at a separator

`List.splitOn` as a loop sees it: what one more element at the end, a part without separators
at the start, and a separator in the middle do to the parts.
-/

namespace CfsEds.Lib

open List

variable {α : Type} [DecidableEq α] {a c : α} {xs last : List α} {parts : List (List α)}

theorem splitOn_concat_self (h : xs.splitOn a = parts ++ [last]) :
    (xs ++ [a]).splitOn a = (parts ++ [last]) ++ [[]] := by
  rw [splitOn_append_cons_self, h, splitOn_nil]

/-- What is free of separators goes to the front of the first part. -/
theorem splitOn_append_of_notMem (h : a ∉ xs) (ys : List α) :
    (xs ++ ys).splitOn a = (ys.splitOn a).modifyHead (xs ++ ·) := by
  induction xs with
  | nil => cases hys : ys.splitOn a <;> simp [hys]
  | cons x xs ih =>
    obtain ⟨hx, hxs⟩ := not_or.1 (mem_cons.not.1 h)
    have hne : (x == a) = false := by simpa using Ne.symm hx
    rw [cons_append, splitOn_cons_eq_if_modifyHead, hne, ih hxs]
    cases ys.splitOn a <;> rfl

theorem splitOn_of_notMem (h : a ∉ xs) : xs.splitOn a = [xs] := by
  have happend := splitOn_append_of_notMem h []
  simpa using happend

/-- The first part ends at the first separator. -/
theorem splitOn_of_mem (h : a ∈ xs) : ∃ rest, xs.dropWhile (· ≠ a) = a :: rest ∧
      xs.splitOn a = xs.takeWhile (· ≠ a) :: rest.splitOn a := by
  induction xs with
  | nil => cases h
  | cons x xs ih =>
    rw [splitOn_cons_eq_if_modifyHead]
    by_cases hx : x = a
    · subst hx
      exact ⟨xs, by simp, by simp⟩
    obtain ⟨rest, hdrop, hsplit⟩ := ih ((mem_cons.1 h).resolve_left (Ne.symm hx))
    refine ⟨rest, ?_, ?_⟩
    · rw [dropWhile_cons_of_pos (by simpa using hx), hdrop]
    · rw [if_neg (by simpa using hx), hsplit, takeWhile_cons_of_pos (by simpa using hx)]
      rfl

theorem splitOn_concat_of_ne (hc : c ≠ a) (h : xs.splitOn a = parts ++ [last]) :
    (xs ++ [c]).splitOn a = parts ++ [last ++ [c]] := by
  induction xs generalizing parts last with
  | nil =>
    have hparts : parts = [] ∧ last = [] := by
      cases parts with
      | nil => simpa using h.symm
      | cons => simp at h
    have hsplit : [c].splitOn a = [[c]] := splitOn_of_notMem (by simpa using hc.symm)
    rw [hparts.1, hparts.2]
    exact hsplit
  | cons x xs ih =>
    obtain ⟨ps, l, hps⟩ : ∃ ps l, xs.splitOn a = ps ++ [l] :=
      ⟨_, _, (dropLast_append_getLast (splitOn_ne_nil a xs)).symm⟩
    rw [splitOn_cons_eq_if_modifyHead, hps] at h
    rw [cons_append, splitOn_cons_eq_if_modifyHead, ih hps]
    by_cases hx : x == a
    · rw [if_pos hx] at h ⊢
      obtain ⟨rfl, rfl⟩ : parts = [] :: ps ∧ last = l := by
        rw [← cons_append] at h
        have hinj := append_inj' h rfl
        exact ⟨hinj.1.symm, by simpa using hinj.2.symm⟩
      rfl
    rw [if_neg hx] at h ⊢
    cases ps with
    | nil =>
      obtain ⟨rfl, rfl⟩ : parts = [] ∧ last = x :: l := by
        cases parts with
        | nil => simpa using h.symm
        | cons => simp at h
      rfl
    | cons p ps =>
      obtain ⟨rfl, rfl⟩ : parts = (x :: p) :: ps ∧ last = l := by
        have h' : ((x :: p) :: ps) ++ [l] = parts ++ [last] := h
        have hinj := append_inj' h' rfl
        exact ⟨hinj.1.symm, by simpa using hinj.2.symm⟩
      rfl

theorem notMem_of_mem_splitOn : ∀ part ∈ xs.splitOn a, a ∉ part := by
  induction xs with
  | nil => simp
  | cons x xs ih =>
    rw [splitOn_cons_eq_if_modifyHead]
    by_cases hx : x == a
    · rw [if_pos hx]
      intro part hpart
      rcases mem_cons.1 hpart with rfl | hrest
      · exact not_mem_nil
      · exact ih part hrest
    rw [if_neg hx]
    intro part hpart
    cases hsplit : xs.splitOn a with
    | nil => exact absurd hsplit (splitOn_ne_nil a xs)
    | cons first =>
      rw [hsplit] at hpart ih
      rcases mem_cons.1 hpart with rfl | hrest
      · intro hmem
        rcases mem_cons.1 hmem with rfl | hfirst
        · exact hx (beq_self_eq_true a)
        · exact ih first mem_cons_self hfirst
      · exact ih part (mem_cons_of_mem _ hrest)

theorem length_splitOn (xs : List α) : (xs.splitOn a).length = xs.count a + 1 := by
  induction xs with
  | nil => simp
  | cons x xs ih =>
    rw [splitOn_cons_eq_if_modifyHead, count_cons]
    by_cases hx : x == a
    · rw [if_pos hx, if_pos hx, length_cons, ih]
    · rw [if_neg hx, if_neg hx, length_modifyHead, ih, Nat.add_zero]

end CfsEds.Lib
