import Mathlib.Data.List.Nodup

/-!
# Singly linked lists ended by zero

A stack threaded through nodes: `next` gives the link stored in a node, the head
is a variable of its own and the link `0` ends the list. `Linked next head l`
says that following links from `head` visits exactly `l`. A list moves along to
other links that agree on its nodes (`Linked.congr`), and a node is pushed at the
head (`Linked.push`). A head that is not zero is the first node of the list
(`Linked.head_ne_zero`).
-/

namespace CfsEds.Lib.LinkedList

/-- Following `next` from `head` visits `l` and then meets `0`. -/
def Linked (next : Nat → Nat) : Nat → List Nat → Prop
  | head, [] => head = 0
  | head, x :: l => head = x ∧ x ≠ 0 ∧ Linked next (next x) l

variable {next next' : Nat → Nat} {head x : Nat} {l l' : List Nat}

theorem Linked.congr : ∀ {l : List Nat} {head : Nat}, Linked next head l →
    (∀ x ∈ l, next' x = next x) → Linked next' head l := by
  intro l
  induction l with
  | nil => intro head h _; exact h
  | cons x l ih =>
    intro head h hagree
    obtain ⟨hhead, hne, hrest⟩ := h
    refine ⟨hhead, hne, ?_⟩
    rw [hagree x (by simp)]
    exact ih hrest fun y hy => hagree y (by simp [hy])

/-- A head other than zero is the first node. -/
theorem Linked.head_ne_zero (h : Linked next head l) (hne : head ≠ 0) :
    ∃ rest, l = head :: rest ∧ Linked next (next head) rest := by
  cases l with
  | nil => exact absurd h hne
  | cons x rest =>
    obtain ⟨rfl, _, hrest⟩ := h
    exact ⟨rest, rfl, hrest⟩

/-- A fresh node linked to the old head. -/
theorem Linked.push (h : Linked next head l) (hx : x ≠ 0) (hlink : next' x = head)
    (hagree : ∀ y ∈ l, next' y = next y) : Linked next' x (x :: l) := by
  refine ⟨rfl, hx, ?_⟩
  rw [hlink]
  exact h.congr hagree

end CfsEds.Lib.LinkedList
