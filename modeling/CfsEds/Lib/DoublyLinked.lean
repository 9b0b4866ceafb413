import Mathlib.Data.List.Nodup

/-!
# Doubly linked lists

Nodes with a link to the next and one to the previous node. `Linked next prev head l` says
that the links of the nodes of `l` are those of a list that starts at `head`, and that no
node is in it twice. The two changes that a list sees are the insertion of a node at the
head (`Linked.push`) and the removal of a node at any place (`Linked.remove`); all other
nodes may change as they like (`Linked.congr`).

`follow` collects the nodes from the head, and `walk` stops at the first one with a
property. Both have fuel, and the length of the list is enough.
-/

namespace CfsEds.Lib.DoublyLinked

open List

variable {α : Type} {next prev next' prev' : α → Option α} {head p : Option α}
  {a b : α} {l l₁ l₂ : List α}

/-- The links of `l`, as the rest of a list whose last node so far is `p`. -/
def Chain (next prev : α → Option α) : Option α → List α → Prop
  | _, [] => True
  | p, a :: l => prev a = p ∧ next a = l.head? ∧ Chain next prev (some a) l

/-- The nodes of the list at `head` are `l`. -/
structure Linked (next prev : α → Option α) (head : Option α) (l : List α) : Prop where
  head : head = l.head?
  chain : Chain next prev none l
  nodup : l.Nodup

theorem Linked.nil : Linked next prev none [] := ⟨rfl, trivial, nodup_nil⟩

theorem Chain.congr (h : Chain next prev p l) (hnext : ∀ x ∈ l, next' x = next x)
    (hprev : ∀ x ∈ l, prev' x = prev x) : Chain next' prev' p l := by
  induction l generalizing p with
  | nil => trivial
  | cons a l ih =>
    obtain ⟨hp, hn, hrest⟩ := h
    refine ⟨(hprev a (by simp)).trans hp, (hnext a (by simp)).trans hn, ?_⟩
    exact ih hrest (fun x hx => hnext x (by simp [hx])) fun x hx => hprev x (by simp [hx])

theorem Linked.congr (h : Linked next prev head l) (hnext : ∀ x ∈ l, next' x = next x)
    (hprev : ∀ x ∈ l, prev' x = prev x) : Linked next' prev' head l :=
  ⟨h.head, h.chain.congr hnext hprev, h.nodup⟩

/-- The links of a node in the middle. -/
theorem Chain.links (h : Chain next prev p (l₁ ++ a :: l₂)) :
    prev a = l₁.getLast?.or p ∧ next a = l₂.head? := by
  induction l₁ generalizing p with
  | nil => exact ⟨h.1, h.2.1⟩
  | cons x l₁ ih =>
    obtain ⟨hp, hn⟩ := ih h.2.2
    refine ⟨?_, hn⟩
    rw [hp, getLast?_cons]
    cases l₁.getLast? <;> rfl

/-- The links between two nodes are inverse to each other. -/
theorem Linked.inverse (h : Linked next prev head l) (ha : a ∈ l) (hb : b ∈ l) :
    next a = some b ↔ prev b = some a := by
  constructor
  · intro hnext
    obtain ⟨l₁, l₂, rfl⟩ := append_of_mem ha
    rw [h.chain.links.2] at hnext
    obtain ⟨l₃, rfl⟩ := head?_eq_some_iff.1 hnext
    have hsplit : l₁ ++ a :: b :: l₃ = (l₁ ++ [a]) ++ b :: l₃ := by simp
    have hchain := h.chain
    rw [hsplit] at hchain
    rw [hchain.links.1]
    simp
  · intro hprev
    obtain ⟨l₁, l₂, rfl⟩ := append_of_mem hb
    rw [h.chain.links.1, Option.or_none] at hprev
    obtain ⟨l₃, rfl⟩ := getLast?_eq_some_iff.1 hprev
    have hchain := h.chain
    rw [append_assoc] at hchain
    exact hchain.links.2

section Change

variable [DecidableEq α]

/-- A new node at the head. -/
theorem Linked.push (h : Linked next prev head l) (ha : a ∉ l) (hnexta : next' a = head)
    (hpreva : prev' a = none) (hnext : ∀ x ∈ l, next' x = next x)
    (hprev : ∀ x ∈ l, prev' x = if head = some x then some a else prev x) :
    Linked next' prev' (some a) (a :: l) := by
  refine ⟨rfl, ⟨hpreva, hnexta.trans h.head, ?_⟩, nodup_cons.2 ⟨ha, h.nodup⟩⟩
  cases l with
  | nil => trivial
  | cons x =>
    obtain ⟨-, hn, hrest⟩ := h.chain
    have hnodup := nodup_cons.1 h.nodup
    refine ⟨?_, (hnext x (by simp)).trans hn, hrest.congr (fun y hy => hnext y (by simp [hy])) ?_⟩
    · exact (hprev x (by simp)).trans (if_pos h.head)
    · intro y hy
      rw [hprev y (by simp [hy]), if_neg]
      rw [h.head]
      rintro ⟨⟩
      exact hnodup.1 hy

/-- A node is taken out: the one before it gets its next link, and the one after it its
previous link. -/
theorem Chain.remove (h : Chain next prev p (l₁ ++ a :: l₂)) (hnodup : (l₁ ++ a :: l₂).Nodup)
    (hp : ∀ y ∈ p, y ∉ l₁ ++ a :: l₂)
    (hnext : ∀ x ∈ l₁ ++ l₂, next' x = if prev a = some x then next a else next x)
    (hprev : ∀ x ∈ l₁ ++ l₂, prev' x = if next a = some x then prev a else prev x) :
    Chain next' prev' p (l₁ ++ l₂) := by
  obtain ⟨hpreva, hnexta⟩ := h.links
  induction l₁ generalizing p with
  | nil =>
    -- the node was the first
    have hkept : ∀ x ∈ l₂, next' x = next x := by
      intro x hx
      rw [hnext x hx, if_neg]
      rw [h.1]
      intro heq
      exact hp x heq (by simp [hx])
    cases l₂ with
    | nil => trivial
    | cons c =>
      obtain ⟨-, -, -, hn, hrest⟩ := h
      have hc := (nodup_cons.1 (nodup_cons.1 hnodup).2).1
      refine ⟨?_, (hkept c (by simp)).trans hn, hrest.congr (fun x hx => hkept x (by simp [hx])) ?_⟩
      · exact (hprev c (by simp)).trans ((if_pos hnexta).trans hpreva)
      · intro x hx
        rw [hprev x (by simp [hx]), if_neg]
        rw [hnexta]
        rintro ⟨⟩
        exact hc hx
  | cons x l₁ ih =>
    obtain ⟨hpx, hnx, hrest⟩ := h
    rw [cons_append, nodup_cons] at hnodup
    obtain ⟨hrp, hrn⟩ := hrest.links
    have hnot : ∀ y ∈ l₂, y ≠ x := by
      rintro y hy rfl
      exact hnodup.1 (by simp [hy])
    refine ⟨?_, ?_, ih hrest hnodup.2 ?_ (fun y hy => hnext y (by simp at hy ⊢; tauto))
      (fun y hy => hprev y (by simp at hy ⊢; tauto)) hrp⟩
    · rw [hprev x (by simp), if_neg, hpx]
      rw [hrn]
      intro heq
      exact hnot x (mem_of_head? heq) rfl
    · rw [hnext x (by simp)]
      cases l₁ with
      | nil =>
        exact (if_pos hrp).trans hrn
      | cons y l₁ =>
        rw [if_neg, hnx]
        · rfl
        · rw [hrp, getLast?_cons]
          intro heq
          have hmem : x ∈ y :: l₁ := by
            have := getLast?_eq_some_getLast (l := y :: l₁) (by simp)
            rw [getLast?_cons] at this
            rw [this] at heq
            cases heq
            exact getLast_mem _
          exact hnodup.1 (by simp at hmem ⊢; tauto)
    · rintro y ⟨⟩
      exact hnodup.1

theorem Linked.remove (h : Linked next prev head (l₁ ++ a :: l₂))
    (hnext : ∀ x ∈ l₁ ++ l₂, next' x = if prev a = some x then next a else next x)
    (hprev : ∀ x ∈ l₁ ++ l₂, prev' x = if next a = some x then prev a else prev x) :
    Linked next' prev' (if prev a = none then next a else head) (l₁ ++ l₂) := by
  obtain ⟨hpreva, hnexta⟩ := h.chain.links
  refine ⟨?_, h.chain.remove h.nodup (fun y hy => by cases hy) hnext hprev, ?_⟩
  · rw [hpreva, hnexta, h.head]
    cases l₁ with
    | nil => rfl
    | cons => simp [getLast?_cons]
  · exact h.nodup.sublist (List.Sublist.append_left (sublist_cons_self a l₂) l₁)

end Change

/-! ## Walking along the list -/

/-- The nodes from a link on. -/
def follow (next : α → Option α) : Nat → Option α → List α
  | 0, _ => []
  | _ + 1, none => []
  | n + 1, some a => a :: follow next n (next a)

/-- The first node from a link on with a property; nothing without enough fuel. -/
def walk (next : α → Option α) (stop : α → Bool) : Nat → Option α → Option (Option α)
  | 0, _ => none
  | _ + 1, none => some none
  | n + 1, some a => if stop a then some (some a) else walk next stop n (next a)

theorem Chain.follow {n : Nat} (h : Chain next prev p l) (hn : l.length ≤ n) :
    follow next n l.head? = l := by
  induction l generalizing p n with
  | nil => cases n <;> rfl
  | cons a l ih =>
    cases n with
    | zero => cases hn
    | succ n =>
      obtain ⟨-, hnext, hrest⟩ := h
      show a :: DoublyLinked.follow next n (next a) = a :: l
      rw [hnext, ih hrest (Nat.le_of_succ_le_succ hn)]

theorem Linked.follow {n : Nat} (h : Linked next prev head l) (hn : l.length ≤ n) :
    follow next n head = l := by
  rw [h.head]
  exact h.chain.follow hn

theorem Chain.walk {n : Nat} {stop : α → Bool} (h : Chain next prev p l) (hn : l.length < n) :
    walk next stop n l.head? = some (l.find? stop) := by
  induction l generalizing p n with
  | nil =>
    cases n with
    | zero => cases hn
    | succ => rfl
  | cons a l ih =>
    cases n with
    | zero => cases hn
    | succ =>
      obtain ⟨-, hnext, hrest⟩ := h
      rw [head?_cons, DoublyLinked.walk, find?_cons]
      cases stop a with
      | true => rfl
      | false =>
        rw [if_neg Bool.false_ne_true, hnext, ih hrest (Nat.lt_of_succ_lt_succ hn)]

theorem Linked.walk {n : Nat} {stop : α → Bool} (h : Linked next prev head l)
    (hn : l.length < n) : walk next stop n head = some (l.find? stop) := by
  rw [h.head]
  exact h.chain.walk hn

end CfsEds.Lib.DoublyLinked
