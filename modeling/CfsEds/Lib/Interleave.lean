import Mathlib.Logic.Basic

/-!
# Programs that share a state

A context runs a `Prog`: it makes one access to the shared state after the other, and
others may run between any two of them. What holds of it is said with a weakest
precondition that has the two relations of rely-guarantee reasoning. `wp R G p Q s` says
that `p`, started in `s`, only makes accesses that `G` allows and ends with `Q`, as long as
the others only do what `R` allows.

The rules for runs are `wp_step` (the context takes a step) and `wp_stable` (another one
does). Often a context owns a part of the state, which nobody else writes. `Triple` is the
form of `wp` for it, with pre- and postconditions on that part.
-/

namespace CfsEds.Lib.Interleave

/-- A sequential program over a shared state: a result, or an atomic access and the
program that follows on its answer. -/
inductive Prog (σ α : Type) : Type 1 where
  | done (a : α)
  | act {β : Type} (f : σ → β × σ) (k : β → Prog σ α)

namespace Prog

variable {σ α β : Type}

/-- Sequencing. -/
def bind : Prog σ α → (α → Prog σ β) → Prog σ β
  | .done a, g => g a
  | .act f k, g => .act f fun b => (k b).bind g

instance : Monad (Prog σ) where
  pure := .done
  bind := bind

/-- Read something from the state. -/
def read (g : σ → β) : Prog σ β := .act (fun s => (g s, s)) .done

/-- Change the state. -/
def write (g : σ → σ) : Prog σ Unit := .act (fun s => ((), g s)) .done

/-- The program when nobody else runs. -/
def run : Prog σ α → σ → α × σ
  | .done a, s => (a, s)
  | .act f k, s => (k (f s).1).run (f s).2

/-- The first access of the program, if it has not ended. -/
def step : Prog σ α → σ → Option (Prog σ α × σ)
  | .done _, _ => none
  | .act f k, s => some (k (f s).1, (f s).2)

/-- What the program returned, if it has ended. -/
def result? : Prog σ α → Option α
  | .done a => some a
  | .act _ _ => none

/-- The program may return `a`, when others may do anything between its accesses. -/
def Returns (a : α) : Prog σ α → Prop
  | .done b => b = a
  | .act f k => ∃ s, (k (f s).1).Returns a

/-- The program has ended. -/
def isDone : Prog σ Unit → Bool
  | .done _ => true
  | .act _ _ => false

theorem eq_done_of_isDone {p : Prog σ Unit} (h : p.isDone = true) : p = .done () := by
  cases p with
  | done => rfl
  | act => exact absurd h (by simp [isDone])

@[simp] theorem run_bind (p : Prog σ α) (k : α → Prog σ β) (s : σ) :
    (p >>= k).run s = (k (p.run s).1).run (p.run s).2 := by
  change (p.bind k).run s = _
  induction p generalizing s with
  | done => rfl
  | act f m ih => exact ih (f s).1 (f s).2

theorem bind_bind {γ : Type} (p : Prog σ α) (k : α → Prog σ β) (l : β → Prog σ γ) :
    p >>= k >>= l = p >>= fun a => k a >>= l := by
  change (p.bind k).bind l = p.bind fun a => (k a).bind l
  induction p with
  | done => rfl
  | act f m ih => exact congrArg (Prog.act f) (funext ih)

theorem returns_run (p : Prog σ α) (s : σ) : p.Returns (p.run s).1 := by
  induction p generalizing s with
  | done => rfl
  | act f k ih => exact ⟨s, ih _ _⟩

theorem returns_bind {p : Prog σ α} {k : α → Prog σ β} {b : β} (h : (p >>= k).Returns b) :
    ∃ a, p.Returns a ∧ (k a).Returns b := by
  change (p.bind k).Returns b at h
  induction p with
  | done a => exact ⟨a, rfl, h⟩
  | act f m ih =>
    obtain ⟨s, hs⟩ := h
    obtain ⟨a, ha, hb⟩ := ih (f s).1 hs
    exact ⟨a, ⟨s, ha⟩, hb⟩

theorem bind_returns {p : Prog σ α} {k : α → Prog σ β} {a : α} {b : β} (hp : p.Returns a)
    (hk : (k a).Returns b) : (p >>= k).Returns b := by
  change (p.bind k).Returns b
  induction p with
  | done a' =>
    cases hp
    exact hk
  | act f m ih =>
    obtain ⟨s, hs⟩ := hp
    exact ⟨s, ih _ hs⟩

end Prog

/-- What a context relies on the others for: a preorder on states. -/
structure Rely (σ : Type) where
  rel : σ → σ → Prop
  refl : ∀ s, rel s s
  trans : ∀ {s t u}, rel s t → rel t u → rel s u

section

variable {σ α β : Type} {R : Rely σ} {G : σ → σ → Prop}

/-- Every access of the program keeps to `G`, and it ends with `Q`, whatever others do
within `R` before, between and after its accesses. -/
def wp (R : Rely σ) (G : σ → σ → Prop) : Prog σ α → (α → σ → Prop) → σ → Prop
  | .done a, Q, s => ∀ s', R.rel s s' → Q a s'
  | .act f k, Q, s => ∀ s', R.rel s s' → G s' (f s').2 ∧ wp R G (k (f s').1) Q (f s').2

theorem wp_stable {p : Prog σ α} {Q : α → σ → Prop} {s s' : σ} (h : wp R G p Q s)
    (hs : R.rel s s') : wp R G p Q s' := by
  cases p with
  | done a | act f k => exact fun t ht => h t (R.trans hs ht)

theorem wp_done {a : α} {Q : α → σ → Prop} {s : σ} (h : wp R G (.done a) Q s) : Q a s :=
  h s (R.refl s)

theorem wp_step {p p' : Prog σ α} {Q : α → σ → Prop} {s s' : σ} (h : wp R G p Q s)
    (hstep : p.step s = some (p', s')) : G s s' ∧ wp R G p' Q s' := by
  cases p with
  | done => exact absurd hstep (by simp [Prog.step])
  | act =>
    obtain ⟨rfl, rfl⟩ := Prod.mk.inj (Option.some.inj hstep)
    exact h s (R.refl s)

/-- The program may be run to its end from here, with nobody else running. -/
theorem wp_run {p : Prog σ α} {Q : α → σ → Prop} {s : σ} (T : Rely σ)
    (hT : ∀ {t u}, G t u → T.rel t u) (h : wp R G p Q s) :
    T.rel s (p.run s).2 ∧ Q (p.run s).1 (p.run s).2 := by
  induction p generalizing s with
  | done => exact ⟨T.refl s, wp_done h⟩
  | act f k ih =>
    obtain ⟨hG, hk⟩ := h s (R.refl s)
    obtain ⟨hrel, hQ⟩ := ih _ hk
    exact ⟨T.trans (hT hG) hrel, hQ⟩

theorem wp_mono {p : Prog σ α} {Q Q' : α → σ → Prop} {s : σ} (h : wp R G p Q s)
    (hQ : ∀ a t, Q a t → Q' a t) : wp R G p Q' s := by
  induction p generalizing s with
  | done a => exact fun t ht => hQ a t (h t ht)
  | act f k ih => exact fun t ht => ⟨(h t ht).1, ih _ (h t ht).2⟩

theorem wp_bind {p : Prog σ α} {k : α → Prog σ β} {Q : β → σ → Prop} {s : σ}
    (h : wp R G p (fun a t => wp R G (k a) Q t) s) : wp R G (p >>= k) Q s := by
  change wp R G (p.bind k) Q s
  induction p generalizing s with
  | done => exact h s (R.refl s)
  | act f m ih => exact fun t ht => ⟨(h t ht).1, ih _ (h t ht).2⟩

theorem wp_pure {a : α} {Q : α → σ → Prop} {s : σ} (h : ∀ t, R.rel s t → Q a t) :
    wp R G (pure a) Q s :=
  h

theorem wp_read {g : σ → β} {Q : β → σ → Prop} {s : σ} (hG : ∀ t, G t t)
    (h : ∀ t, R.rel s t → ∀ u, R.rel t u → Q (g t) u) : wp R G (Prog.read g) Q s :=
  fun t ht => ⟨hG t, h t ht⟩

theorem wp_write {g : σ → σ} {Q : Unit → σ → Prop} {s : σ}
    (h : ∀ t, R.rel s t → G t (g t) ∧ ∀ u, R.rel (g t) u → Q () u) :
    wp R G (Prog.write g) Q s :=
  fun t ht => h t ht

end

/-! ## A context that owns a part of the state -/

section Owned

variable {σ ω α β : Type} {own : σ → ω} {G : σ → σ → Prop}

/-- Nobody else changes the part. -/
def keeps (own : σ → ω) : Rely σ where
  rel s t := own t = own s
  refl _ := rfl
  trans h₁ h₂ := h₂.trans h₁

/-- From `P` on the part it owns, the program keeps to `G` and ends with `Q` on it. -/
def Triple (own : σ → ω) (G : σ → σ → Prop) (P : ω → Prop) (p : Prog σ α)
    (Q : α → ω → Prop) : Prop :=
  ∀ s, P (own s) → wp (keeps own) G p (fun a t => Q a (own t)) s

namespace Triple

variable {P P' : ω → Prop} {p : Prog σ α} {k : α → Prog σ β} {Q Q' : α → ω → Prop}
  {T : β → ω → Prop}

theorem bind (hp : Triple own G P p Q) (hk : ∀ a, Triple own G (Q a) (k a) T) :
    Triple own G P (p >>= k) T :=
  fun s hs => wp_bind (wp_mono (hp s hs) hk)

theorem pure {a : α} (h : ∀ w, P w → Q a w) : Triple own G P (Pure.pure a) Q := by
  intro s hs
  refine wp_pure fun t ht => h _ ?_
  rw [show own t = own s from ht]
  exact hs

theorem conseq (h : Triple own G P p Q) (hP : ∀ w, P' w → P w)
    (hQ : ∀ a w, Q a w → Q' a w) : Triple own G P' p Q' :=
  fun s hs => wp_mono (h s (hP _ hs)) fun a _ ht => hQ a _ ht

theorem read {g : σ → β} (hG : ∀ s, G s s) (h : ∀ s, P (own s) → T (g s) (own s)) :
    Triple own G P (Prog.read g) T := by
  intro s hs
  refine wp_read hG fun t ht u hu => ?_
  rw [show own u = own t from hu]
  refine h t ?_
  rw [show own t = own s from ht]
  exact hs

theorem write {g : σ → σ} {T : Unit → ω → Prop}
    (h : ∀ s, P (own s) → G s (g s) ∧ T () (own (g s))) : Triple own G P (Prog.write g) T := by
  intro s hs
  refine wp_write fun t ht => ?_
  have hP : P (own t) := by
    rw [show own t = own s from ht]
    exact hs
  refine ⟨(h t hP).1, fun u hu => ?_⟩
  rw [show own u = own (g t) from hu]
  exact (h t hP).2

theorem ite {c : Prop} [Decidable c] {q : Prog σ α} (hp : c → Triple own G P p Q)
    (hq : ¬ c → Triple own G P q Q) : Triple own G P (if c then p else q) Q := by
  split
  next h => exact hp h
  next h => exact hq h

/-- A fact that does not mention the state may be assumed. -/
theorem of_pure {c : Prop} (h : c → Triple own G P p Q) : Triple own G (fun w => c ∧ P w) p Q :=
  fun s hs => h hs.1 s hs.2

theorem exists_pre {ι : Sort*} {F : ι → ω → Prop} (h : ∀ i, Triple own G (F i) p Q) :
    Triple own G (fun w => ∃ i, F i w) p Q :=
  fun s ⟨i, hi⟩ => h i s hi

end Triple

end Owned

end CfsEds.Lib.Interleave
