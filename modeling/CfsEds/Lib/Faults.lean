import Mathlib.Tactic.Common

/-!
# Stateful code that can fault

Code that updates a state and can stop with a fault is a function
`σ → Except ε (α × σ)`, that is `StateT σ (Except ε) α`. `wp x Q F s` says what a
run of `x` from `s` ends in: `Q` of the result and the last state when it comes
back, `F` of the fault when it does not. The rules below take a program apart
along its syntax, so that `simp` with a definition and these rules turns a goal
about a program into a goal about states.
-/

namespace CfsEds.Lib.Faults

open List

variable {σ ε α β : Type}

/-- `x` run from `s` comes back with `Q` or stops with `F`. -/
def wp (x : StateT σ (Except ε) α) (Q : α → σ → Prop) (F : ε → Prop) (s : σ) : Prop :=
  match x.run s with
  | .ok (a, s') => Q a s'
  | .error e => F e

variable {x : StateT σ (Except ε) α} {Q Q' : α → σ → Prop} {F F' : ε → Prop} {s s' : σ}

@[simp] theorem wp_pure (a : α) : wp (pure a : StateT σ (Except ε) α) Q F s ↔ Q a s := Iff.rfl

@[simp] theorem wp_bind (f : α → StateT σ (Except ε) β) (Q : β → σ → Prop) :
    wp (x >>= f) Q F s ↔ wp x (fun a s' => wp (f a) Q F s') F s := by
  simp only [wp, StateT.run_bind]
  cases x.run s <;> rfl

@[simp] theorem wp_map (f : α → β) (Q : β → σ → Prop) :
    wp (f <$> x) Q F s ↔ wp x (fun a s' => Q (f a) s') F s := by
  simp only [wp, StateT.run_map]
  cases x.run s <;> rfl

@[simp] theorem wp_get (Q : σ → σ → Prop) :
    wp (get : StateT σ (Except ε) σ) Q F s ↔ Q s s := Iff.rfl

@[simp] theorem wp_modify (f : σ → σ) (Q : PUnit → σ → Prop) :
    wp (modify f : StateT σ (Except ε) PUnit) Q F s ↔ Q ⟨⟩ (f s) := Iff.rfl

@[simp] theorem wp_throw (e : ε) : wp (throw e : StateT σ (Except ε) α) Q F s ↔ F e := Iff.rfl

theorem wp_ite (c : Prop) [Decidable c] (y : StateT σ (Except ε) α) :
    wp (if c then x else y) Q F s ↔ if c then wp x Q F s else wp y Q F s := by
  split <;> rfl

/-- What holds of everything holds of the end of a run. -/
theorem wp_intro (hQ : ∀ a s', x.run s = .ok (a, s') → Q a s') (hF : ∀ e, F e) : wp x Q F s := by
  unfold wp
  split
  · exact hQ _ _ ‹_›
  · exact hF _

/-- Postconditions may be weakened. -/
theorem wp_mono (h : wp x Q F s) (hQ : ∀ a s', Q a s' → Q' a s') (hF : ∀ e, F e → F' e) :
    wp x Q' F' s := by
  unfold wp at h ⊢
  cases hx : x.run s with
  | ok r =>
    rw [hx] at h
    exact hQ r.1 r.2 h
  | error e =>
    rw [hx] at h
    exact hF e h

theorem wp_imp (h : wp x Q F s) (hQ : ∀ a s', Q a s' → Q' a s') : wp x Q' F s :=
  wp_mono h hQ fun _ h => h

/-- One program after another. -/
theorem wp_seq {f : α → StateT σ (Except ε) β} {R : β → σ → Prop} (h : wp x Q F s)
    (hf : ∀ a s', Q a s' → wp (f a) R F s') : wp (x >>= f) R F s :=
  (wp_bind f R).2 (wp_imp h hf)

/-- Two facts about the same run. -/
theorem wp_and (h : wp x Q F s) (h' : wp x Q' F' s) :
    wp x (fun a s' => Q a s' ∧ Q' a s') (fun e => F e ∧ F' e) s := by
  unfold wp at h h' ⊢
  cases hx : x.run s with
  | ok | error =>
    rw [hx] at h h'
    exact ⟨h, h'⟩

/-- What holds of every way to end holds of the end that was reached. -/
theorem wp_ok {a : α} (h : wp x Q F s) (hx : x.run s = .ok (a, s')) : Q a s' := by
  unfold wp at h
  rw [hx] at h
  exact h

theorem wp_error {e : ε} (h : wp x Q F s) (hx : x.run s = .error e) : F e := by
  unfold wp at h
  rw [hx] at h
  exact h

/-- `wp` is about the one way a run ends. -/
theorem wp_of_ok {a : α} (hx : x.run s = .ok (a, s')) : wp x Q F s ↔ Q a s' := by
  unfold wp
  rw [hx]

/-- What cannot stop with a fault comes back. -/
theorem wp_outcome (h : wp x Q (fun _ => False) s) : ∃ a s', x.run s = .ok (a, s') ∧ Q a s' := by
  unfold wp at h
  cases hx : x.run s with
  | ok r =>
    rw [hx] at h
    exact ⟨r.1, r.2, rfl, h⟩
  | error =>
    rw [hx] at h
    exact h.elim

/-! ## Loops over a list -/

/-- An invariant that every pass keeps holds after the loop. -/
theorem wp_forM {l : List α} {body : α → StateT σ (Except ε) PUnit} {I : σ → Prop}
    (hbody : ∀ a ∈ l, ∀ s, I s → wp (body a) (fun _ s' => I s') F s) (hs : I s) :
    wp (forM l body) (fun _ s' => I s') F s := by
  induction l generalizing s with
  | nil => exact hs
  | cons a l ih =>
    rw [forM_cons, wp_bind]
    refine wp_mono (hbody a mem_cons_self s hs) (fun _ s' hs' => ?_) (fun _ h => h)
    exact ih (fun b hb => hbody b (mem_cons_of_mem a hb)) hs'

/-- What every pass brings about, and no pass undoes, holds for all of the list after the
loop. -/
theorem wp_forM_each {l : List α} {body : α → StateT σ (Except ε) PUnit} {I : σ → Prop}
    {P : α → σ → Prop}
    (hbody : ∀ a ∈ l, ∀ s, I s → wp (body a) (fun _ s' => I s' ∧ P a s' ∧ ∀ b, P b s → P b s') F s)
    (hs : I s) :
    wp (forM l body) (fun _ s' => I s' ∧ (∀ a ∈ l, P a s') ∧ ∀ b, P b s → P b s') F s := by
  induction l generalizing s with
  | nil => exact ⟨hs, by simp, fun _ h => h⟩
  | cons a l ih =>
    rw [forM_cons, wp_bind]
    refine wp_mono (hbody a mem_cons_self s hs) (fun _ s₁ h₁ => ?_) (fun _ h => h)
    obtain ⟨hs₁, ha, hkeep⟩ := h₁
    refine wp_mono (ih (fun b hb => hbody b (mem_cons_of_mem a hb)) hs₁)
      (fun _ s₂ h₂ => ?_) (fun _ h => h)
    obtain ⟨hs₂, hall, hkeep₂⟩ := h₂
    refine ⟨hs₂, fun b hb => ?_, fun b hb => hkeep₂ b (hkeep b hb)⟩
    rcases mem_cons.1 hb with rfl | hb
    · exact hkeep₂ b ha
    · exact hall b hb

end CfsEds.Lib.Faults
