import Mathlib.Logic.Basic

/-!
# While loops with fuel

`whileFuel cond body n s` runs `while (cond s) s = body s` for at most `n`
iterations and is `none` when that is not enough. A loop *yields* `t` from `s`
when some amount of fuel ends in `t`; a loop that spins forever yields nothing.

The rules below are the ones a proof about a loop needs: unfold one iteration
(`yields_iff_of_pos`), there is one result (`Yields.unique`), an invariant holds
at the exit (`Yields.invariant`), and an invariant that keeps the condition true
excludes every exit (`not_yields_of_invariant`).
-/

namespace CfsEds.Lib.Loop

variable {σ : Type*}

/-- At most `n` iterations of `while (cond s) s = body s`. -/
def whileFuel (cond : σ → Bool) (body : σ → σ) : Nat → σ → Option σ
  | 0, s => if cond s then none else some s
  | n + 1, s => if cond s then whileFuel cond body n (body s) else some s

/-- The loop started in `s` ends in `t`. -/
def Yields (cond : σ → Bool) (body : σ → σ) (s t : σ) : Prop :=
  ∃ n, whileFuel cond body n s = some t

variable {cond : σ → Bool} {body : σ → σ} {s t u : σ}

theorem whileFuel_of_neg (h : cond s = false) (n : Nat) : whileFuel cond body n s = some s := by
  cases n <;> simp [whileFuel, h]

theorem whileFuel_succ_of_pos (h : cond s = true) (n : Nat) :
    whileFuel cond body (n + 1) s = whileFuel cond body n (body s) := by
  simp [whileFuel, h]

/-- More fuel does not change a result. -/
theorem whileFuel_mono : ∀ {n m : Nat} {s t : σ}, n ≤ m → whileFuel cond body n s = some t →
      whileFuel cond body m s = some t := by
  intro n
  induction n with
  | zero =>
    intro m s t _ h
    cases hc : cond s with
    | true => simp [whileFuel, hc] at h
    | false => rw [whileFuel_of_neg hc] at h ⊢; exact h
  | succ n ih =>
    intro m s t hnm h
    obtain ⟨m, rfl⟩ : ∃ k, m = k + 1 := ⟨m - 1, by omega⟩
    cases hc : cond s with
    | true =>
      rw [whileFuel_succ_of_pos hc] at h ⊢
      exact ih (by omega) h
    | false => rw [whileFuel_of_neg hc] at h ⊢; exact h

theorem Yields.unique (h : Yields cond body s t) (h' : Yields cond body s u) : t = u := by
  obtain ⟨n, hn⟩ := h
  obtain ⟨m, hm⟩ := h'
  have hn' := whileFuel_mono (Nat.le_max_left n m) hn
  have hm' := whileFuel_mono (Nat.le_max_right n m) hm
  exact Option.some.inj (hn'.symm.trans hm')

theorem yields_of_neg (h : cond s = false) : Yields cond body s s := ⟨0, whileFuel_of_neg h 0⟩

/-- A true condition runs the body once. -/
theorem yields_iff_of_pos (h : cond s = true) :
    Yields cond body s t ↔ Yields cond body (body s) t := by
  constructor
  · rintro ⟨n, hn⟩
    cases n with
    | zero => simp [whileFuel, h] at hn
    | succ n => exact ⟨n, by rwa [whileFuel_succ_of_pos h] at hn⟩
  · rintro ⟨n, hn⟩
    exact ⟨n + 1, by rwa [whileFuel_succ_of_pos h]⟩

/-- What every iteration preserves holds at the exit, where the condition fails. -/
theorem Yields.invariant (Inv : σ → Prop)
    (hstep : ∀ s, Inv s → cond s = true → Inv (body s)) (hinit : Inv s)
    (h : Yields cond body s t) : Inv t ∧ cond t = false := by
  obtain ⟨n, hn⟩ := h
  induction n generalizing s with
  | zero =>
    cases hc : cond s with
    | true => simp [whileFuel, hc] at hn
    | false =>
      rw [whileFuel_of_neg hc, Option.some.injEq] at hn
      subst hn
      exact ⟨hinit, hc⟩
  | succ n ih =>
    cases hc : cond s with
    | true =>
      rw [whileFuel_succ_of_pos hc] at hn
      exact ih (hstep s hinit hc) hn
    | false =>
      rw [whileFuel_of_neg hc, Option.some.injEq] at hn
      subst hn
      exact ⟨hinit, hc⟩

/-- A loop whose invariant keeps the condition true never ends. -/
theorem not_yields_of_invariant (Inv : σ → Prop) (hcond : ∀ s, Inv s → cond s = true)
    (hstep : ∀ s, Inv s → Inv (body s)) (hinit : Inv s) : ¬ Yields cond body s t := by
  intro h
  obtain ⟨hinv, hexit⟩ := h.invariant Inv (fun s hs _ => hstep s hs) hinit
  exact absurd (hcond t hinv) (by simp [hexit])

end CfsEds.Lib.Loop
