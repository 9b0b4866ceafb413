import CfsEds.Lib.Loop
import Mathlib.Data.List.Nodup
import Mathlib.Data.Finset.Card
import Mathlib.Data.Nat.Find

/-!
# Open addressing with linear probing

A table of `n` slots holds entry numbers: slot `p` is free when `t p = 0` and holds entry
`r` when `t p = r + 1`. Entry `r` belongs to the `r`-th key, and a key is searched for from
its home slot on, around the end of the table, up to the first free slot.

`ProbeInv` says that no free slot lies between the home of a key and its entry.
`ProbeInv.insert` keeps it, `exists_free` counts the slots so that a walk ends
(`exists_walk`), and `ProbeInv.found` reads off what the walk ends at.
-/

namespace CfsEds.Lib.Probing

open CfsEds.Lib.Loop List Function

/-! ## The walk -/

/-- A walk from `h` around the table has a first slot with a property that some slot has. -/
theorem exists_first {n h : Nat} {stop : Nat → Prop} [DecidablePred stop] (hh : h < n)
    (hex : ∃ p < n, stop p) : ∃ j < n, stop ((h + j) % n) ∧ ∀ i < j, ¬ stop ((h + i) % n) := by
  obtain ⟨p, hp, hstop⟩ := hex
  have hreach : ∃ j < n, (h + j) % n = p := by
    rcases Nat.lt_or_ge p h with hlt | hge
    · refine ⟨p + n - h, by omega, ?_⟩
      rw [show h + (p + n - h) = p + n by omega, Nat.add_mod_right, Nat.mod_eq_of_lt hp]
    · refine ⟨p - h, by omega, ?_⟩
      rw [show h + (p - h) = p by omega, Nat.mod_eq_of_lt hp]
  obtain ⟨j, hj, rfl⟩ := hreach
  have hsome : ∃ j, stop ((h + j) % n) := ⟨j, hstop⟩
  exact ⟨Nat.find hsome, Nat.lt_of_le_of_lt (Nat.find_min' hsome hstop) hj, Nat.find_spec hsome,
    fun i hi => Nat.find_min hsome hi⟩

/-- A loop that moves from slot to slot ends at the first one that stops it. -/
theorem whileFuel_walk {σ : Type*} {cond : σ → Bool} {body : σ → σ} {pos : σ → Nat} {n : Nat}
    {stop : Nat → Prop} (hcond : ∀ s, cond s = true ↔ ¬ stop (pos s))
    (hbody : ∀ s, pos (body s) = (pos s + 1) % n) :
    ∀ {j fuel : Nat} {s : σ}, j ≤ fuel → pos s < n → stop ((pos s + j) % n) →
      (∀ i < j, ¬ stop ((pos s + i) % n)) →
      ∃ s', whileFuel cond body fuel s = some s' ∧ pos s' = (pos s + j) % n := by
  intro j
  induction j with
  | zero =>
    intro fuel s _ hs hstop _
    rw [Nat.add_zero, Nat.mod_eq_of_lt hs] at hstop
    refine ⟨s, whileFuel_of_neg ?_ fuel, by rw [Nat.add_zero, Nat.mod_eq_of_lt hs]⟩
    cases hc : cond s with
    | true => exact absurd hstop ((hcond s).1 hc)
    | false => rfl
  | succ j ih =>
    intro fuel s hfuel hs hstop hbefore
    obtain ⟨fuel, rfl⟩ : ∃ k, fuel = k + 1 := ⟨fuel - 1, by omega⟩
    have hgo : cond s = true := by
      refine (hcond s).2 ?_
      have h0 := hbefore 0 (by omega)
      rwa [Nat.add_zero, Nat.mod_eq_of_lt hs] at h0
    -- the walk from the next slot is one step shorter
    have hshift : ∀ i, (pos (body s) + i) % n = (pos s + (i + 1)) % n := by
      intro i
      rw [hbody, Nat.mod_add_mod, Nat.add_assoc, Nat.add_comm 1 i]
    obtain ⟨s', hrun, hpos⟩ := ih (s := body s) (Nat.le_of_succ_le_succ hfuel)
      (by rw [hbody]; exact Nat.mod_lt _ (by omega)) (by rw [hshift]; exact hstop)
      (fun i hi => by rw [hshift]; exact hbefore (i + 1) (by omega))
    exact ⟨s', by rw [whileFuel_succ_of_pos hgo, hrun], by rw [hpos, hshift]⟩

/-- With a slot that stops it somewhere, the loop ends within one round. -/
theorem exists_walk {σ : Type*} (cond : σ → Bool) (body : σ → σ) (pos : σ → Nat)
    (stop : Nat → Prop) [DecidablePred stop] {n fuel : Nat} {s : σ} (hfuel : n ≤ fuel)
    (hcond : ∀ s, cond s = true ↔ ¬ stop (pos s)) (hbody : ∀ s, pos (body s) = (pos s + 1) % n)
    (hs : pos s < n) (hex : ∃ p < n, stop p) :
    ∃ s' j, whileFuel cond body fuel s = some s' ∧ pos s' = (pos s + j) % n ∧
      stop ((pos s + j) % n) ∧ ∀ i < j, ¬ stop ((pos s + i) % n) := by
  obtain ⟨j, hj, hstop, hbefore⟩ := exists_first hs hex
  obtain ⟨s', hrun, hpos⟩ := whileFuel_walk hcond hbody (by omega : j ≤ fuel) hs hstop hbefore
  exact ⟨s', j, hrun, hpos, hstop, hbefore⟩

/-! ## The table -/

variable {κ : Type*} {n : Nat} {home : κ → Nat} {keys : List κ} {t : Nat → Nat}

/-- The table holds an entry for each key, where a search from its home meets it. -/
structure ProbeInv (n : Nat) (home : κ → Nat) (keys : List κ) (t : Nat → Nat) : Prop where
  placed : ∀ r k, keys[r]? = some k → ∃ j, t ((home k + j) % n) = r + 1 ∧
    ∀ i < j, t ((home k + i) % n) ≠ 0
  known : ∀ p < n, t p ≤ keys.length
  once : ∀ p < n, ∀ q < n, t p = t q → t p ≠ 0 → p = q

theorem probeInv_nil : ProbeInv n home [] fun _ => 0 where
  placed r k hk := absurd hk (by simp)
  known _ _ := Nat.le_refl 0
  once _ _ _ _ _ hne := absurd rfl hne

/-- A table with fewer keys than slots has a free slot. -/
theorem ProbeInv.exists_free (h : ProbeInv n home keys t) (hlen : keys.length < n) :
    ∃ p < n, t p = 0 := by
  by_contra hnone
  have hfull : ∀ p < n, t p ≠ 0 := fun p hp h0 => hnone ⟨p, hp, h0⟩
  have hle := Finset.card_le_card_of_injOn (s := Finset.range n)
    (t := Finset.range keys.length) (fun p => t p - 1)
    (fun p hp => by
      have hp := Finset.mem_range.1 hp
      have hknown := h.known p hp
      have hne := hfull p hp
      exact Finset.mem_coe.2 (Finset.mem_range.2 (by simp only; omega)))
    (fun p hp q hq hpq => by
      have hp := Finset.mem_range.1 hp
      have hq := Finset.mem_range.1 hq
      have hpne := hfull p hp
      have hqne := hfull q hq
      simp only at hpq
      exact h.once p hp q hq (by omega) hpne)
  rw [Finset.card_range, Finset.card_range] at hle
  omega

/-- A new entry goes to the first free slot from its home on. -/
theorem ProbeInv.insert (h : ProbeInv n home keys t) {k : κ} {j : Nat}
    (hfree : t ((home k + j) % n) = 0) (hbefore : ∀ i < j, t ((home k + i) % n) ≠ 0) :
    ProbeInv n home (keys ++ [k]) (update t ((home k + j) % n) (keys.length + 1)) := by
  refine ⟨?_, ?_, ?_⟩
  · intro r k' hk'
    rcases Nat.lt_or_ge r keys.length with hr | hr
    · -- an old entry: its slot and those in front of it were taken before
      rw [getElem?_append_left hr] at hk'
      obtain ⟨j', hj', hbefore'⟩ := h.placed r k' hk'
      have hne : ∀ p, t p ≠ 0 → p ≠ (home k + j) % n := fun p hp hpq => hp (hpq ▸ hfree)
      refine ⟨j', ?_, fun i hi => ?_⟩
      · rw [update_of_ne (hne _ (by omega)), hj']
      · rw [update_of_ne (hne _ (hbefore' i hi))]
        exact hbefore' i hi
    have hlt : r < (keys ++ [k]).length := by
      by_contra hge
      rw [getElem?_eq_none (Nat.not_lt.1 hge)] at hk'
      cases hk'
    rw [length_append, length_singleton] at hlt
    obtain rfl : r = keys.length := by omega
    rw [getElem?_append_right (Nat.le_refl _), Nat.sub_self] at hk'
    obtain rfl : k = k' := Option.some.inj hk'
    refine ⟨j, update_self .., fun i hi => ?_⟩
    rw [update_of_ne]
    · exact hbefore i hi
    · intro heq
      exact hbefore i hi (heq ▸ hfree)
  · intro p hp
    rw [length_append, length_singleton]
    by_cases hpq : p = (home k + j) % n
    · rw [hpq, update_self]
    · rw [update_of_ne hpq]
      exact Nat.le_succ_of_le (h.known p hp)
  · intro p hp q hq heq hne
    by_cases hpj : p = (home k + j) % n <;> by_cases hqj : q = (home k + j) % n
    · rw [hpj, hqj]
    · have hknown := h.known q hq
      rw [hpj, update_self, update_of_ne hqj] at heq
      omega
    · have hknown := h.known p hp
      rw [hqj, update_self, update_of_ne hpj] at heq
      omega
    · rw [update_of_ne hpj, update_of_ne hqj] at heq
      rw [update_of_ne hpj] at hne
      exact h.once p hp q hq heq hne

/-- What a search for `k` ends at. -/
theorem ProbeInv.found [DecidableEq κ] (h : ProbeInv n home keys t) (hdistinct : keys.Nodup) {k : κ}
    {j : Nat}
    (hstop : t ((home k + j) % n) = 0 ∨ keys[t ((home k + j) % n) - 1]? = some k)
    (hbefore : ∀ i < j, ¬ (t ((home k + i) % n) = 0 ∨ keys[t ((home k + i) % n) - 1]? = some k)) :
    t ((home k + j) % n) = if k ∈ keys then keys.idxOf k + 1 else 0 := by
  by_cases hfree : t ((home k + j) % n) = 0
  · rw [hfree]
    split
    · next hmem =>
      -- the entry of `k` would be behind a free slot
      obtain ⟨j', hj', hfull⟩ := h.placed _ k (getElem?_idxOf hmem)
      rcases Nat.lt_trichotomy j j' with hlt | rfl | hgt
      · exact absurd hfree (hfull j hlt)
      · omega
      · exact absurd (.inr (by rw [hj', Nat.add_sub_cancel]; exact getElem?_idxOf hmem))
          (hbefore j' hgt)
    · rfl
  · have hkey := hstop.resolve_left hfree
    have hmem := mem_of_getElem? hkey
    rw [if_pos hmem]
    have hidx : keys.idxOf k = t ((home k + j) % n) - 1 :=
      (getElem?_inj (idxOf_lt_length_iff.2 hmem) hdistinct).1
        ((getElem?_idxOf hmem).trans hkey.symm)
    omega

end CfsEds.Lib.Probing
