import Mathlib.Data.BitVec

/-!
# Decimal texts of a fixed width

`decimal w n` is the last `w` decimal digits of `n` as ASCII characters. Texts are compared as
`strcmp` compares them, by the first character that differs. Numbers that fit the width have
the order of their texts (`decimal_lt`), and texts that are put together from parts of a fixed
width have the order of the first part that differs (`TextLe.append`).
-/

namespace CfsEds.Lib.Decimal

/-- The character of a digit. -/
def digit (d : Nat) : BitVec 8 := BitVec.ofNat 8 (0x30 + d)

/-- The last `w` digits of a number. -/
def decimal : Nat → Nat → List (BitVec 8)
  | 0, _ => []
  | w + 1, n => decimal w (n / 10) ++ [digit (n % 10)]

@[simp] theorem length_decimal (w n : Nat) : (decimal w n).length = w := by
  induction w generalizing n with
  | zero => rfl
  | succ w ih => rw [decimal, List.length_append, ih, List.length_singleton]

/-- The first digit of a number that fits, and the digits of the rest. -/
theorem decimal_succ {w n : Nat} (h : n < 10 ^ (w + 1)) :
    decimal (w + 1) n = digit (n / 10 ^ w) :: decimal w (n % 10 ^ w) := by
  induction w generalizing n with
  | zero =>
    have hmod : n % 10 = n := Nat.mod_eq_of_lt h
    rw [decimal, decimal, decimal, Nat.pow_zero, Nat.div_one, hmod]
    rfl
  | succ w ih =>
    have hpow : 10 ^ (w + 1) = 10 * 10 ^ w := by rw [Nat.pow_succ, Nat.mul_comm]
    have hfit : n / 10 < 10 ^ (w + 1) := by
      omega
    rw [decimal, ih hfit, decimal, hpow, Nat.mod_mul_right_div_self, Nat.div_div_eq_div_mul,
      Nat.mod_mod_of_dvd _ (Nat.dvd_mul_right 10 _), List.cons_append]

/-- One text is before the other or the same. -/
def TextLe (a b : List (BitVec 8)) : Prop := a < b ∨ a = b

instance (a b : List (BitVec 8)) : Decidable (TextLe a b) :=
  inferInstanceAs (Decidable (a < b ∨ a = b))

theorem TextLe.refl (a : List (BitVec 8)) : TextLe a a := .inr rfl

/-- Texts of one length are compared before what follows them. -/
theorem append_lt_append {a b : List (BitVec 8)} (h : a < b) (hlen : a.length = b.length)
    (c d : List (BitVec 8)) : a ++ c < b ++ d := by
  induction h with
  | nil => cases hlen
  | cons _ ih => exact List.Lex.cons (ih (by simpa using hlen))
  | rel hlt => exact List.Lex.rel hlt

theorem append_lt_append_left (a : List (BitVec 8)) {c d : List (BitVec 8)} (h : c < d) :
    a ++ c < a ++ d := by
  induction a with
  | nil => exact h
  | cons x a ih => exact List.Lex.cons ih

theorem TextLe.append_left (a : List (BitVec 8)) {c d : List (BitVec 8)} (h : TextLe c d) :
    TextLe (a ++ c) (a ++ d) := by
  rcases h with hlt | rfl
  · exact .inl (append_lt_append_left a hlt)
  · exact TextLe.refl _

theorem digit_lt {d e : Nat} (h : d < e) (he : e < 10) : digit d < digit e := by
  rw [digit, digit, BitVec.lt_def, BitVec.toNat_ofNat, BitVec.toNat_ofNat]
  omega

theorem decimal_lt {w n m : Nat} (h : n < m) (hm : m < 10 ^ w) : decimal w n < decimal w m := by
  induction w generalizing n m with
  | zero => rw [Nat.pow_zero] at hm; omega
  | succ w ih =>
    rw [decimal, decimal]
    rcases Nat.lt_or_eq_of_le (Nat.div_le_div_right (c := 10) (Nat.le_of_lt h)) with hdiv | hdiv
    · exact append_lt_append (ih hdiv (by omega)) (by simp) _ _
    · -- only the last digit differs
      rw [hdiv]
      exact append_lt_append_left _ (List.Lex.rel (digit_lt (by omega) (by omega)))

/-- A number, and behind it a text that matters when the numbers are the same. -/
theorem TextLe.append {w n m : Nat} {c d : List (BitVec 8)} (hm : m < 10 ^ w)
    (h : n < m ∨ n = m ∧ TextLe c d) : TextLe (decimal w n ++ c) (decimal w m ++ d) := by
  rcases h with hlt | ⟨rfl, hle⟩
  · exact .inl (append_lt_append (decimal_lt hlt hm) (by simp) _ _)
  · exact TextLe.append_left _ hle

end CfsEds.Lib.Decimal
