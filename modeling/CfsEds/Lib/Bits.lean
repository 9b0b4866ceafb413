import Mathlib.Data.BitVec
import Mathlib.Data.List.Basic

/-!
# Bits of words and of bytes

A stream of bits is a list, the first bit first. The bits of a word are listed from the most
significant to the least (`lowBits`), and those of some bytes one byte after the other
(`bytesBits`). `padded` is a string cut or filled up with zeros to a length.

A shift register that takes in words at its low end and gives them out at its high end is a
queue of bits: `lowBits n` of the register are the `n` bits in it. `lowBits_push` is taking in,
and `lowBits_add` splits off what is given out.
-/

namespace CfsEds.Lib.Bits

open List

/-- The values of `f` below `n`, from the last to the first. -/
def descending (f : Nat → Bool) : Nat → List Bool
  | 0 => []
  | n + 1 => f n :: descending f n

section

variable {f g : Nat → Bool} {m n : Nat}

@[simp] theorem length_descending (f : Nat → Bool) (n : Nat) : (descending f n).length = n := by
  induction n with
  | zero => rfl
  | succ n ih => rw [descending, length_cons, ih]

theorem descending_congr (h : ∀ i < n, f i = g i) : descending f n = descending g n := by
  induction n with
  | zero => rfl
  | succ n ih =>
    rw [descending, descending, h n (by omega), ih fun i hi => h i (by omega)]

theorem eq_of_descending_eq (h : descending f n = descending g n) : ∀ i < n, f i = g i := by
  induction n with
  | zero => intro i hi; omega
  | succ n ih =>
    rw [descending, descending, List.cons.injEq] at h
    intro i hi
    rcases Nat.lt_or_eq_of_le (Nat.le_of_lt_succ hi) with hlt | rfl
    · exact ih h.2 i hlt
    · exact h.1

theorem descending_add (f : Nat → Bool) (m n : Nat) :
    descending f (m + n) = descending (fun i => f (i + n)) m ++ descending f n := by
  induction m with
  | zero => rw [Nat.zero_add]; rfl
  | succ m ih =>
    rw [show m + 1 + n = (m + n) + 1 by omega, descending, ih, descending, cons_append]

theorem descending_const (b : Bool) (n : Nat) : descending (fun _ => b) n = List.replicate n b := by
  induction n with
  | zero => rfl
  | succ n ih => rw [descending, ih, replicate_succ]

end

section

variable {w v : Nat}

/-- The `n` low bits of a word. -/
def lowBits (n : Nat) (x : BitVec w) : List Bool := descending x.getLsbD n

@[simp] theorem length_lowBits (n : Nat) (x : BitVec w) : (lowBits n x).length = n :=
  length_descending _ n

@[simp] theorem lowBits_zero (x : BitVec w) : lowBits 0 x = [] := rfl

theorem lowBits_zero_word (n : Nat) : lowBits n (0#w) = List.replicate n false := by
  rw [← descending_const]
  exact descending_congr fun i _ => by simp

/-- A word is its bits. -/
theorem lowBits_injective {x y : BitVec w} (h : lowBits w x = lowBits w y) : x = y :=
  BitVec.eq_of_getLsbD_eq fun i hi => eq_of_descending_eq h i hi

/-- The high bits are those of the word shifted right. -/
theorem lowBits_add (m n : Nat) (x : BitVec w) :
    lowBits (m + n) x = lowBits m (x >>> n) ++ lowBits n x := by
  rw [lowBits, descending_add, lowBits, lowBits]
  congr 1
  exact descending_congr fun i _ => by rw [BitVec.getLsbD_ushiftRight, Nat.add_comm]

/-- A narrower or wider word has the same low bits. -/
theorem lowBits_setWidth {n : Nat} (h : n ≤ v) (x : BitVec w) :
    lowBits n (x.setWidth v) = lowBits n x :=
  descending_congr fun i hi => by
    rw [BitVec.getLsbD_setWidth, decide_eq_true (by omega : i < v), Bool.true_and]

/-- Shifting a word in at the low end. -/
theorem lowBits_push {n : Nat} (h : n + v ≤ w) (x : BitVec w) (b : BitVec v) :
    lowBits (n + v) (x <<< v ||| b.setWidth w) = lowBits n x ++ lowBits v b := by
  rw [lowBits, descending_add]
  congr 1
  · refine descending_congr fun i hi => ?_
    rw [BitVec.getLsbD_or, BitVec.getLsbD_shiftLeft, BitVec.getLsbD_setWidth,
      BitVec.getLsbD_of_ge b (i + v) (by omega), decide_eq_true (by omega : i + v < w),
      decide_eq_false (by omega : ¬ i + v < v), Nat.add_sub_cancel]
    simp
  · refine descending_congr fun i hi => ?_
    rw [BitVec.getLsbD_or, BitVec.getLsbD_shiftLeft, BitVec.getLsbD_setWidth,
      decide_eq_true (by omega : i < v), decide_eq_true (by omega : i < w)]
    simp

/-- Shifting in only the first bits of a word. -/
theorem lowBits_push_take {n k : Nat} (hk : k ≤ v) (h : n + v ≤ w) (x : BitVec w) (b : BitVec v) :
    lowBits (n + k) ((x <<< v ||| b.setWidth w) >>> (v - k))
      = lowBits n x ++ (lowBits v b).take k := by
  have hsum : n + k + (v - k) = n + v := by omega
  calc lowBits (n + k) ((x <<< v ||| b.setWidth w) >>> (v - k))
      = (lowBits (n + k) ((x <<< v ||| b.setWidth w) >>> (v - k))
          ++ lowBits (v - k) (x <<< v ||| b.setWidth w)).take (n + k) :=
        (take_left' (by simp)).symm
    _ = (lowBits n x ++ lowBits v b).take (n + k) := by
        rw [← lowBits_add, hsum, lowBits_push h]
    _ = lowBits n x ++ (lowBits v b).take k := by
        rw [take_append, take_of_length_le (by simp), length_lowBits, Nat.add_sub_cancel_left]

/-- Shifting zeros in at the low end. -/
theorem lowBits_shiftLeft {n k : Nat} (h : n + k ≤ w) (x : BitVec w) :
    lowBits (n + k) (x <<< k) = lowBits n x ++ List.replicate k false := by
  rw [lowBits, descending_add, ← descending_const]
  congr 1
  · refine descending_congr fun i hi => ?_
    rw [BitVec.getLsbD_shiftLeft, decide_eq_true (by omega : i + k < w),
      decide_eq_false (by omega : ¬ i + k < k), Nat.add_sub_cancel]
    simp
  · refine descending_congr fun i hi => ?_
    rw [BitVec.getLsbD_shiftLeft, decide_eq_true (by omega : i < k)]
    simp

end

/-! ## Bytes -/

/-- The bits of some bytes. -/
def bytesBits (bytes : List (BitVec 8)) : List Bool := bytes.flatMap (lowBits 8)

@[simp] theorem bytesBits_nil : bytesBits [] = [] := rfl

@[simp] theorem bytesBits_cons (b : BitVec 8) (bytes : List (BitVec 8)) :
    bytesBits (b :: bytes) = lowBits 8 b ++ bytesBits bytes := rfl

@[simp] theorem bytesBits_append (a b : List (BitVec 8)) :
    bytesBits (a ++ b) = bytesBits a ++ bytesBits b := flatMap_append

@[simp] theorem length_bytesBits (bytes : List (BitVec 8)) :
    (bytesBits bytes).length = 8 * bytes.length := by
  induction bytes with
  | nil => rfl
  | cons b bytes ih =>
    rw [bytesBits_cons, length_append, ih, length_lowBits, length_cons]
    omega

theorem bytesBits_take (l : List (BitVec 8)) (n : Nat) :
    bytesBits (l.take n) = (bytesBits l).take (8 * n) := by
  rcases Nat.lt_or_ge l.length n with hlt | hle
  · rw [take_of_length_le (by omega), take_of_length_le (by rw [length_bytesBits]; omega)]
  have hsplit := congrArg (List.take (8 * n)) (congrArg bytesBits (take_append_drop n l))
  rw [bytesBits_append, take_left' (by rw [length_bytesBits, length_take]; omega)] at hsplit
  exact hsplit

theorem bytesBits_drop (l : List (BitVec 8)) (n : Nat) :
    bytesBits (l.drop n) = (bytesBits l).drop (8 * n) := by
  rcases Nat.lt_or_ge l.length n with hlt | hle
  · rw [drop_of_length_le (by omega), drop_of_length_le (by rw [length_bytesBits]; omega)]
    rfl
  have hsplit := congrArg (List.drop (8 * n)) (congrArg bytesBits (take_append_drop n l))
  rw [bytesBits_append, drop_left' (by rw [length_bytesBits, length_take]; omega)] at hsplit
  exact hsplit

theorem bytesBits_injective {a b : List (BitVec 8)} (h : bytesBits a = bytesBits b) : a = b := by
  induction a generalizing b with
  | nil =>
    have hlen := congrArg List.length h
    rw [length_bytesBits, length_bytesBits, length_nil] at hlen
    exact (length_eq_zero_iff.mp (by omega)).symm
  | cons x a ih =>
    cases b with
    | nil => exact absurd (congrArg List.length h) (by simp)
    | cons =>
      obtain ⟨hx, hrest⟩ := append_inj h (by simp)
      rw [lowBits_injective hx, ih hrest]

/-! ## Strings that are combined bit by bit -/

/-- The bits of `s` ORed on the first bits of a string. -/
def orBits : List Bool → List Bool → List Bool
  | [], l => l
  | _ :: _, [] => []
  | x :: s, y :: l => (x || y) :: orBits s l

@[simp] theorem orBits_nil (l : List Bool) : orBits [] l = l := rfl

theorem length_orBits (s l : List Bool) : (orBits s l).length = l.length := by
  fun_induction orBits s l with
  | case1 l | case2 x s => rfl
  | case3 x s y l ih => rw [length_cons, length_cons, ih]

theorem orBits_append {s l : List Bool} (h : s.length ≤ l.length) (l' : List Bool) :
    orBits s (l ++ l') = orBits s l ++ l' := by
  fun_induction orBits s l with
  | case1 l => rfl
  | case2 x s => cases h
  | case3 x s y l ih =>
    rw [length_cons, length_cons] at h
    rw [cons_append, orBits, ih (by omega), cons_append]

/-- Nothing changes exactly when every bit of `s` is there already. -/
theorem orBits_eq_self_iff {s l : List Bool} (h : s.length ≤ l.length) :
    orBits s l = l ↔ ∀ i : Nat, s[i]? = some true → l[i]? = some true := by
  fun_induction orBits s l with
  | case1 l => simp
  | case2 x s => cases h
  | case3 x s y l ih =>
    rw [length_cons, length_cons] at h
    rw [List.cons.injEq, ih (by omega)]
    constructor
    · intro ⟨hhead, htail⟩ i hi
      cases i with
      | zero =>
        rw [getElem?_cons_zero, Option.some.injEq] at hi ⊢
        rw [← hhead, hi, Bool.true_or]
      | succ i => exact htail i hi
    · intro hall
      refine ⟨?_, fun i hi => hall (i + 1) hi⟩
      cases x with
      | false => rw [Bool.false_or]
      | true =>
        have hy := hall 0 rfl
        rw [getElem?_cons_zero, Option.some.injEq] at hy
        rw [hy, Bool.true_or]

theorem lowBits_or {w : Nat} (n : Nat) (x y : BitVec w) :
    lowBits n (x ||| y) = List.zipWith (· || ·) (lowBits n x) (lowBits n y) := by
  unfold lowBits
  induction n with
  | zero => rfl
  | succ n ih => rw [descending, ih, BitVec.getLsbD_or]; rfl

theorem zipWith_or_zeros {a : List Bool} {n : Nat} (h : a.length = n) :
    List.zipWith (· || ·) a (List.replicate n false) = a := by
  subst h
  induction a with
  | nil => rfl
  | cons x a ih =>
    rw [length_cons, replicate_succ, zipWith_cons_cons, ih, Bool.or_false]

/-! ## Strings that go on with zeros -/

/-- The first `m` bits of a string that goes on with zeros. -/
def padded (m : Nat) (bits : List Bool) : List Bool := (bits ++ List.replicate m false).take m

@[simp] theorem length_padded (m : Nat) (bits : List Bool) : (padded m bits).length = m := by
  rw [padded, length_take, length_append, length_replicate]
  omega

theorem padded_of_length_le {m : Nat} {bits : List Bool} (h : bits.length ≤ m) :
    padded m bits = bits ++ List.replicate (m - bits.length) false := by
  rw [padded, take_append, take_of_length_le h, take_replicate, Nat.min_eq_left (Nat.sub_le m _)]

/-- Zeros at the end do not matter. -/
theorem padded_append_zeros (m k : Nat) (bits : List Bool) :
    padded m (bits ++ List.replicate k false) = padded m bits := by
  have hcomm : ∀ i j : Nat, List.replicate (i + j) false
      = List.replicate i false ++ List.replicate j false := fun i j =>
    replicate_append_replicate.symm
  rw [padded, padded, append_assoc, replicate_append_replicate, Nat.add_comm k m, hcomm,
    ← append_assoc, take_append_of_le_length (by simp)]

/-- What comes first is followed by the rest. -/
theorem padded_append {m n : Nat} {a b : List Bool} (h : a.length = m) :
    padded (m + n) (a ++ b) = a ++ padded n b := by
  have hsplit : List.replicate (m + n) false
      = List.replicate n false ++ List.replicate m false := by
    rw [replicate_append_replicate, Nat.add_comm]
  rw [padded, padded, hsplit, append_assoc, ← h, take_length_add_append,
    ← append_assoc, take_append_of_le_length (by simp)]

theorem eq_replicate_false {bits : List Bool} (h : ∀ b ∈ bits, b = false) :
    bits = List.replicate bits.length false :=
  eq_replicate_iff.mpr ⟨rfl, h⟩

/-- ORing a string that goes on with zeros. -/
theorem zipWith_or_padded {s l : List Bool} {n : Nat} (h : l.length = n) :
    List.zipWith (· || ·) (padded n s) l = orBits (s.take n) l := by
  subst h
  induction l generalizing s with
  | nil => rw [zipWith_nil_right, length_nil, take_zero]; rfl
  | cons y l ih =>
    cases s with
    | nil =>
      rw [padded, nil_append, take_replicate, Nat.min_self, take_nil, orBits_nil,
        zipWith_comm_of_comm (fun a b => Bool.or_comm a b)]
      exact zipWith_or_zeros rfl
    | cons x s =>
      have hpad : padded (y :: l).length (x :: s) = x :: padded l.length s := by
        rw [length_cons, Nat.add_comm]
        exact padded_append (a := [x]) rfl
      rw [hpad, zipWith_cons_cons, ih, length_cons, take_succ_cons, orBits]

end CfsEds.Lib.Bits
