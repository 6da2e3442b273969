import Mathlib.Data.Nat.Digits.Defs
import Mathlib.Data.Nat.ModEq

/-!
# One's complement sums

The one's complement sum of a list of digits to the base `b` is the sum of its pairs of
digits, where what overflows two digits is added back at the low end. Modulo `b * b - 1`
it is the number that the digits make up, so that it does not matter how the list is
divided: a part that begins at an odd place counts `b` times. As `0` and `b * b - 1` are
the same modulo `b * b - 1`, `OnesSum` tells the two apart: a sum is 0 only where all the
digits are.
-/

namespace DeviceModel

variable {b : Nat}

/-- What overflows comes back at the low end. -/
theorem mul_self_modEq (hb : 1 ≤ b) : b * b ≡ 1 [MOD b * b - 1] := by
  have hpos : 1 ≤ b * b := Nat.mul_pos hb hb
  have hsplit : b * b = 1 + (b * b - 1) := by omega
  have hone : 1 + (b * b - 1) ≡ 1 + 0 [MOD b * b - 1] :=
    Nat.ModEq.add_left 1 (Nat.modEq_zero_iff_dvd.2 (Nat.dvd_refl _))
  rwa [← hsplit] at hone

theorem pow_modEq (hb : 1 ≤ b) (n : Nat) :
    b ^ n ≡ if n % 2 = 1 then b else 1 [MOD b * b - 1] := by
  induction n with
  | zero => rfl
  | succ n ih =>
    rw [Nat.pow_succ]
    refine (ih.mul_right b).trans ?_
    rcases Nat.mod_two_eq_zero_or_one n with h | h
    · have hsucc : (n + 1) % 2 = 1 := by omega
      rw [if_neg (by omega), if_pos hsucc, Nat.one_mul]
    · have hsucc : ¬ (n + 1) % 2 = 1 := by omega
      rw [if_pos h, if_neg hsucc]
      exact mul_self_modEq hb

/-- The pairs of digits, with the first of each pair the high one, and a digit left over
as the high one of a pair. -/
def pairSum (b : Nat) : List Nat → Nat
  | [] => 0
  | [x] => b * x
  | x :: y :: xs => b * x + y + pairSum b xs

/-- With the first of each pair the low one, the sum is `b` times as much. -/
theorem pairSum_modEq (hb : 1 ≤ b) : ∀ xs : List Nat,
    pairSum b xs ≡ b * Nat.ofDigits b xs [MOD b * b - 1]
  | [] => Nat.ModEq.refl 0
  | [x] => by
    rw [pairSum, Nat.ofDigits_singleton]
  | x :: y :: xs => by
    have hturn := mul_self_modEq hb
    have hy : y ≡ b * b * y [MOD b * b - 1] := by
      simpa using (hturn.mul_right y).symm
    have hxs : b * Nat.ofDigits b xs ≡ b * b * (b * Nat.ofDigits b xs) [MOD b * b - 1] := by
      simpa using (hturn.mul_right (b * Nat.ofDigits b xs)).symm
    rw [pairSum, Nat.ofDigits_cons, Nat.ofDigits_cons, Nat.mul_add, Nat.mul_add, Nat.mul_add,
      ← Nat.mul_assoc b b y, ← Nat.add_assoc]
    refine ((hy.add_left _).add ((pairSum_modEq hb xs).trans ?_))
    rw [← Nat.mul_assoc]
    exact hxs

/-- The pairs of digits, with the first of each pair the low one, and a digit left over as
the low one of a pair. -/
def lowPairs (b : Nat) : List Nat → List Nat
  | [] => []
  | [x] => [x]
  | x :: y :: xs => (x + b * y) :: lowPairs b xs

/-- Their sum is the number that the digits make up. -/
theorem lowPairs_modEq (hb : 1 ≤ b) (xs : List Nat) :
    (lowPairs b xs).sum ≡ Nat.ofDigits b xs [MOD b * b - 1] := by
  induction xs using lowPairs.induct with
  | case1 => rfl
  | case2 x => simp [lowPairs, Nat.ModEq]
  | case3 x y xs ih =>
    have hturn := (mul_self_modEq hb).mul_right (Nat.ofDigits b xs)
    rw [Nat.one_mul, Nat.mul_assoc] at hturn
    rw [lowPairs, List.sum_cons, Nat.ofDigits_cons, Nat.ofDigits_cons, Nat.mul_add, ← Nat.add_assoc]
    exact (ih.trans hturn.symm).add_left _

/-- A part at an even place counts as it is. -/
theorem ofDigits_append_modEq (hb : 1 ≤ b) {xs : List Nat} (ys : List Nat)
    (h : xs.length % 2 = 0) :
    Nat.ofDigits b (xs ++ ys) ≡ Nat.ofDigits b xs + Nat.ofDigits b ys [MOD b * b - 1] := by
  have hpow := (pow_modEq hb xs.length).mul_right (Nat.ofDigits b ys)
  rw [if_neg (by omega), Nat.one_mul] at hpow
  rw [Nat.ofDigits_append]
  exact hpow.add_left _

/-! ## Sums -/

/-- `n` is a one's complement sum of the digits. -/
structure OnesSum (b n : Nat) (xs : List Nat) : Prop where
  modEq : n ≡ Nat.ofDigits b xs [MOD b * b - 1]
  zero : n = 0 ↔ ∀ x ∈ xs, x = 0

namespace OnesSum

variable {n m : Nat} {xs ys : List Nat}

theorem nil : OnesSum b 0 [] := ⟨Nat.ModEq.refl 0, by simp⟩

theorem single (x : Nat) : OnesSum b x [x] :=
  ⟨by rw [Nat.ofDigits_singleton], by simp⟩

theorem pair (hb : 1 ≤ b) (x y : Nat) : OnesSum b (x + b * y) [x, y] := by
  refine ⟨?_, ?_⟩
  · rw [Nat.ofDigits_cons, Nat.ofDigits_singleton]
  · have hb' : b ≠ 0 := Nat.pos_iff_ne_zero.1 hb
    simp [hb']

/-- A part that begins at an odd place counts `b` times. -/
theorem append (hb : 1 ≤ b) (h : OnesSum b n xs) (h' : OnesSum b m ys) :
    OnesSum b (n + if xs.length % 2 = 1 then b * m else m) (xs ++ ys) := by
  refine ⟨?_, ?_⟩
  · rw [Nat.ofDigits_append]
    refine h.modEq.add ?_
    have hpow := (pow_modEq hb xs.length).symm.mul h'.modEq
    split at hpow
    · next hodd => rwa [if_pos hodd]
    · next heven => rwa [if_neg heven, ← Nat.one_mul m]
  · have hb' : b ≠ 0 := Nat.pos_iff_ne_zero.1 hb
    have hscale : (if xs.length % 2 = 1 then b * m else m) = 0 ↔ m = 0 := by
      split
      · simp [hb']
      · rfl
    rw [Nat.add_eq_zero_iff, hscale, h.zero, h'.zero, List.forall_mem_append]

/-- What overflows two digits may be added back. -/
theorem fold (hb : 1 ≤ b) (h : OnesSum b n xs) : OnesSum b (n % (b * b) + n / (b * b)) xs := by
  have hsplit := Nat.mod_add_div n (b * b)
  refine ⟨?_, ?_⟩
  · refine Nat.ModEq.trans ?_ h.modEq
    have hturn := (mul_self_modEq hb).mul_right (n / (b * b))
    rw [Nat.one_mul] at hturn
    have hsum := hturn.symm.add_left (n % (b * b))
    rwa [hsplit] at hsum
  · rw [← h.zero]
    constructor
    · intro hzero
      obtain ⟨hmod, hdiv⟩ := Nat.add_eq_zero_iff.1 hzero
      rw [hmod, hdiv] at hsplit
      exact hsplit.symm
    · rintro rfl
      simp

/-- `b * b - 1` may be taken off a sum that is larger. -/
theorem sub (h : OnesSum b n xs) (hlt : b * b - 1 < n) : OnesSum b (n - (b * b - 1)) xs := by
  refine ⟨?_, ?_⟩
  · refine Nat.ModEq.trans ?_ h.modEq
    have hsplit : n = (n - (b * b - 1)) + (b * b - 1) := by omega
    conv_rhs => rw [hsplit]
    simp
  · rw [← h.zero]
    omega

/-- There is one sum of two digits. -/
theorem unique (h : OnesSum b n xs) (h' : OnesSum b m xs) (hn : n ≤ b * b - 1)
    (hm : m ≤ b * b - 1) : n = m := by
  have hmod : n ≡ m [MOD b * b - 1] := h.modEq.trans h'.modEq.symm
  have hzero : n = 0 ↔ m = 0 := h.zero.trans h'.zero.symm
  rcases Nat.lt_or_ge n (b * b - 1) with hlt | hge
  · rcases Nat.lt_or_ge m (b * b - 1) with hlt' | hge'
    · rwa [Nat.ModEq, Nat.mod_eq_of_lt hlt, Nat.mod_eq_of_lt hlt'] at hmod
    · obtain rfl : m = b * b - 1 := by omega
      rw [Nat.ModEq, Nat.mod_self, Nat.mod_eq_of_lt hlt] at hmod
      omega
  · obtain rfl : n = b * b - 1 := by omega
    rcases Nat.lt_or_ge m (b * b - 1) with hlt' | hge'
    · rw [Nat.ModEq, Nat.mod_self, Nat.mod_eq_of_lt hlt'] at hmod
      omega
    · omega

end OnesSum

end DeviceModel
