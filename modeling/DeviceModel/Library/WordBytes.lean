import Mathlib.Algebra.Group.Nat.Defs
import Mathlib.Data.List.Basic

/-!
# The bytes of a word

Byte `k` of a word is `wordByte`, with the least significant one first. A store writes the first
`n` of them (`leBytes`), and a load makes a word of the bytes that are there (`ofLeBytes`).
-/

namespace DeviceModel

variable {w : Nat} {x y : BitVec w} {k n : Nat}

/-- Byte `k` of a word. -/
def wordByte (x : BitVec w) (k : Nat) : BitVec 8 := (x >>> (8 * k)).setWidth 8

/-- The first bytes of a word. -/
def leBytes (n : Nat) (x : BitVec w) : List (BitVec 8) := (List.range n).map (wordByte x)

/-- The word with these bytes. -/
def ofLeBytes (w : Nat) (bs : List (BitVec 8)) : BitVec w :=
  bs.foldr (fun b x => (x <<< 8) ||| b.setWidth w) 0#w

theorem getLsbD_wordByte (x : BitVec w) (k i : Nat) :
    (wordByte x k).getLsbD i = (decide (i < 8) && x.getLsbD (8 * k + i)) := by
  rw [wordByte, BitVec.getLsbD_setWidth, BitVec.getLsbD_ushiftRight]

theorem wordByte_and : wordByte (x &&& y) k = wordByte x k &&& wordByte y k := by
  rw [wordByte, BitVec.ushiftRight_and_distrib, BitVec.setWidth_and]
  rfl

theorem wordByte_or : wordByte (x ||| y) k = wordByte x k ||| wordByte y k := by
  rw [wordByte, BitVec.ushiftRight_or_distrib, BitVec.setWidth_or]
  rfl

theorem wordByte_not (hk : 8 * k + 8 ≤ w) : wordByte (~~~x) k = ~~~ wordByte x k := by
  refine BitVec.eq_of_getLsbD_eq fun i hi => ?_
  have hlt : 8 * k + i < w := by omega
  rw [getLsbD_wordByte, BitVec.getLsbD_not, BitVec.getLsbD_not, getLsbD_wordByte]
  simp [hi, hlt]

/-- The bytes of a shifted word. -/
theorem wordByte_shift (x : BitVec w) (j k : Nat) : wordByte (x >>> (j * 8)) k = wordByte x (j + k) := by
  rw [wordByte, wordByte, ← BitVec.shiftRight_add]
  congr 2
  omega

theorem wordByte_zero : wordByte 0#w k = 0#8 := by
  refine BitVec.eq_of_getLsbD_eq fun i _ => ?_
  rw [getLsbD_wordByte, BitVec.getLsbD_zero, Bool.and_false, BitVec.getLsbD_zero]

@[simp] theorem length_leBytes (n : Nat) (x : BitVec w) : (leBytes n x).length = n := by
  rw [leBytes, List.length_map, List.length_range]

theorem getElem?_leBytes (x : BitVec w) (hk : k < n) : (leBytes n x)[k]? = some (wordByte x k) := by
  rw [leBytes, List.getElem?_map, List.getElem?_range hk]
  rfl

/-- The bytes of a load are those that are there. -/
theorem wordByte_ofLeBytes (bs : List (BitVec 8)) (k : Nat) (hk : 8 * k + 8 ≤ w) :
    wordByte (ofLeBytes w bs) k = bs.getD k 0#8 := by
  induction bs generalizing k with
  | nil => exact wordByte_zero
  | cons b bs ih =>
    have hcons : ofLeBytes w (b :: bs) = (ofLeBytes w bs <<< 8) ||| b.setWidth w := rfl
    refine BitVec.eq_of_getLsbD_eq fun i hi => ?_
    have hlt : 8 * k + i < w := by omega
    rw [hcons, getLsbD_wordByte, BitVec.getLsbD_or, BitVec.getLsbD_shiftLeft, BitVec.getLsbD_setWidth,
      decide_eq_true hi, decide_eq_true hlt, Bool.true_and, Bool.true_and, Bool.true_and]
    cases k with
    | zero => simp [hi]
    | succ k =>
      have hge : ¬ 8 * (k + 1) + i < 8 := by omega
      have hback : 8 * (k + 1) + i - 8 = 8 * k + i := by omega
      have hbyte := congrArg (BitVec.getLsbD · i) (ih k (by omega))
      simp only [getLsbD_wordByte, hi, decide_true, Bool.true_and] at hbyte
      rw [decide_eq_false hge, Bool.not_false, Bool.true_and, hback, hbyte,
        BitVec.getLsbD_of_ge b _ (by omega), Bool.or_false, List.getD_cons_succ]

/-- A word is its bytes. -/
theorem eq_of_wordByte (h : ∀ k, 8 * k < w → wordByte x k = wordByte y k) : x = y := by
  refine BitVec.eq_of_getLsbD_eq fun i hi => ?_
  have hbyte := congrArg (BitVec.getLsbD · (i % 8)) (h (i / 8) (by omega))
  have hlt : i % 8 < 8 := Nat.mod_lt i (by decide)
  simpa only [getLsbD_wordByte, hlt, decide_true, Bool.true_and, Nat.div_add_mod] using hbyte

/-- The low bits of a word. -/
theorem toNat_and_pow (x : BitVec w) {m : BitVec w} (k : Nat) (hm : m.toNat = 2 ^ k - 1) :
    (x &&& m).toNat = x.toNat % 2 ^ k := by
  rw [BitVec.toNat_and, hm, Nat.and_two_pow_sub_one_eq_mod]

/-- A word without bits in a mask. -/
theorem and_not_of_and (h : x &&& y = 0#w) : x &&& ~~~y = x := by
  refine BitVec.eq_of_getLsbD_eq fun i hi => ?_
  have hbit := congrArg (BitVec.getLsbD · i) h
  simp only [BitVec.getLsbD_and, BitVec.getLsbD_zero] at hbit
  rw [BitVec.getLsbD_and, BitVec.getLsbD_not, decide_eq_true hi, Bool.true_and]
  cases hx : x.getLsbD i with
  | false => rfl
  | true =>
    rw [hx, Bool.true_and] at hbit
    rw [hbit]
    rfl

end DeviceModel
