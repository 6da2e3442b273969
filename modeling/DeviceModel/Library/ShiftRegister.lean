import Mathlib.Data.List.OfFn
import Mathlib.Data.List.Induction

/-!
# Shift registers

A serial line carries a word as its bits, most significant first (`msbFirst`). The
receiver shifts them into a register from below (`shiftIns`) and has the word at the end
(`shiftIns_msbFirst`); the sender shows the top bit and shifts left. A pin is a bit of a
register, tested through its mask.
-/

namespace DeviceModel

variable {w v : Nat}

/-- The bits of a word, most significant first. -/
def msbFirst (x : BitVec w) : List Bool := List.ofFn fun k : Fin w => x.getMsbD k

@[simp] theorem length_msbFirst (x : BitVec w) : (msbFirst x).length = w := List.length_ofFn

@[simp] theorem getD_msbFirst (x : BitVec w) (k : Nat) :
    (msbFirst x).getD k false = x.getMsbD k := by
  by_cases hk : k < w
  · simp [msbFirst, List.getD_eq_getElem?_getD, hk]
  · simp [msbFirst, List.getD_eq_getElem?_getD, hk, BitVec.getMsbD_of_ge x k (Nat.le_of_not_lt hk)]

/-- The bits of two words in a row. -/
theorem msbFirst_append (x : BitVec w) (y : BitVec v) :
    msbFirst (x ++ y) = msbFirst x ++ msbFirst y := by
  apply List.ext_getElem
  · simp
  intro k hk hk'
  simp only [List.getElem_append, length_msbFirst]
  split
  · next h => simp [msbFirst, BitVec.getMsbD_append, h]
  · next h => simp [msbFirst, BitVec.getMsbD_append, h]

/-- Shift the bits into the register, one after another, from below. -/
def shiftIns (x : BitVec w) (bs : List Bool) : BitVec w := bs.foldl BitVec.shiftConcat x

@[simp] theorem shiftIns_nil (x : BitVec w) : shiftIns x [] = x := rfl

@[simp] theorem shiftIns_snoc (x : BitVec w) (bs : List Bool) (b : Bool) :
    shiftIns x (bs ++ [b]) = (shiftIns x bs).shiftConcat b := by
  rw [shiftIns, List.foldl_append]
  rfl

/-- Bit `i` of the register is the one shifted in `i` bits before the last. -/
theorem getLsbD_shiftIns (x : BitVec w) (bs : List Bool) (i : Nat) :
    (shiftIns x bs).getLsbD i =
      (decide (i < w) && if i < bs.length then bs.reverse.getD i false
        else x.getLsbD (i - bs.length)) := by
  induction bs using List.reverseRecOn generalizing i with
  | nil =>
    by_cases hi : i < w
    · simp [hi]
    · simp [hi, BitVec.getLsbD_of_ge x i (Nat.le_of_not_lt hi)]
  | append_singleton bs b ih =>
    rw [shiftIns_snoc, BitVec.getLsbD_shiftConcat]
    cases i with
    | zero => simp
    | succ i =>
      by_cases hi : i + 1 < w
      · rw [ih]
        simp [hi, Nat.lt_of_succ_lt hi]
      · simp [hi]

/-- A register filled with the bits of a word holds the word. -/
theorem shiftIns_msbFirst (x y : BitVec w) : shiftIns x (msbFirst y) = y := by
  apply BitVec.eq_of_getLsbD_eq
  intro i hi
  have hrev : (msbFirst y).reverse.getD i false = (msbFirst y).getD (w - 1 - i) false := by
    rw [List.getD_eq_getElem?_getD, List.getElem?_reverse (by simpa using hi), length_msbFirst]
    rfl
  rw [getLsbD_shiftIns, length_msbFirst, if_pos hi, hrev, getD_msbFirst, BitVec.getMsbD_eq_getLsbD]
  have hsub : w - 1 - (w - 1 - i) = i := by omega
  have hlt : w - 1 - i < w := by omega
  simp [hi, hlt, hsub]

/-- Bits that fit a register fit a wider one, from zero. -/
theorem shiftIns_setWidth {bs : List Bool} (hbs : bs.length ≤ w) :
    shiftIns (0#v) bs = (shiftIns (0#w) bs).setWidth v := by
  apply BitVec.eq_of_getLsbD_eq
  intro i hi
  rw [BitVec.getLsbD_setWidth, getLsbD_shiftIns, getLsbD_shiftIns]
  by_cases h : i < bs.length
  · simp [hi, h, Nat.lt_of_lt_of_le h hbs]
  · simp [h]

/-- A pin is high where its mask meets the register. -/
theorem and_twoPow_ne_zero {x : BitVec w} {i : Nat} (hi : i < w) :
    x &&& BitVec.twoPow w i ≠ 0#w ↔ x.getLsbD i = true := by
  have hne : BitVec.twoPow w i ≠ 0#w := by
    intro h
    have hbit := congrArg (fun y => y.getLsbD i) h
    simp [hi] at hbit
  rw [BitVec.and_twoPow]
  cases x.getLsbD i with
  | true => simp [hne]
  | false => simp

end DeviceModel
