import Mathlib.Algebra.Order.Group.Nat
import DeviceModel.Library.Extents

/-!
# The layout of C objects

Size and alignment of scalars, structures and unions. A member starts at the first
multiple of its alignment that is free, and an object is padded to a multiple of its
own, so that the elements of an array follow one another at a distance of `size`.

A program that counts the elements of a buffer by dividing by a constant agrees with
that distance if and only if no element is larger than the constant
(`forall_elem_within_iff`).
-/

namespace DeviceModel

/-- The size and the alignment of a C type. -/
structure CType where
  size : Nat
  align : Nat
  deriving DecidableEq, Repr

namespace CType

/-- The first multiple of `a` that is not below `n`. -/
def roundUp (n a : Nat) : Nat := (n + a - 1) / a * a

theorem le_roundUp {n a : Nat} (ha : 0 < a) : n ≤ roundUp n a := by
  have hdiv := Nat.lt_div_mul_add (a := n + a - 1) ha
  rw [roundUp]
  omega

/-- An integer or a pointer of `n` bytes. -/
def scalar (n : Nat) : CType := ⟨n, n⟩

/-- Pad to a multiple of the alignment. -/
def pad (t : CType) : CType := { t with size := roundUp t.size t.align }

/-- One more member of a structure. -/
def addMember (t m : CType) : CType := ⟨roundUp t.size m.align + m.size, max t.align m.align⟩

/-- One more member of a union. -/
def addChoice (t m : CType) : CType := ⟨max t.size m.size, max t.align m.align⟩

/-- A structure with the members `ms`. -/
def struct (ms : List CType) : CType := (ms.foldl addMember ⟨0, 1⟩).pad

/-- A union of the members `ms`. -/
def union (ms : List CType) : CType := (ms.foldl addChoice ⟨0, 1⟩).pad

/-- Choices only make a union larger. -/
theorem foldl_addChoice (ms : List CType) : ∀ t : CType,
    t.align ≤ (ms.foldl addChoice t).align ∧ t.size ≤ (ms.foldl addChoice t).size ∧
      ∀ m ∈ ms, m.size ≤ (ms.foldl addChoice t).size := by
  induction ms with
  | nil => intro t; simp
  | cons m ms ih =>
    intro t
    obtain ⟨halign, hsize, hmem⟩ := ih (t.addChoice m)
    rw [List.foldl_cons]
    refine ⟨(le_max_left _ _).trans halign, (le_max_left _ _).trans hsize, ?_⟩
    intro m' hm'
    rcases List.mem_cons.1 hm' with rfl | hm'
    · exact (le_max_right _ _).trans hsize
    · exact hmem m' hm'

/-- A member fits in its union. -/
theorem size_le_union {ms : List CType} {m : CType} (h : m ∈ ms) : m.size ≤ (union ms).size := by
  obtain ⟨halign, -, hmem⟩ := foldl_addChoice ms ⟨0, 1⟩
  exact (hmem m h).trans (le_roundUp halign)

/-! ## Arrays -/

/-- Element `i` of an array, from the start of the array. -/
def elem (t : CType) (i : Nat) : Extent := ⟨i * t.size, t.size⟩

theorem elem_within {t : CType} {i len : Nat} :
    (t.elem i).Within len ↔ (i + 1) * t.size ≤ len := by
  rw [Extent.Within, elem, Nat.succ_mul]

/-- The first `len / d` elements lie within `len` bytes if and only if no element is
larger than `d`. -/
theorem forall_elem_within_iff {t : CType} {len d : Nat} (hd : d ∣ len) (hlen : len ≠ 0) :
    (∀ i < len / d, (t.elem i).Within len) ↔ t.size ≤ d := by
  obtain ⟨k, rfl⟩ := hd
  have hd : 0 < d := Nat.pos_of_mul_pos_right (Nat.pos_of_ne_zero hlen)
  have hk : 0 < k := Nat.pos_of_mul_pos_left (Nat.pos_of_ne_zero hlen)
  rw [Nat.mul_div_cancel_left k hd]
  simp only [elem_within]
  constructor
  · intro h
    have hlast := h (k - 1) (by omega)
    rw [Nat.sub_add_cancel hk, Nat.mul_comm d] at hlast
    exact Nat.le_of_mul_le_mul_left hlast hk
  · intro h i hi
    calc (i + 1) * t.size ≤ k * d := Nat.mul_le_mul hi h
      _ = d * k := Nat.mul_comm k d

end CType

end DeviceModel
