import Mathlib.Data.Set.Pairwise.Basic
import Mathlib.Data.Set.BooleanAlgebra
import Mathlib.Order.CompletePartialOrder

/-!
# Ranges of addresses

A range is anything with a first and a last address, `lo r` and `hi r`, in a
linear order. Two ranges are compared by position and compare equal when they
overlap, so the comparison orders a family only where its ranges lie apart.

* `Covers lo hi r x` — the address `x` lies in `r`;
* `rangeCompare` — position, with overlap as equality;
* `Apart lo hi S` — the ranges of `S` lie pairwise apart, which makes `S` a
  partial function from addresses to ranges (`Apart.unique`).
-/

namespace DeviceModel

universe u v

section Ranges

variable {α : Type u} {ρ : Type v} [LinearOrder α] (lo hi : ρ → α)

/-- The address `x` lies in the range `r`. -/
def Covers (r : ρ) (x : α) : Prop := lo r ≤ x ∧ x ≤ hi r

/-- Position of `a` relative to `b`; overlapping ranges compare equal. -/
def rangeCompare (a b : ρ) : Ordering :=
  if hi a < lo b then .lt else if hi b < lo a then .gt else .eq

/-- The ranges of a set lie pairwise apart. -/
def Apart (S : Set ρ) : Prop := S.Pairwise fun a b => rangeCompare lo hi a b ≠ .eq

variable {lo hi}

theorem rangeCompare_eq_iff {a b : ρ} :
    rangeCompare lo hi a b = .eq ↔ lo b ≤ hi a ∧ lo a ≤ hi b := by
  rw [rangeCompare]
  by_cases hab : hi a < lo b
  · simp [hab, not_le.2 hab]
  · by_cases hba : hi b < lo a
    · simp [hab, hba, not_le.2 hba]
    · simp [hab, hba, not_lt.1 hab, not_lt.1 hba]

theorem rangeCompare_eq_comm {a b : ρ} :
    rangeCompare lo hi a b = .eq ↔ rangeCompare lo hi b a = .eq := by
  rw [rangeCompare_eq_iff, rangeCompare_eq_iff, and_comm]

/-- Ranges with an address in common compare equal. -/
theorem Covers.compare_eq {a b : ρ} {x : α} (ha : Covers lo hi a x) (hb : Covers lo hi b x) :
    rangeCompare lo hi a b = .eq :=
  rangeCompare_eq_iff.2 ⟨hb.1.trans ha.2, ha.1.trans hb.2⟩

/-- Non-empty ranges that compare equal have an address in common. -/
theorem exists_covers_of_compare_eq {a b : ρ} (ha : lo a ≤ hi a) (hb : lo b ≤ hi b)
    (h : rangeCompare lo hi a b = .eq) : ∃ x, Covers lo hi a x ∧ Covers lo hi b x := by
  obtain ⟨hba, hab⟩ := rangeCompare_eq_iff.1 h
  obtain hle | hle := le_total (lo a) (lo b)
  · exact ⟨lo b, ⟨hle, hba⟩, ⟨le_refl _, hb⟩⟩
  · exact ⟨lo a, ⟨le_refl _, ha⟩, ⟨hle, hab⟩⟩

/-- A range of one address compares equal to the ranges that cover it. -/
theorem compare_point {k r : ρ} {x : α} (hlo : lo k = x) (hhi : hi k = x) :
    rangeCompare lo hi k r = .eq ↔ Covers lo hi r x := by
  rw [rangeCompare_eq_iff, hlo, hhi]
  rfl

namespace Apart

variable {S : Set ρ}

/-- At most one range of a family that lies apart covers an address. -/
theorem unique (h : Apart lo hi S) {a b : ρ} {x : α} (ha : a ∈ S) (hb : b ∈ S)
    (hax : Covers lo hi a x) (hbx : Covers lo hi b x) : a = b := by
  by_contra hne
  exact h ha hb hne (hax.compare_eq hbx)

end Apart

end Ranges

end DeviceModel
