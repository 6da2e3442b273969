import DeviceModel.Library.Extents
import Mathlib.Data.Set.Insert

/-!
# Pools handed out in order

A pool is the numbers from `first` to `limit`. It is handed out from the low end on:
`next` is the first number that has not been considered yet, and a request takes the next
multiple of its size. `Handed` is the invariant, and `Handed.alloc` what a request that
succeeds comes to; one that fails leaves the pool as it was.
-/

namespace DeviceModel

/-- `a`, rounded up to a multiple of `n`. -/
def alignUp (a n : Nat) : Nat := (a + (n - 1)) / n * n

section AlignUp

variable {a n : Nat}

theorem le_alignUp (hn : 0 < n) : a ≤ alignUp a n := by
  have hlt := Nat.lt_div_mul_add hn (a := a + (n - 1))
  rw [alignUp]
  omega

theorem dvd_alignUp (a n : Nat) : n ∣ alignUp a n := Nat.dvd_mul_left n _

theorem alignUp_lt (hn : 0 < n) : alignUp a n < a + n := by
  have hle := Nat.div_mul_le_self (a + (n - 1)) n
  rw [alignUp]
  omega

end AlignUp

/-- A request for `size` numbers from a multiple of `size` on: the extent, and what is left
from. -/
def bumpAlloc (next limit size : Nat) : Option (Extent × Nat) :=
  if alignUp next size + size ≤ limit then some (⟨alignUp next size, size⟩, alignUp next size + size)
  else none

/-- What has been handed out of a pool lies below what is next. -/
structure Handed (first next limit : Nat) (handed : Set Extent) : Prop where
  first_le : first ≤ next
  le_limit : next ≤ limit
  between : ∀ e ∈ handed, first ≤ e.off ∧ e.off + e.len ≤ next

namespace Handed

variable {first next next' limit size : Nat} {handed : Set Extent} {e : Extent}

/-- A pool that nothing has been taken from. -/
theorem init (h : first ≤ limit) : Handed first first limit ∅ where
  first_le := le_rfl
  le_limit := h
  between := by simp

theorem mono {handed' : Set Extent} (h : Handed first next limit handed)
    (hsub : ∀ e ∈ handed', e ∈ handed) : Handed first next limit handed' :=
  { h with between := fun e he => h.between e (hsub e he) }

/-- **One request.** It yields an aligned extent inside the pool, clear of every other. -/
theorem alloc (h : Handed first next limit handed) (hsize : 0 < size)
    (halloc : bumpAlloc next limit size = some (e, next')) :
    Handed first next' limit (insert e handed) ∧ e.len = size ∧ size ∣ e.off ∧ first ≤ e.off ∧
      e.off + e.len ≤ limit ∧ ∀ d ∈ handed, d.Clear e := by
  rw [bumpAlloc] at halloc
  split at halloc
  next hfits =>
    obtain ⟨rfl, rfl⟩ := Prod.mk.inj (Option.some.inj halloc)
    have hle : next ≤ alignUp next size := le_alignUp hsize
    have hfirst := h.first_le.trans hle
    refine ⟨⟨by omega, hfits, ?_⟩, rfl, dvd_alignUp next size, hfirst, hfits, ?_⟩
    · intro d hd
      rcases Set.mem_insert_iff.1 hd with rfl | hd
      · exact ⟨hfirst, le_rfl⟩
      · obtain ⟨hlo, hhi⟩ := h.between d hd
        exact ⟨hlo, by omega⟩
    · intro d hd
      exact .inl ((h.between d hd).2.trans hle)
  next => cases halloc

end Handed

end DeviceModel
