import Mathlib.Data.List.Basic
import Mathlib.Data.List.Nodup

/-!
# Moving contents piece by piece

A memory is a function from places to contents. Some contents are moved from the places of
one list to those of another, a piece at a time, while other places, the `noise`, change as
they like. `Moved` says how far the move has come.
-/

namespace DeviceModel

universe u v

variable {α : Type u} {β : Type v}

/-- The first `n` places of `dst` hold what those of `src` held in `m`; the other places
outside `noise` hold what they held. -/
structure Moved (src dst noise : List α) (n : Nat) (m m' : α → β) : Prop where
  moved : (dst.take n).map m' = (src.take n).map m
  kept : ∀ a, a ∉ dst.take n → a ∉ noise → m' a = m a

namespace Moved

variable {src dst noise : List α} {n : Nat} {m m' m'' : α → β}

/-- Nothing has been moved. -/
theorem zero (h : ∀ a, a ∉ noise → m' a = m a) : Moved src dst noise 0 m m' where
  moved := by rw [List.take_zero, List.take_zero, List.map_nil, List.map_nil]
  kept := fun a _ ha => h a ha

/-- Places that are neither moved to nor noise. -/
theorem kept_of_notMem (h : Moved src dst noise n m m') {a : α} (hdst : a ∉ dst) (hnoise : a ∉ noise) :
    m' a = m a :=
  h.kept a (fun hmem => hdst (List.mem_of_mem_take hmem)) hnoise

/-- The noise goes on. -/
theorem distract (h : Moved src dst noise n m m') (hdst : noise.Disjoint dst)
    (hkept : ∀ a, a ∉ noise → m'' a = m' a) : Moved src dst noise n m m'' where
  moved := by
    rw [← h.moved]
    refine List.map_congr_left fun a ha => hkept a fun hnoise => ?_
    exact hdst hnoise (List.mem_of_mem_take ha)
  kept := fun a ha hnoise => (hkept a hnoise).trans (h.kept a ha hnoise)

/-- **The next piece.** It is moved out of places that still hold what they held, into places
of its own. -/
theorem piece (h : Moved src dst noise n m m') {k : Nat} (hnodup : dst.Nodup)
    (hsrc : src.Disjoint dst) (hnoise : noise.Disjoint src)
    (hmoved : ((dst.drop n).take k).map m'' = ((src.drop n).take k).map m')
    (hkept : ∀ a, a ∉ (dst.drop n).take k → m'' a = m' a) :
    Moved src dst noise (n + k) m m'' where
  moved := by
    have hfront : (dst.take n).map m'' = (dst.take n).map m' := by
      refine List.map_congr_left fun a ha => hkept a fun hpiece => ?_
      rw [← List.take_append_drop n dst] at hnodup
      exact List.disjoint_of_nodup_append hnodup ha (List.mem_of_mem_take hpiece)
    have hpiece : ((src.drop n).take k).map m' = ((src.drop n).take k).map m := by
      refine List.map_congr_left fun a ha => ?_
      have hmem : a ∈ src := List.mem_of_mem_drop (List.mem_of_mem_take ha)
      exact h.kept_of_notMem (hsrc hmem) fun hn => hnoise hn hmem
    rw [List.take_add, List.take_add, List.map_append, List.map_append, hfront, h.moved, hmoved,
      hpiece]
  kept := by
    intro a ha hn
    rw [List.take_add, List.mem_append, not_or] at ha
    rw [hkept a ha.2, h.kept a ha.1 hn]

/-- All of it has been moved. -/
theorem all (h : Moved src dst noise n m m') (hsrc : src.length ≤ n) (hdst : dst.length ≤ n) :
    dst.map m' = src.map m := by
  have hmoved := h.moved
  rwa [List.take_of_length_le hsrc, List.take_of_length_le hdst] at hmoved

end Moved

end DeviceModel
