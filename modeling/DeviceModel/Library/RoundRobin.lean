import Mathlib.Data.Fintype.Order
import Mathlib.Data.Finite.Defs

/-!
# Serving slots in turn

A loop goes round some slots. Turn `k` looks at slot `turn k`; if that slot waits, the
turn leaves it waiting (`stays`), serves it (`goes`) or ends the loop (`ends`). The loop
also ends when no slot waits. What a turn does depends on the turn, and not on what the
turns before it did.
-/

namespace DeviceModel

/-- What a turn does to a slot that waits. -/
inductive Turn : Type where
  | stays
  | goes
  | ends
  deriving DecidableEq, Repr

section

variable {ι : Type} (W : ι → Prop) (turn : Nat → ι) (fate : Nat → Turn)

/-- Slot `s` waits at turn `k`: no turn before has served it. -/
def Waits (k : Nat) (s : ι) : Prop := W s ∧ ∀ j < k, turn j = s → fate j = .stays

/-- The loop ends at turn `k`. -/
def EndsAt (k : Nat) : Prop :=
  (∀ s, ¬ Waits W turn fate k s) ∨ (Waits W turn fate k (turn k) ∧ fate k = .ends)

variable {W turn fate}

theorem waits_zero {s : ι} : Waits W turn fate 0 s ↔ W s :=
  ⟨fun h => h.1, fun h => ⟨h, fun j hj => absurd hj (Nat.not_lt_zero j)⟩⟩

/-- A turn serves the slot it looks at, and no other. -/
theorem waits_succ {k : Nat} {s : ι} :
    Waits W turn fate (k + 1) s ↔
      Waits W turn fate k s ∧ (turn k = s → fate k = .stays) := by
  constructor
  · rintro ⟨hW, hstays⟩
    exact ⟨⟨hW, fun j hj => hstays j (Nat.lt_succ_of_lt hj)⟩, hstays k (Nat.lt_succ_self k)⟩
  · rintro ⟨⟨hW, hstays⟩, hk⟩
    refine ⟨hW, fun j hj hturn => ?_⟩
    rcases Nat.lt_succ_iff_lt_or_eq.1 hj with hj | rfl
    · exact hstays j hj hturn
    · exact hk hturn

/-- **When the loop ends**: some turn ends it, or every slot that waits is served. -/
theorem exists_endsAt_iff [Finite ι] :
    (∃ k, EndsAt W turn fate k) ↔
      (∃ k, Waits W turn fate k (turn k) ∧ fate k = .ends) ∨
        ∀ s, W s → ∃ k, turn k = s ∧ fate k ≠ .stays := by
  constructor
  · rintro ⟨k, hnone | hend⟩
    · refine .inr fun s hs => ?_
      by_contra hstays
      refine hnone s ⟨hs, fun j _ hturn => ?_⟩
      by_contra hfate
      exact hstays ⟨j, hturn, hfate⟩
    · exact .inl ⟨k, hend⟩
  · rintro (⟨k, hend⟩ | hserved)
    · exact ⟨k, .inr hend⟩
    · -- after the last of the turns that serve the slots, none waits
      choose! last hturn hfate using hserved
      obtain ⟨K, hK⟩ := Finite.exists_le last
      refine ⟨K + 1, .inl fun s hs => ?_⟩
      exact hfate s hs.1 (hs.2 (last s) (Nat.lt_succ_of_le (hK s)) (hturn s hs.1))

end

end DeviceModel
