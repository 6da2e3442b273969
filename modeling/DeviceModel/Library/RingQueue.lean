import Mathlib.Data.List.Forall2
import DeviceModel.Library.Ring
import DeviceModel.Library.Runs

/-!
# Queues

A queue takes values at its end and gives them from its front. What it gives may stand for
the value in another form, `R x y`. Two parties can keep a queue on a ring of slots: one of
them fills the slot after the last full one, the other empties the first.
-/

namespace DeviceModel

universe u v

variable {α : Type u} {β : Type v} {R : α → β → Prop}

/-! ## A queue -/

/-- What happens to a queue. -/
inductive QueueLabel (α : Type u) (β : Type v) : Type max u v where
  | put (x : α)
  | take (y : β)

/-- `take y` gives the first value, in its other form. -/
inductive QueueStep (R : α → β → Prop) : List α → QueueLabel α β → List α → Prop where
  | put {q : List α} (x : α) : QueueStep R q (.put x) (q ++ [x])
  | take {q : List α} {x : α} {y : β} : R x y → QueueStep R (x :: q) (.take y) q

namespace QueueLabel

def puts : QueueLabel α β → Option α
  | put x => some x
  | take _ => none

def takes : QueueLabel α β → Option β
  | put _ => none
  | take y => some y

end QueueLabel

/-- **Nothing is lost, doubled or out of order**: what is there at first and what is put are what
is taken and what is there in the end. -/
theorem Run.queue {q q' : List α} {ls : List (QueueLabel α β)} (h : Run (QueueStep R) q ls q') :
    ∃ xs, q ++ ls.filterMap QueueLabel.puts = xs ++ q' ∧
      List.Forall₂ R xs (ls.filterMap QueueLabel.takes) := by
  induction h with
  | nil => exact ⟨[], List.append_nil _, .nil⟩
  | snoc _ hlast ih =>
    obtain ⟨xs, heq, hxs⟩ := ih
    rw [List.filterMap_append, List.filterMap_append, ← List.append_assoc, heq]
    cases hlast with
    | put x =>
      refine ⟨xs, List.append_assoc _ _ _, ?_⟩
      rw [show List.filterMap QueueLabel.takes [QueueLabel.put x] = ([] : List β) from rfl,
        List.append_nil]
      exact hxs
    | @take _ x y hxy =>
      refine ⟨xs ++ [x], ?_, List.rel_append hxs (.cons hxy .nil)⟩
      rw [show List.filterMap QueueLabel.puts [(QueueLabel.take y : QueueLabel α β)] = [] from rfl,
        List.append_nil, List.append_assoc]
      rfl

/-! ## Slots on a ring -/

/-- The slots from `h` on hold the values `xs`, and the others are empty. -/
def OnRing (R : α → β → Prop) (slots : Nat → Option β) (n h : Nat) (xs : List α) : Prop :=
  ∀ i, i < n → Option.Rel R xs[i]? (slots (ringPos n h i))

variable {slots slots' : Nat → Option β} {n h : Nat} {x : α} {y : β} {xs : List α}

namespace OnRing

theorem congr (hring : OnRing R slots n h xs) (hsame : ∀ i, i < n → slots' i = slots i) :
    OnRing R slots' n h xs := by
  intro i hi
  rw [hsame _ (ringPos_lt (by omega))]
  exact hring i hi

theorem empty (hclear : ∀ i, i < n → slots i = none) : OnRing R slots n h [] := by
  intro i hi
  rw [hclear _ (ringPos_lt (by omega)), List.getElem?_nil]
  exact .none

/-- The slot after the last full one is filled. -/
theorem put (hring : OnRing R slots n h xs) (hroom : xs.length < n) (hxy : R x y) :
    OnRing R (Function.update slots (ringPos n h xs.length) (some y)) n h (xs ++ [x]) := by
  intro i hi
  by_cases hlast : i = xs.length
  · subst hlast
    rw [Function.update_self, List.getElem?_append_right (Nat.le_refl _), Nat.sub_self]
    exact .some hxy
  · have hne : ringPos n h i ≠ ringPos n h xs.length := fun he => hlast ((ringPos_inj hi hroom).1 he)
    have hsame : (xs ++ [x])[i]? = xs[i]? := by
      rcases Nat.lt_or_gt_of_ne hlast with hlt | hgt
      · exact List.getElem?_append_left hlt
      · rw [List.getElem?_eq_none (by simp; omega), List.getElem?_eq_none (by omega)]
    rw [Function.update_of_ne hne, hsame]
    exact hring i hi

/-- A full first slot holds the first value. -/
theorem first (hring : OnRing R slots n h xs) (hn : 0 < n) (hy : slots (ringPos n h 0) = some y) :
    ∃ x rest, xs = x :: rest ∧ R x y := by
  have hrel := hring 0 hn
  rw [hy] at hrel
  cases xs with
  | nil => cases hrel
  | cons x rest =>
    cases hrel with
    | some hxy => exact ⟨x, rest, rfl, hxy⟩

/-- It is emptied, and the next one is the first. -/
theorem take (hring : OnRing R slots n h (x :: xs)) (hroom : xs.length < n) :
    OnRing R (Function.update slots (ringPos n h 0) none) n (h + 1) xs := by
  intro i hi
  rcases Nat.lt_or_ge (i + 1) n with hlt | hge
  · have hpos : ringPos n (h + 1) i = ringPos n h (i + 1) := by
      rw [ringPos, ringPos, Nat.add_assoc, Nat.add_comm 1]
    have hne : ringPos n h (i + 1) ≠ ringPos n h 0 := fun he =>
      Nat.succ_ne_zero i ((ringPos_inj hlt (by omega)).1 he)
    rw [hpos, Function.update_of_ne hne, ← List.getElem?_cons_succ]
    exact hring (i + 1) hlt
  · -- the slot that has been emptied is the last one now
    have hpos : ringPos n (h + 1) i = ringPos n h 0 := by
      have hturn : h + 1 + i = h + n := by omega
      rw [ringPos, ringPos, hturn, Nat.add_mod_right, Nat.add_zero]
    rw [hpos, Function.update_self, List.getElem?_eq_none (by omega)]
    exact .none

/-- The slots that are not full. -/
theorem clear (hring : OnRing R slots n h xs) {i : Nat} (hi : i < n) (hlen : xs.length ≤ i) :
    slots (ringPos n h i) = none := by
  have hrel := hring i hi
  rw [List.getElem?_eq_none hlen] at hrel
  generalize slots (ringPos n h i) = o at hrel
  cases hrel
  rfl

end OnRing

end DeviceModel
