import Mathlib.Data.Nat.ModEq
import Mathlib.Logic.Function.Basic

/-!
# Positions on a ring

`ringPos n h k` is the slot `k` places after `h` on a ring of `n` slots. Offsets
below `n` name distinct slots, so a window of fewer than `n` slots can be reasoned
about by its offsets, without wrap-around.
-/

namespace DeviceModel

/-- The slot `k` places after `h`. -/
def ringPos (n h k : Nat) : Nat := (h + k) % n

variable {n h j k : Nat}

theorem ringPos_lt (hn : 0 < n) : ringPos n h k < n := Nat.mod_lt _ hn

theorem ringPos_zero (hh : h < n) : ringPos n h 0 = h := Nat.mod_eq_of_lt hh

theorem ringPos_succ : (ringPos n h k + 1) % n = ringPos n h (k + 1) := by
  rw [ringPos, ringPos, Nat.mod_add_mod, Nat.add_assoc]

/-- Offsets below `n` name distinct slots. -/
theorem ringPos_inj (hj : j < n) (hk : k < n) : ringPos n h j = ringPos n h k ↔ j = k := by
  constructor
  · intro heq
    have hmod : j ≡ k [MOD n] := Nat.ModEq.add_left_cancel' h heq
    rwa [Nat.ModEq, Nat.mod_eq_of_lt hj, Nat.mod_eq_of_lt hk] at hmod
  · rintro rfl
    rfl

/-! ## Walks -/

/-- Where a walk from `h` is after `k` steps. The start need not be on the ring. -/
def ringWalk (n h : Nat) : Nat → Nat
  | 0 => h
  | k + 1 => ringPos n h (k + 1)

theorem ringWalk_lt (hn : 0 < n) : ringWalk n h (k + 1) < n := ringPos_lt hn

/-- A walk is one step and a walk from there. -/
theorem ringWalk_shift : ringWalk n ((h + 1) % n) k = ringWalk n h (k + 1) := by
  cases k with
  | zero => rfl
  | succ k =>
    simp only [ringWalk, ringPos, Nat.mod_add_mod]
    rw [Nat.add_assoc, Nat.add_comm 1]

/-- A walk comes by every slot. -/
theorem exists_ringWalk {i : Nat} (h : Nat) (hi : i < n) : ∃ k, ringWalk n h (k + 1) = i := by
  have hr := Nat.mod_lt (h + 1) (by omega : n > 0)
  have hpos : ∀ k, ringWalk n h (k + 1) = ((h + 1) % n + k) % n := by
    intro k
    rw [ringWalk, ringPos, Nat.mod_add_mod, Nat.add_right_comm, Nat.add_assoc]
  rcases Nat.lt_or_ge i ((h + 1) % n) with hlt | hge
  · refine ⟨i + n - (h + 1) % n, ?_⟩
    rw [hpos, Nat.add_sub_cancel' (by omega), Nat.add_mod_right, Nat.mod_eq_of_lt hi]
  · refine ⟨i - (h + 1) % n, ?_⟩
    rw [hpos, Nat.add_sub_cancel' hge, Nat.mod_eq_of_lt hi]

/-! ## Windows -/

/-- The slots at offsets `j` to `k - 1`. -/
def inWindow (n h j k i : Nat) : Prop := ∃ l, j ≤ l ∧ l < k ∧ ringPos n h l = i

instance : Decidable (inWindow n h j k i) :=
  decidable_of_iff (∃ l ∈ List.range k, j ≤ l ∧ ringPos n h l = i) <| by
    simp only [inWindow, List.mem_range]
    exact ⟨fun ⟨l, hlt, hle, he⟩ => ⟨l, hle, hlt, he⟩, fun ⟨l, hle, hlt, he⟩ => ⟨l, hlt, hle, he⟩⟩

theorem not_inWindow_self (i : Nat) : ¬ inWindow n h k k i := by
  rintro ⟨l, hle, hlt, -⟩
  omega

/-- A window grows at its end. -/
theorem inWindow_append {m i : Nat} (hjk : j ≤ k) (hkm : k ≤ m) :
    inWindow n h j m i ↔ inWindow n h j k i ∨ inWindow n h k m i := by
  constructor
  · rintro ⟨l, hle, hlt, he⟩
    rcases Nat.lt_or_ge l k with hl | hl
    · exact .inl ⟨l, hle, hl, he⟩
    · exact .inr ⟨l, hl, hlt, he⟩
  · rintro (⟨l, hle, hlt, he⟩ | ⟨l, hle, hlt, he⟩)
    · exact ⟨l, hle, by omega, he⟩
    · exact ⟨l, by omega, hlt, he⟩

/-- The window of one slot. -/
theorem inWindow_succ_self {i : Nat} : inWindow n h k (k + 1) i ↔ ringPos n h k = i := by
  constructor
  · rintro ⟨l, hle, hlt, rfl⟩
    obtain rfl : l = k := by omega
    rfl
  · intro he
    exact ⟨k, Nat.le_refl k, Nat.lt_succ_self k, he⟩

/-- A slot at an offset outside the window is not in it. -/
theorem not_inWindow_ringPos {l : Nat} (hk : k ≤ n) (hl : l < n) (hout : l < j ∨ k ≤ l) :
    ¬ inWindow n h j k (ringPos n h l) := by
  rintro ⟨l', hle, hlt, he⟩
  rw [ringPos_inj (by omega) hl] at he
  omega

/-- Stores to a window from its front on: each slot of it is changed once. -/
theorem foldl_update_window {α : Type*} (f : α → α) (ring : Nat → α) (x : Nat) : ∀ {m : Nat}, m ≤ n →
    (List.range m).foldl (fun r i => Function.update r (ringPos n h i) (f (r (ringPos n h i)))) ring x =
      if inWindow n h 0 m x then f (ring x) else ring x := by
  intro m
  induction m generalizing x with
  | zero =>
    intro _
    rw [if_neg (not_inWindow_self x)]
    rfl
  | succ m ih =>
    intro hm
    have hlast : ¬ inWindow n h 0 m (ringPos n h m) :=
      not_inWindow_ringPos (by omega) (by omega) (.inr (Nat.le_refl m))
    have hsplit := @inWindow_append n h 0 m (m + 1) x (Nat.zero_le m) (Nat.le_succ m)
    rw [inWindow_succ_self] at hsplit
    rw [List.range_succ, List.foldl_append, List.foldl_cons, List.foldl_nil]
    by_cases hx : ringPos n h m = x
    · rw [← hx, Function.update_self, ih _ (by omega), if_neg hlast, if_pos]
      rw [hx]
      exact hsplit.2 (.inr hx)
    · rw [Function.update_of_ne (Ne.symm hx), ih _ (by omega)]
      simp only [hsplit, hx, or_false]

/-! ## Distances -/

/-- How far it is from `h` to `t`. -/
def ringDist (n h t : Nat) : Nat := (n + t - h) % n

theorem ringDist_eq {t : Nat} (hh : h < n) (ht : t < n) :
    ringDist n h t = if h ≤ t then t - h else n + t - h := by
  rw [ringDist]
  split
  · next hle =>
    have hsplit : n + t - h = n + (t - h) := by omega
    rw [hsplit, Nat.add_mod_left, Nat.mod_eq_of_lt (by omega)]
  · exact Nat.mod_eq_of_lt (by omega)

/-- Each step towards `t` is one less. -/
theorem ringDist_ringPos {t : Nat} (hh : h < n) (ht : t < n) (hk : k ≤ ringDist n h t) :
    ringDist n (ringPos n h k) t = ringDist n h t - k := by
  have hdist := ringDist_eq hh ht
  have hpos : ringPos n h k = if h + k < n then h + k else h + k - n := by
    rw [ringPos]
    split
    · next hlt => exact Nat.mod_eq_of_lt hlt
    · rw [Nat.mod_eq_sub_mod (by omega), Nat.mod_eq_of_lt]
      split at hdist <;> omega
  rw [ringDist_eq (ringPos_lt (by omega)) ht]
  split at hdist <;> split at hpos <;> split <;> omega

end DeviceModel
