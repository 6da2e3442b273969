import Mathlib.Data.List.Basic
import Mathlib.Logic.Function.Basic

/-!
# The least loaded of some resources

Requests share `n` resources. Each takes the first of those with the fewest users. From a start
without users the requests go round: request `k` takes resource `k % n`, and the users are spread
as evenly as they can be.
-/

namespace DeviceModel

variable {n k m : Nat} {load : Nat → Nat}

/-- The first resource with the fewest users. -/
def leastLoaded (load : Nat → Nat) (n : Nat) : Nat :=
  (List.range n).foldl (fun best i => if load i < load best then i else best) 0

/-- One more user. -/
def takeLeast (load : Nat → Nat) (n : Nat) : Nat → Nat :=
  Function.update load (leastLoaded load n) (load (leastLoaded load n) + 1)

/-- The users of resource `i` after `k` requests. -/
def spread (n k i : Nat) : Nat := k / n + if i < k % n then 1 else 0

/-- What the loop finds. -/
theorem leastLoaded_spec (load : Nat → Nat) (hn : 0 < n) :
    leastLoaded load n < n ∧ (∀ i, i < n → load (leastLoaded load n) ≤ load i) ∧
      ∀ i, i < leastLoaded load n → load (leastLoaded load n) < load i := by
  obtain ⟨n, rfl⟩ : ∃ k, n = k + 1 := ⟨n - 1, by omega⟩
  clear hn
  induction n with
  | zero =>
    have hzero : leastLoaded load 1 = 0 := by simp [leastLoaded]
    rw [hzero]
    refine ⟨Nat.one_pos, fun i hi => ?_, fun i hi => absurd hi (Nat.not_lt_zero i)⟩
    obtain rfl : i = 0 := by omega
    exact Nat.le_refl _
  | succ n ih =>
    obtain ⟨hlt, hle, hfirst⟩ := ih
    have hstep : leastLoaded load (n + 1 + 1) = if load (n + 1) < load (leastLoaded load (n + 1)) then
        n + 1 else leastLoaded load (n + 1) := by
      rw [leastLoaded, List.range_succ, List.foldl_append]
      rfl
    rw [hstep]
    split
    next hless =>
      refine ⟨by omega, fun i hi => ?_, fun i hi => Nat.lt_of_lt_of_le hless (hle i hi)⟩
      rcases Nat.lt_succ_iff_lt_or_eq.1 hi with hi | rfl
      · exact Nat.le_of_lt (Nat.lt_of_lt_of_le hless (hle i hi))
      · exact Nat.le_refl _
    next hmore =>
      refine ⟨by omega, fun i hi => ?_, hfirst⟩
      rcases Nat.lt_succ_iff_lt_or_eq.1 hi with hi | rfl
      · exact hle i hi
      · exact Nat.not_lt.1 hmore

/-- The next one in turn is the least loaded. -/
theorem leastLoaded_spread (hn : 0 < n) (h : ∀ i, i < n → load i = spread n k i) :
    leastLoaded load n = k % n := by
  obtain ⟨hlt, hle, hfirst⟩ := leastLoaded_spec load hn
  have hmod := Nat.mod_lt k hn
  have hturn : load (k % n) = k / n := by
    rw [h _ hmod, spread, if_neg (Nat.lt_irrefl _), Nat.add_zero]
  have hbest := hle _ hmod
  rw [hturn, h _ hlt, spread] at hbest
  have hge : ¬ leastLoaded load n < k % n := fun hin => by rw [if_pos hin] at hbest; omega
  refine Nat.le_antisymm (Nat.not_lt.1 fun hgt => ?_) (Nat.not_lt.1 hge)
  have hless := hfirst _ hgt
  rw [hturn, h _ hlt, spread] at hless
  omega

/-- **One request** takes the next resource in turn. -/
theorem takeLeast_spread (hn : 0 < n) (h : ∀ i, i < n → load i = spread n k i) :
    ∀ i, i < n → takeLeast load n i = spread n (k + 1) i := by
  intro i hi
  have hturn := leastLoaded_spread hn h
  have hmod := Nat.mod_lt k hn
  rw [takeLeast, hturn, Function.update_apply, h _ hmod, h i hi, spread, spread, spread,
    if_neg (Nat.lt_irrefl (k % n)), Nat.add_zero]
  by_cases hlast : k % n + 1 = n
  · -- the last one, and then all have one user more
    have hdiv : (k + 1) / n = k / n + 1 := by
      have hsplit := Nat.div_add_mod k n
      rw [Nat.div_eq_iff hn]
      have hmul : (k / n + 1) * n = n * (k / n) + n := by rw [Nat.add_mul, Nat.mul_comm, Nat.one_mul]
      omega
    have hzero : (k + 1) % n = 0 := by
      have hsplit := Nat.div_add_mod k n
      have hsum : k + 1 = n * (k / n + 1) := by rw [Nat.mul_add, Nat.mul_one]; omega
      rw [hsum]
      exact Nat.mul_mod_right n _
    rw [hdiv, hzero, if_neg (Nat.not_lt_zero i)]
    split
    · rfl
    · rw [if_pos (by omega)]
  · have hless : k % n + 1 < n := by omega
    have hsplit := Nat.div_add_mod k n
    have hsum : k + 1 = n * (k / n) + (k % n + 1) := by omega
    have hnext : (k + 1) % n = k % n + 1 := by
      rw [hsum, Nat.mul_add_mod]
      exact Nat.mod_eq_of_lt hless
    have hdiv : (k + 1) / n = k / n := by
      rw [hsum, Nat.mul_add_div hn, Nat.div_eq_of_lt hless, Nat.add_zero]
    rw [hdiv, hnext]
    by_cases hi : i = k % n
    · rw [if_pos hi, if_pos (by omega)]
    · rw [if_neg hi]
      congr 1
      exact if_congr (by omega) rfl rfl

/-- The resources that have a user. -/
theorem spread_pos_iff (hk : m < n) : 0 < spread n k m ↔ m < k := by
  have hsplit := Nat.div_add_mod k n
  rw [spread]
  rcases Nat.eq_zero_or_pos (k / n) with hzero | hpos
  · rw [hzero] at hsplit ⊢
    split <;> omega
  · have hle : n * 1 ≤ n * (k / n) := Nat.mul_le_mul_left n hpos
    omega

end DeviceModel
