import Mathlib.Data.List.Basic
import Mathlib.Data.List.Infix
import Mathlib.Logic.Function.Basic

/-!
# Scatter-gather lists

A scatter-gather list names a sequence of elements as a list of regions, each the list
of its own elements. Skipping a prefix, cutting at a length and trimming at the end
may all stop inside a region; what they do to the sequence is `drop` and `take`.

`gather` is the loop that the three come together in: at most `k` pieces of a list,
from `skip` on, with `left` elements to go. `scatter` stores values into the elements of
the sequence.
-/

namespace DeviceModel

universe u

variable {α : Type u}

/-! ## Skipping and cutting -/

/-- Skip the first `n` elements. -/
def skipElems : Nat → List (List α) → List (List α)
  | _, [] => []
  | n, r :: rs => if r.length ≤ n then skipElems (n - r.length) rs else r.drop n :: rs

/-- Cut after the first `n` elements. -/
def cutElems : Nat → List (List α) → List (List α)
  | _, [] => []
  | n, r :: rs => if n = 0 then [] else r.take n :: cutElems (n - r.length) rs

theorem flatten_skipElems (n : Nat) (rs : List (List α)) :
    (skipElems n rs).flatten = rs.flatten.drop n := by
  induction rs generalizing n with
  | nil => simp [skipElems]
  | cons r rs ih =>
    rw [skipElems, List.flatten_cons, List.drop_append]
    split
    · next h => rw [ih, List.drop_eq_nil_of_le h, List.nil_append]
    · next h =>
      have hzero : n - r.length = 0 := by omega
      rw [hzero, List.drop_zero, List.flatten_cons]

theorem flatten_cutElems (n : Nat) (rs : List (List α)) :
    (cutElems n rs).flatten = rs.flatten.take n := by
  induction rs generalizing n with
  | nil => simp [cutElems]
  | cons r rs ih =>
    rw [cutElems, List.flatten_cons, List.take_append]
    split
    · next h => simp [h]
    · rw [List.flatten_cons, ih]

theorem length_skipElems_le (n : Nat) (rs : List (List α)) :
    (skipElems n rs).length ≤ rs.length := by
  induction rs generalizing n with
  | nil => exact Nat.le_refl 0
  | cons r rs ih =>
    rw [skipElems]
    split
    · exact (ih _).trans (Nat.le_succ _)
    · exact Nat.le_refl _

theorem length_cutElems_le (n : Nat) (rs : List (List α)) :
    (cutElems n rs).length ≤ rs.length := by
  induction rs generalizing n with
  | nil => exact Nat.le_refl 0
  | cons r rs ih =>
    rw [cutElems]
    split
    · exact Nat.zero_le _
    · exact Nat.succ_le_succ (ih _)

/-- Of regions of whole blocks, whole blocks are left. -/
theorem dvd_skipElems {d n : Nat} {rs : List (List α)} (hn : d ∣ n) (h : ∀ r ∈ rs, d ∣ r.length) :
    ∀ r ∈ skipElems n rs, d ∣ r.length := by
  induction rs generalizing n with
  | nil => exact h
  | cons r rs ih =>
    have hr := h r List.mem_cons_self
    have hrs : ∀ q ∈ rs, d ∣ q.length := fun q hq => h q (List.mem_cons_of_mem r hq)
    rw [skipElems]
    split
    · exact ih (Nat.dvd_sub hn hr) hrs
    · intro q hq
      obtain rfl | hq := List.mem_cons.1 hq
      · rw [List.length_drop]
        exact Nat.dvd_sub hr hn
      · exact hrs q hq

theorem skipElems_ne_nil {n : Nat} {rs : List (List α)} (h : ∀ r ∈ rs, r ≠ []) :
    ∀ r ∈ skipElems n rs, r ≠ [] := by
  induction rs generalizing n with
  | nil => exact h
  | cons r rs ih =>
    have hrs : ∀ q ∈ rs, q ≠ [] := fun q hq => h q (List.mem_cons_of_mem r hq)
    rw [skipElems]
    split
    · exact ih hrs
    · next hmore =>
      intro q hq
      obtain rfl | hq := List.mem_cons.1 hq
      · rwa [ne_eq, List.drop_eq_nil_iff]
      · exact hrs q hq

/-! ## Gathering -/

/-- The first `k` pieces of what is left after `skip` elements, cut at `left` elements;
also the regions that have not been looked at. -/
def gather : Nat → Nat → Nat → List (List α) → List (List α) × List (List α)
  | _, _, _, [] => ([], [])
  | k, skip, left, r :: rs =>
    if k = 0 ∨ left = 0 then ([], r :: rs)
    else if r.length ≤ skip then gather k (skip - r.length) left rs
    else
      let next := gather (k - 1) 0 (left - (r.drop skip).length) rs
      ((r.drop skip).take left :: next.1, next.2)

theorem skipElems_zero {rs : List (List α)} (h : ∀ r ∈ rs, r ≠ []) : skipElems 0 rs = rs := by
  cases rs with
  | nil => rfl
  | cons r rs =>
    have hr : r ≠ [] := h r List.mem_cons_self
    rw [skipElems, if_neg, List.drop_zero]
    simpa using hr

theorem cutElems_zero (rs : List (List α)) : cutElems 0 rs = [] := by
  cases rs with
  | nil => rfl
  | cons r rs => rw [cutElems, if_pos rfl]

/-- **The pieces** are what skipping and cutting leave, up to `k` of them. -/
theorem gather_fst {k skip left : Nat} {rs : List (List α)} (h : ∀ r ∈ rs, r ≠ []) :
    (gather k skip left rs).1 = (cutElems left (skipElems skip rs)).take k := by
  induction rs generalizing k skip left with
  | nil => simp [gather, skipElems, cutElems]
  | cons r rs ih =>
    have hrs : ∀ q ∈ rs, q ≠ [] := fun q hq => h q (List.mem_cons_of_mem r hq)
    rw [gather]
    split
    · next hstop =>
      rcases hstop with rfl | rfl
      · rw [List.take_zero]
      · rw [cutElems_zero, List.take_nil]
    · next hgo =>
      rw [not_or] at hgo
      rw [skipElems]
      split
      · exact ih hrs
      · obtain ⟨k, rfl⟩ := Nat.exists_eq_succ_of_ne_zero hgo.1
        rw [cutElems, if_neg hgo.2, List.take_succ_cons]
        simp only [Nat.succ_eq_add_one, Nat.add_sub_cancel]
        rw [ih hrs, skipElems_zero hrs]

/-- Where every region has been looked at, nothing of the list is missing. -/
theorem gather_flatten_of_snd {k skip left : Nat} {rs : List (List α)}
    (h : (gather k skip left rs).2 = []) :
    (gather k skip left rs).1.flatten = (rs.flatten.drop skip).take left := by
  induction rs generalizing k skip left with
  | nil => simp [gather]
  | cons r rs ih =>
    rw [gather] at h ⊢
    split at h
    · cases h
    · next hgo =>
      rw [if_neg hgo]
      split at h
      · next hskip =>
        rw [if_pos hskip, ih h, List.flatten_cons, List.drop_append,
          List.drop_eq_nil_of_le hskip, List.nil_append]
      · next hskip =>
        have hzero : skip - r.length = 0 := by omega
        rw [if_neg hskip]
        simp only [List.flatten_cons]
        rw [ih h, List.drop_append, hzero, List.take_append, List.drop_zero]

/-- Gathering ends with the list, with `k` pieces or with `left` elements. -/
theorem gather_stops {k skip left : Nat} {rs : List (List α)} (h : ∀ r ∈ rs, r ≠ []) :
    (gather k skip left rs).2 = [] ∨ (gather k skip left rs).1.length = k ∨
      (gather k skip left rs).1.flatten.length = left := by
  induction rs generalizing k skip left with
  | nil => exact .inl rfl
  | cons r rs ih =>
    have hrs : ∀ q ∈ rs, q ≠ [] := fun q hq => h q (List.mem_cons_of_mem r hq)
    rw [gather]
    split
    · next hstop =>
      rcases hstop with rfl | rfl
      · exact .inr (.inl rfl)
      · exact .inr (.inr rfl)
    · next hgo =>
      rw [not_or] at hgo
      split
      · exact ih hrs
      · generalize r.drop skip = q
        simp only [List.length_cons, List.flatten_cons, List.length_append, List.length_take]
        have hrest := @ih (k - 1) 0 (left - q.length) hrs
        rcases hrest with hnil | hlen | hlen
        · exact .inl hnil
        · right
          left
          omega
        · right
          right
          rw [hlen]
          omega

/-! ## Trimming -/

/-- Take `n` elements off the end of a list of pieces, the last piece first. -/
def trimElems : Nat → List (List α) → List (List α)
  | _, [] => []
  | n, r :: rs =>
    if n = 0 then r :: rs
    else if n < r.length then r.take (r.length - n) :: rs
    else trimElems (n - r.length) rs

theorem flatten_trimElems (n : Nat) (rs : List (List α)) :
    (trimElems n rs).reverse.flatten =
      rs.reverse.flatten.take (rs.reverse.flatten.length - n) := by
  induction rs generalizing n with
  | nil => simp [trimElems]
  | cons r rs ih =>
    rw [trimElems]
    split
    · next h => simp [h]
    · split
      · next h =>
        simp only [List.reverse_cons, List.flatten_append, List.flatten_cons, List.flatten_nil,
          List.append_nil, List.length_append]
        rw [List.take_append]
        have hfront : rs.reverse.flatten.length ≤ rs.reverse.flatten.length + r.length - n := by
          omega
        have hrest : rs.reverse.flatten.length + r.length - n - rs.reverse.flatten.length =
            r.length - n := by omega
        rw [List.take_of_length_le hfront, hrest]
      · next h =>
        simp only [List.reverse_cons, List.flatten_append, List.flatten_cons, List.flatten_nil,
          List.append_nil, List.length_append]
        rw [ih, List.take_append]
        have hfront : rs.reverse.flatten.length + r.length - n =
            rs.reverse.flatten.length - (n - r.length) := by omega
        have hrest : rs.reverse.flatten.length - (n - r.length) - rs.reverse.flatten.length = 0 := by
          omega
        rw [hfront, hrest, List.take_zero, List.append_nil]

/-! ## Storing -/

section Store

universe v

variable {β : Type v} [DecidableEq α]

/-- Store values into the places that a list names, until one of the two lists ends. -/
def scatter : (α → β) → List α → List β → α → β
  | m, a :: as, v :: vs => scatter (Function.update m a v) as vs
  | m, _, _ => m

@[simp] theorem scatter_nil_left (m : α → β) (vs : List β) : scatter m [] vs = m := by
  cases vs <;> rfl

@[simp] theorem scatter_nil_right (m : α → β) (as : List α) : scatter m as [] = m := by
  cases as <;> rfl

/-- Where one list of places follows another, so do the values. -/
theorem scatter_append (m : α → β) (as bs : List α) (vs : List β) :
    scatter m (as ++ bs) vs = scatter (scatter m as vs) bs (vs.drop as.length) := by
  induction as generalizing m vs with
  | nil => simp
  | cons a as ih =>
    cases vs with
    | nil => simp
    | cons v vs =>
      rw [List.cons_append, scatter, ih]
      simp [scatter]

/-- Neither list matters past the end of the other. -/
theorem scatter_take (m : α → β) (as : List α) (vs : List β) :
    scatter m (as.take vs.length) (vs.take as.length) = scatter m as vs := by
  induction as generalizing m vs with
  | nil => simp
  | cons a as ih =>
    cases vs with
    | nil => simp
    | cons v vs =>
      simp only [List.length_cons, List.take_succ_cons, scatter]
      exact ih _ vs

/-- Other places keep what they hold. -/
theorem scatter_of_notMem {m : α → β} {as : List α} {vs : List β} {a : α}
    (h : a ∉ as.take vs.length) : scatter m as vs a = m a := by
  induction as generalizing m vs with
  | nil => simp
  | cons b as ih =>
    cases vs with
    | nil => simp
    | cons v vs =>
      rw [List.length_cons, List.take_succ_cons, List.mem_cons, not_or] at h
      rw [scatter, ih h.2, Function.update_of_ne h.1]

/-- **Distinct places** hold what has been stored. -/
theorem map_scatter {m : α → β} {as : List α} {vs : List β} (h : as.Nodup) :
    (as.take vs.length).map (scatter m as vs) = vs.take as.length := by
  induction as generalizing m vs with
  | nil => simp
  | cons a as ih =>
    cases vs with
    | nil => simp
    | cons v vs =>
      obtain ⟨ha, has⟩ := List.nodup_cons.1 h
      have hfirst : scatter (Function.update m a v) as vs a = v := by
        rw [scatter_of_notMem fun hmem => ha (List.mem_of_mem_take hmem), Function.update_self]
      simp only [List.length_cons, List.take_succ_cons, List.map_cons, scatter, hfirst, ih has]

end Store

end DeviceModel
