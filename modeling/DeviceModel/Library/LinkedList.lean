import Mathlib.Order.Lattice
import Mathlib.Data.List.Basic

/-!
# Linked lists

The nodes of a list lie in a memory, each at an address and each with the address of the
next. `Linked addr next p xs q` says that following the addresses from `p` passes the nodes
`xs` and arrives at `q`. The same relation tells how parts of a memory lie one after
another: the address of a part is where it begins, and `next` is where it ends.

* `linked_append`, `linked_concat` — a list is followed to a node and on from there;
* `Linked.follow_eq` — what a walk along the addresses visits;
* `Linked.pairwise`, `Linked.exists_mem` — parts that lie one after another are apart, and
  leave nothing out.
-/

namespace DeviceModel

universe u v

variable {ν : Type u} {α : Type v}

/-- Following the addresses from `p` passes the nodes and arrives at `q`. -/
def Linked (addr next : ν → α) : α → List ν → α → Prop
  | p, [], q => p = q
  | p, x :: xs, q => p = addr x ∧ Linked addr next (next x) xs q

/-- The addresses that a walk from `p` visits, up to `null` and at most `n` of them. -/
def follow [DecidableEq α] (null : α) (next : α → α) : Nat → α → List α
  | 0, _ => []
  | n + 1, p => if p = null then [] else p :: follow null next n (next p)

section Linked

variable {addr next next' : ν → α} {p q : α} {x : ν} {xs ys : List ν}

theorem linked_append :
    Linked addr next p (xs ++ ys) q ↔ ∃ m, Linked addr next p xs m ∧ Linked addr next m ys q := by
  induction xs generalizing p with
  | nil => simp [Linked]
  | cons x xs ih => simp [Linked, ih, and_assoc]

/-- The last node of a list holds the address the list arrives at. -/
theorem linked_concat :
    Linked addr next p (xs ++ [x]) q ↔ Linked addr next p xs (addr x) ∧ next x = q := by
  rw [linked_append]
  constructor
  · rintro ⟨m, hxs, rfl, hq⟩
    exact ⟨hxs, hq⟩
  · rintro ⟨hxs, hq⟩
    exact ⟨addr x, hxs, rfl, hq⟩

/-- Only the addresses in the nodes matter. -/
theorem Linked.congr (h : Linked addr next p xs q) (heq : ∀ x ∈ xs, next' x = next x) :
    Linked addr next' p xs q := by
  induction xs generalizing p with
  | nil => exact h
  | cons x xs ih =>
    obtain ⟨hp, hxs⟩ := h
    refine ⟨hp, ?_⟩
    rw [heq x (by simp)]
    exact ih hxs fun y hy => heq y (List.mem_cons_of_mem _ hy)

/-- A walk visits the nodes, and stops at the null address behind them. -/
theorem Linked.follow_eq [DecidableEq α] {null : α} {nextAddr : α → α}
    (h : Linked addr next p xs null) (hnull : ∀ x ∈ xs, addr x ≠ null)
    (hnext : ∀ x ∈ xs, nextAddr (addr x) = next x) {n : Nat} (hn : xs.length ≤ n) :
    follow null nextAddr n p = xs.map addr := by
  induction xs generalizing p n with
  | nil =>
    obtain rfl : p = null := h
    cases n <;> simp [follow]
  | cons x xs ih =>
    obtain ⟨rfl, hxs⟩ := h
    obtain ⟨n, rfl⟩ : ∃ m, n = m + 1 := ⟨n - 1, by simp at hn; omega⟩
    have htail : follow null nextAddr n (next x) = xs.map addr := by
      apply ih hxs
      · intro y hy
        exact hnull y (List.mem_cons_of_mem _ hy)
      · intro y hy
        exact hnext y (List.mem_cons_of_mem _ hy)
      · simpa using hn
    simp [follow, hnull x, hnext x, htail]

end Linked

/-! ## Parts one after another -/

section Order

variable {addr next : ν → α} {p q : α} {xs : List ν}

theorem Linked.le [Preorder α] (h : Linked addr next p xs q) (hle : ∀ x ∈ xs, addr x ≤ next x) :
    p ≤ q := by
  induction xs generalizing p with
  | nil => exact le_of_eq h
  | cons x xs ih =>
    obtain ⟨rfl, hxs⟩ := h
    have hq : next x ≤ q := ih hxs fun y hy => hle y (List.mem_cons_of_mem _ hy)
    exact (hle x (by simp)).trans hq

/-- Every part lies between the two ends. -/
theorem Linked.between [Preorder α] (h : Linked addr next p xs q)
    (hle : ∀ x ∈ xs, addr x ≤ next x) : ∀ x ∈ xs, p ≤ addr x ∧ next x ≤ q := by
  induction xs generalizing p with
  | nil => simp
  | cons x xs ih =>
    obtain ⟨rfl, hxs⟩ := h
    have hle' : ∀ y ∈ xs, addr y ≤ next y := fun y hy => hle y (List.mem_cons_of_mem _ hy)
    intro y hy
    rcases List.mem_cons.1 hy with rfl | hy
    · exact ⟨le_rfl, hxs.le hle'⟩
    · obtain ⟨hlo, hhi⟩ := ih hxs hle' y hy
      exact ⟨(hle x (by simp)).trans hlo, hhi⟩

/-- Each part ends before a later one begins. -/
theorem Linked.pairwise [Preorder α] (h : Linked addr next p xs q)
    (hle : ∀ x ∈ xs, addr x ≤ next x) : xs.Pairwise fun x y => next x ≤ addr y := by
  induction xs generalizing p with
  | nil => exact .nil
  | cons x xs ih =>
    obtain ⟨-, hxs⟩ := h
    have hle' : ∀ y ∈ xs, addr y ≤ next y := fun y hy => hle y (List.mem_cons_of_mem _ hy)
    refine .cons ?_ (ih hxs hle')
    intro y hy
    exact (hxs.between hle' y hy).1

/-- Two parts are the same, or one ends before the other begins. -/
theorem Linked.apart [Preorder α] (h : Linked addr next p xs q)
    (hle : ∀ x ∈ xs, addr x ≤ next x) {x y : ν} (hx : x ∈ xs) (hy : y ∈ xs) :
    x = y ∨ next x ≤ addr y ∨ next y ≤ addr x := by
  have hpairwise := h.pairwise hle
  refine List.Pairwise.forall_of_forall_of_flip
    (R := fun x y => x = y ∨ next x ≤ addr y ∨ next y ≤ addr x) ?_ ?_ ?_ hx hy
  · intro x _
    exact .inl rfl
  · exact hpairwise.imp fun hle => .inr (.inl hle)
  · exact hpairwise.imp fun hle => .inr (.inr hle)

/-- What lies between the two ends lies in one of the parts. -/
theorem Linked.exists_mem [LinearOrder α] (h : Linked addr next p xs q) {i : α} (hp : p ≤ i)
    (hq : i < q) : ∃ x ∈ xs, addr x ≤ i ∧ i < next x := by
  induction xs generalizing p with
  | nil =>
    obtain rfl : p = q := h
    exact absurd hq hp.not_gt
  | cons x xs ih =>
    obtain ⟨rfl, hxs⟩ := h
    rcases lt_or_ge i (next x) with hlt | hge
    · exact ⟨x, by simp, hp, hlt⟩
    · obtain ⟨y, hy, hin⟩ := ih hxs hge
      exact ⟨y, List.mem_cons_of_mem _ hy, hin⟩

end Order

end DeviceModel
