import DeviceModel.Library.Ranges

/-!
# Ordered trees

What a program may rely on in a search tree it did not write. The elements are
ordered by a three-way comparison of their keys, and the comparison need not be
an order on all keys: the laws speak of trees whose elements compare unequal in
pairs, `OrderedTree.Sorted`. Under them a tree is a set of elements, searched and
changed through the comparison.

`OrderedTree.list` is the unsorted list, which satisfies every law.
-/

namespace DeviceModel

/-- An ordered tree of elements `ρ`, searched by keys `κ`. -/
structure OrderedTree (ρ κ : Type) (key : ρ → κ) (cmp : κ → κ → Ordering) where
  Tree : Type
  /-- the elements of a tree -/
  elems : Tree → Set ρ
  init : Tree
  find : Tree → κ → Option ρ
  /-- the new tree, or the tree as it was and an element that compares equal -/
  insert : Tree → ρ → Tree × Option ρ
  remove : Tree → ρ → Tree
  elems_init : elems init = ∅
  find_some : ∀ {t k r}, (elems t).Pairwise (fun a b => cmp (key a) (key b) ≠ .eq) →
    find t k = some r → r ∈ elems t ∧ cmp k (key r) = .eq
  find_none : ∀ {t k}, (elems t).Pairwise (fun a b => cmp (key a) (key b) ≠ .eq) →
    find t k = none → ∀ r ∈ elems t, cmp k (key r) ≠ .eq
  insert_none : ∀ {t t' r}, (elems t).Pairwise (fun a b => cmp (key a) (key b) ≠ .eq) →
    insert t r = (t', none) →
      (∀ a ∈ elems t, cmp (key r) (key a) ≠ .eq) ∧ elems t' = Insert.insert r (elems t)
  insert_some : ∀ {t t' r a}, (elems t).Pairwise (fun a b => cmp (key a) (key b) ≠ .eq) →
    insert t r = (t', some a) → t' = t ∧ a ∈ elems t ∧ cmp (key r) (key a) = .eq
  elems_remove : ∀ {t r}, (elems t).Pairwise (fun a b => cmp (key a) (key b) ≠ .eq) →
    r ∈ elems t → elems (remove t r) = elems t \ {r}

namespace OrderedTree

variable {ρ κ : Type} {key : ρ → κ} {cmp : κ → κ → Ordering} (T : OrderedTree ρ κ key cmp)

/-- The elements compare unequal in pairs. -/
def Sorted (t : T.Tree) : Prop := (T.elems t).Pairwise fun a b => cmp (key a) (key b) ≠ .eq

variable {T}

theorem sorted_init : T.Sorted T.init := by
  rw [Sorted, T.elems_init]
  exact Set.pairwise_empty _

/-- Removing keeps a tree sorted. -/
theorem Sorted.remove {t : T.Tree} {r : ρ} (h : T.Sorted t) (hr : r ∈ T.elems t) :
    T.Sorted (T.remove t r) := by
  rw [Sorted, T.elems_remove h hr]
  exact Set.Pairwise.mono Set.sdiff_subset h

/-- Inserting keeps a tree sorted, where the comparison is symmetric in equality. -/
theorem Sorted.insert {t : T.Tree} {r : ρ} (h : T.Sorted t)
    (hcomm : ∀ a b, cmp a b = .eq → cmp b a = .eq) : T.Sorted (T.insert t r).1 := by
  cases hins : T.insert t r with
  | mk t' res =>
    cases res with
    | some a =>
      obtain ⟨rfl, -, -⟩ := T.insert_some h hins
      exact h
    | none =>
      obtain ⟨hne, helems⟩ := T.insert_none h hins
      rw [Sorted, helems]
      intro a ha b hb hab
      rcases ha with rfl | ha
      · rcases hb with rfl | hb
        · exact absurd rfl hab
        · exact hne b hb
      · rcases hb with rfl | hb
        · intro heq
          exact hne a ha (hcomm _ _ heq)
        · exact h ha hb hab

/-- The list as a tree: search from the front, insert in front. -/
def list [DecidableEq ρ] : OrderedTree ρ κ key cmp where
  Tree := List ρ
  elems t := { r | r ∈ t }
  init := []
  find t k := t.find? fun r => cmp k (key r) == .eq
  insert t r := match t.find? fun a => cmp (key r) (key a) == .eq with
    | some a => (t, some a)
    | none => (r :: t, none)
  remove t r := t.filter fun a => a ≠ r
  elems_init := by simp
  find_some := by
    intro t k r _ hfind
    exact ⟨List.mem_of_find?_eq_some hfind, by simpa using List.find?_some hfind⟩
  find_none := by
    intro t k _ hfind r hr
    simpa using List.find?_eq_none.1 hfind r hr
  insert_none := by
    intro t t' r _ hins
    cases hfind : t.find? fun a => cmp (key r) (key a) == .eq with
    | some a => simp [hfind] at hins
    | none =>
      simp only [hfind, Prod.mk.injEq, and_true] at hins
      subst hins
      refine ⟨fun a ha => by simpa using List.find?_eq_none.1 hfind a ha, ?_⟩
      ext a
      simp
  insert_some := by
    intro t t' r a _ hins
    cases hfind : t.find? fun b => cmp (key r) (key b) == .eq with
    | none => simp [hfind] at hins
    | some b =>
      simp only [hfind, Prod.mk.injEq, Option.some.injEq] at hins
      obtain ⟨rfl, rfl⟩ := hins
      exact ⟨rfl, List.mem_of_find?_eq_some hfind, by simpa using List.find?_some hfind⟩
  elems_remove := by
    intro t r _ _
    ext a
    simp

end OrderedTree

end DeviceModel
