import Mathlib.Data.List.Basic

/-!
# Fields of a buffer

A buffer is a list, and an extent is a part of it, given by where it starts and how long
it is. A store at an offset puts a list in place of an extent of the same length. What
the stores to a buffer have done is told by two things: what the extents written hold
now, and `SameBut`, which says that nothing else has changed.
-/

namespace DeviceModel

universe u

variable {α : Type u}

/-- Part of a buffer. -/
structure Extent where
  off : Nat
  len : Nat
  deriving DecidableEq, Repr

namespace Extent

/-- The place `i` is in the extent. -/
def Has (e : Extent) (i : Nat) : Prop := e.off ≤ i ∧ i < e.off + e.len

instance (e : Extent) : DecidablePred e.Has := fun i =>
  inferInstanceAs (Decidable (e.off ≤ i ∧ i < e.off + e.len))

/-- The extent lies in a buffer of `n` elements. -/
def Within (n : Nat) (e : Extent) : Prop := e.off + e.len ≤ n

instance (n : Nat) : DecidablePred (Within n) := fun e =>
  inferInstanceAs (Decidable (e.off + e.len ≤ n))

/-- One extent ends before the other begins. -/
def Clear (d e : Extent) : Prop := d.off + d.len ≤ e.off ∨ e.off + e.len ≤ d.off

instance : DecidableRel Clear := fun d e =>
  inferInstanceAs (Decidable (d.off + d.len ≤ e.off ∨ e.off + e.len ≤ d.off))

/-- What the extent holds. -/
def get (e : Extent) (xs : List α) : List α := (xs.drop e.off).take e.len

theorem Clear.symm {d e : Extent} (h : d.Clear e) : e.Clear d := Or.symm h

theorem Clear.not_has {d e : Extent} {i : Nat} (h : d.Clear e) (hi : e.Has i) : ¬ d.Has i := by
  obtain ⟨hle, hlt⟩ := hi
  rintro ⟨hle', hlt'⟩
  rcases h with h | h <;> omega

theorem length_get {e : Extent} {xs : List α} (h : e.Within xs.length) :
    (e.get xs).length = e.len := by
  rw [Within] at h
  rw [get, List.length_take, List.length_drop]
  omega

theorem take_get {off n : Nat} (k : Nat) (xs : List α) (h : k ≤ n) :
    (get ⟨off, n⟩ xs).take k = get ⟨off, k⟩ xs := by
  rw [get, get, List.take_take, Nat.min_eq_left h]

theorem getElem?_get (e : Extent) (xs : List α) (i : Nat) :
    (e.get xs)[i]? = if i < e.len then xs[e.off + i]? else none := by
  rw [get, List.getElem?_take]
  split
  · exact List.getElem?_drop
  · rfl

end Extent

/-- Put `ys` in the place of as many elements from `off` on. -/
def putAt (off : Nat) (ys xs : List α) : List α := xs.take off ++ ys ++ xs.drop (off + ys.length)

section Put

variable {off : Nat} {xs ys : List α}

theorem length_putAt (h : off + ys.length ≤ xs.length) : (putAt off ys xs).length = xs.length := by
  rw [putAt, List.length_append, List.length_append, List.length_take, List.length_drop]
  omega

theorem getElem?_putAt (h : off + ys.length ≤ xs.length) (i : Nat) :
    (putAt off ys xs)[i]? = if off ≤ i ∧ i < off + ys.length then ys[i - off]? else xs[i]? := by
  have htake : (xs.take off).length = off := List.length_take_of_le (by omega)
  have hlen : (xs.take off ++ ys).length = off + ys.length := by rw [List.length_append, htake]
  rw [putAt]
  split
  · next hin =>
    rw [List.getElem?_append_left (by omega), List.getElem?_append_right (by omega), htake]
  · next hout =>
    rcases Nat.lt_or_ge i off with hlt | hge
    · rw [List.getElem?_append_left (by omega), List.getElem?_append_left (by omega),
        List.getElem?_take_of_lt hlt]
    · rw [List.getElem?_append_right (by omega), hlen, List.getElem?_drop]
      congr 1
      omega

/-- A store can be read back. -/
theorem get_putAt (h : off + ys.length ≤ xs.length) :
    Extent.get ⟨off, ys.length⟩ (putAt off ys xs) = ys := by
  apply List.ext_getElem?
  intro i
  rw [Extent.getElem?_get, getElem?_putAt h]
  dsimp only
  split
  · next hi =>
    rw [if_pos ⟨Nat.le_add_right off i, by omega⟩]
    congr 1
    omega
  · next hi => rw [List.getElem?_eq_none (by omega)]

end Put

/-! ## What has not changed -/

/-- The buffer `ys` is `xs` except in some extents. -/
structure SameBut (es : List Extent) (xs ys : List α) : Prop where
  length : ys.length = xs.length
  same : ∀ i, (∀ e ∈ es, ¬ e.Has i) → ys[i]? = xs[i]?

namespace SameBut

variable {es es' : List Extent} {xs ys zs : List α}

theorem refl (es : List Extent) (xs : List α) : SameBut es xs xs := ⟨rfl, fun _ _ => rfl⟩

theorem mono (h : SameBut es xs ys) (hsub : ∀ e ∈ es, e ∈ es') : SameBut es' xs ys :=
  ⟨h.length, fun i hi => h.same i fun e he => hi e (hsub e he)⟩

/-- Changes one after another. -/
theorem trans (h : SameBut es xs ys) (h' : SameBut es ys zs) : SameBut es xs zs :=
  ⟨h'.length.trans h.length, fun i hi => (h'.same i hi).trans (h.same i hi)⟩

theorem putAt {off : Nat} (h : off + ys.length ≤ xs.length) :
    SameBut [⟨off, ys.length⟩] xs (putAt off ys xs) := by
  refine ⟨length_putAt h, fun i hi => ?_⟩
  rw [getElem?_putAt h]
  exact if_neg (hi _ (List.mem_singleton_self _))

/-- An extent is the two that it is made of. -/
theorem split {off m n : Nat} (h : SameBut [⟨off, m + n⟩] xs ys) :
    SameBut [⟨off, m⟩, ⟨off + m, n⟩] xs ys := by
  refine ⟨h.length, fun i hi => h.same i fun e he => ?_⟩
  rw [List.mem_singleton.1 he]
  rintro ⟨hle, hlt⟩
  simp only [List.mem_cons, List.not_mem_nil, or_false, forall_eq_or_imp, forall_eq] at hi
  rcases Nat.lt_or_ge i (off + m) with hfirst | hsecond
  · exact hi.1 ⟨hle, hfirst⟩
  · exact hi.2 ⟨hsecond, by dsimp only at hlt ⊢; omega⟩

/-- An extent that is clear of the changes holds what it held. -/
theorem get_eq {e : Extent} (h : SameBut es xs ys) (hclear : ∀ d ∈ es, d.Clear e) :
    e.get ys = e.get xs := by
  apply List.ext_getElem?
  intro i
  rw [Extent.getElem?_get, Extent.getElem?_get]
  split
  · next hi =>
    exact h.same _ fun d hd => (hclear d hd).not_has ⟨Nat.le_add_right _ _, by omega⟩
  · rfl

theorem get_eq_of_clear {d e : Extent} (h : SameBut [d] xs ys) (hclear : d.Clear e) :
    e.get ys = e.get xs :=
  h.get_eq fun _ hd => (List.mem_singleton.1 hd) ▸ hclear

end SameBut

end DeviceModel
