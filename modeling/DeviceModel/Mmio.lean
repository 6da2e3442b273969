import DeviceModel.Library.OrderedTree
import DeviceModel.Library.Outcome
import DeviceModel.Library.Runs
import DeviceModel.Machine

/-!
# The MMIO registry

`bhyve/mem.c` keeps the address ranges that emulated devices decode in a red-black
tree, ordered by a comparison that takes overlap for equality, and remembers the
range of the last access in `mmio_hint`. The tree macros are `sys/tree.h`, which is
not in the repository: they are the parameter `T`, a tree that is correct as long
as its ranges lie apart.

* the model: `MemRange`, `Mmio`, `registerMem`, `unregisterMem`, `accessMemory`;
* `Mmio.Sound` — the ranges lie apart and the hint is one of them;
* `accessMemoryPlain` — the lookup without the hint.

`VM_MAXCPU` is 1, so there is one hint. The rwlock calls of the pthread shim do
nothing and return 0, as their assertions ask.
-/

namespace DeviceModel

/-- The error codes of `mem.c`; 0 is `none`. -/
inductive MemErrno : Type where
  | enoent
  | esrch
  | enomem
  | eexist
  deriving DecidableEq, Repr

/-- `MEM_F_RW`. -/
def memFRW : U32 := 0x3#32
/-- `MEM_F_IMMUTABLE`: the range cannot be unregistered. -/
def memFImmutable : U32 := 0x4#32

/-- `struct mem_range`. The name is compared by address, so it may be of any type;
the handler stands for the function together with its two arguments. -/
structure MemRange (ν η : Type) where
  name : ν
  flags : U32
  handler : η
  base : U64
  size : U64
  deriving DecidableEq

/-- The two fields of `struct mmio_rb_range` that the comparison reads. -/
structure MmioBounds where
  mrBase : U64
  mrEnd : U64
  deriving DecidableEq

/-- `struct mmio_rb_range`, with the address `malloc` gave it. -/
structure MmioRbRange (ν η : Type) extends MmioBounds where
  ptr : Nat
  mrParam : MemRange ν η
  deriving DecidableEq

/-- `mmio_rb_range_compare`. -/
def mmioRbRangeCompare (a b : MmioBounds) : Ordering :=
  if a.mrEnd < b.mrBase then .lt
  else if a.mrBase > b.mrEnd then .gt
  else .eq

/-- The trees that `RB_GENERATE` makes for the comparison. -/
abbrev MmioRbTree (ν η : Type) : Type 1 :=
  OrderedTree (MmioRbRange ν η) MmioBounds MmioRbRange.toMmioBounds mmioRbRangeCompare

/-- The static variables of `mem.c`. -/
structure Mmio {ν η : Type} (T : MmioRbTree ν η) where
  root : T.Tree
  fallback : T.Tree
  hint : Option (MmioRbRange ν η)

section Registry

variable {ν η β : Type} {T : MmioRbTree ν η}

/-- `mmio_rb_lookup`. -/
def mmioRbLookup (rbt : T.Tree) (addr : U64) : Option (MmioRbRange ν η) :=
  T.find rbt { mrBase := addr, mrEnd := addr }

/-- `mmio_rb_add`. -/
def mmioRbAdd (rbt : T.Tree) (new : MmioRbRange ν η) : T.Tree × Option MemErrno :=
  match T.insert rbt new with
  | (rbt', some _) => (rbt', some .eexist)
  | (rbt', none) => (rbt', none)

/-- The range of the hint, where it contains the address. -/
def Mmio.cached (m : Mmio T) (paddr : U64) : Option (MmioRbRange ν η) :=
  match m.hint with
  | some entry => if entry.mrBase ≤ paddr ∧ paddr ≤ entry.mrEnd then some entry else none
  | none => none

/-- `access_memory`: what `cb` returns for the range it is called with, or an error. -/
def accessMemory (m : Mmio T) (paddr : U64) (cb : MemRange ν η → β) : Mmio T × Except MemErrno β :=
  match m.cached paddr with
  | some entry => (m, .ok (cb entry.mrParam))
  | none =>
    match mmioRbLookup m.root paddr with
    -- update the cache
    | some entry => ({ m with hint := some entry }, .ok (cb entry.mrParam))
    | none =>
      match mmioRbLookup m.fallback paddr with
      | some entry => (m, .ok (cb entry.mrParam))
      | none => (m, .error .esrch)

/-- `register_mem_int`, where `mrp` is what `malloc` returns. -/
def registerMemInt (mrp : Option Nat) (rbt : T.Tree) (memp : MemRange ν η) :
    T.Tree × Option MemErrno :=
  match mrp with
  | none => (rbt, some .enomem)
  | some ptr =>
    match mmioRbLookup rbt memp.base with
    -- the base lies in a range that is there already: nothing is added
    | some _ => (rbt, none)
    | none =>
      mmioRbAdd rbt
        { ptr := ptr, mrParam := memp, mrBase := memp.base, mrEnd := memp.base + memp.size - 1 }

/-- `register_mem`. -/
def registerMem (mrp : Option Nat) (m : Mmio T) (memp : MemRange ν η) :
    Mmio T × Option MemErrno :=
  let r := registerMemInt mrp m.root memp
  ({ m with root := r.1 }, r.2)

/-- Drop the hint if it points to `entry`. -/
def Mmio.flushHint (m : Mmio T) (entry : MmioRbRange ν η) : Mmio T :=
  match m.hint with
  | some hint => if hint.ptr = entry.ptr then { m with hint := none } else m
  | none => m

/-- `unregister_mem`. -/
def unregisterMem [DecidableEq ν] (m : Mmio T) (memp : MemRange ν η) :
    Except Stop (Mmio T × Option MemErrno) :=
  match mmioRbLookup m.root memp.base with
  | none => .ok (m, some .enoent)
  | some entry => do
    let mr := entry.mrParam
    assert "mr->name == memp->name" (mr.name == memp.name)
    assert "mr->base == memp->base && mr->size == memp->size"
      (mr.base == memp.base && mr.size == memp.size)
    assert "(mr->flags & MEM_F_IMMUTABLE) == 0" (mr.flags &&& memFImmutable == 0)
    .ok (({ m with root := T.remove m.root entry } : Mmio T).flushHint entry, none)

/-- `init_mem`. -/
def initMem (T : MmioRbTree ν η) : Mmio T where
  root := T.init
  fallback := T.init
  hint := none

/-- The lookup of `access_memory` without the hint. -/
def accessMemoryPlain (m : Mmio T) (paddr : U64) (cb : MemRange ν η → β) : Except MemErrno β :=
  match mmioRbLookup m.root paddr with
  | some entry => .ok (cb entry.mrParam)
  | none =>
    match mmioRbLookup m.fallback paddr with
    | some entry => .ok (cb entry.mrParam)
    | none => .error .esrch

end Registry

/-! ## The ranges as sets of addresses -/

namespace MmioBounds

/-- The address lies in the range. -/
def Contains (r : MmioBounds) (paddr : U64) : Prop := r.mrBase ≤ paddr ∧ paddr ≤ r.mrEnd

instance (r : MmioBounds) (paddr : U64) : Decidable (r.Contains paddr) :=
  inferInstanceAs (Decidable (_ ∧ _))

end MmioBounds

theorem contains_iff_covers {r : MmioBounds} {paddr : U64} :
    r.Contains paddr ↔ Covers (fun r : MmioBounds => r.mrBase.toNat) (fun r => r.mrEnd.toNat) r
      paddr.toNat :=
  Iff.rfl

/-- The comparison of `mem.c` is the comparison by position. -/
theorem mmioRbRangeCompare_eq (a b : MmioBounds) :
    mmioRbRangeCompare a b =
      rangeCompare (fun r : MmioBounds => r.mrBase.toNat) (fun r => r.mrEnd.toNat) a b := rfl

theorem mmioRbRangeCompare_comm {a b : MmioBounds} (h : mmioRbRangeCompare a b = .eq) :
    mmioRbRangeCompare b a = .eq := by
  rw [mmioRbRangeCompare_eq] at h ⊢
  exact rangeCompare_eq_comm.1 h

/-- Two ranges that both contain an address compare equal. -/
theorem MmioBounds.Contains.compare_eq {a b : MmioBounds} {paddr : U64} (ha : a.Contains paddr)
    (hb : b.Contains paddr) : mmioRbRangeCompare a b = .eq := by
  rw [mmioRbRangeCompare_eq]
  exact (contains_iff_covers.1 ha).compare_eq (contains_iff_covers.1 hb)

/-- Two ranges that are not empty and compare equal both contain some address. -/
theorem MmioBounds.exists_contains {a b : MmioBounds} (ha : a.mrBase ≤ a.mrEnd)
    (hb : b.mrBase ≤ b.mrEnd) (h : mmioRbRangeCompare a b = .eq) :
    ∃ paddr, a.Contains paddr ∧ b.Contains paddr := by
  rw [mmioRbRangeCompare_eq] at h
  obtain ⟨x, hax, hbx⟩ := exists_covers_of_compare_eq ha hb h
  have hx : (BitVec.ofNat 64 x).toNat = x := by
    rw [BitVec.toNat_ofNat]
    exact Nat.mod_eq_of_lt (hax.2.trans_lt a.mrEnd.isLt)
  refine ⟨BitVec.ofNat 64 x, ?_, ?_⟩
  · rw [contains_iff_covers, hx]
    exact hax
  · rw [contains_iff_covers, hx]
    exact hbx

/-- The key of a lookup compares equal to the ranges that contain the address. -/
theorem mmioRbRangeCompare_point {r : MmioBounds} {paddr : U64} :
    mmioRbRangeCompare { mrBase := paddr, mrEnd := paddr } r = .eq ↔ r.Contains paddr := by
  rw [mmioRbRangeCompare_eq, contains_iff_covers]
  exact compare_point rfl rfl

namespace MemRange

variable {ν η : Type}

/-- The address is one of the `size` addresses from `base` on. -/
def Contains (mr : MemRange ν η) (paddr : U64) : Prop :=
  mr.base.toNat ≤ paddr.toNat ∧ paddr.toNat < mr.base.toNat + mr.size.toNat

instance (mr : MemRange ν η) (paddr : U64) : Decidable (mr.Contains paddr) :=
  inferInstanceAs (Decidable (_ ∧ _))

/-- The range is not empty and does not wrap. -/
def Proper (mr : MemRange ν η) : Prop := 1 ≤ mr.size.toNat ∧ mr.base.toNat + mr.size.toNat ≤ 2 ^ 64

instance (mr : MemRange ν η) : Decidable mr.Proper := inferInstanceAs (Decidable (_ ∧ _))

/-- The addresses of a range. -/
def addresses (mr : MemRange ν η) : Set U64 := { paddr | mr.Contains paddr }

/-- The last address that `register_mem_int` computes is the last one of a proper range. -/
theorem Proper.end_toNat {mr : MemRange ν η} (h : mr.Proper) :
    (mr.base + mr.size - 1).toNat + 1 = mr.base.toNat + mr.size.toNat := by
  obtain ⟨hsize, hend⟩ := h
  have hone : (1 : U64).toNat = 1 := rfl
  have hlt := mr.base.isLt
  rw [BitVec.toNat_sub, BitVec.toNat_add, hone]
  omega

theorem Proper.contains_base {mr : MemRange ν η} (h : mr.Proper) : mr.Contains mr.base :=
  ⟨le_refl _, Nat.lt_add_of_pos_right h.1⟩

end MemRange

/-- An entry of a tree decodes the addresses of the range it was made for. -/
def MmioRbRange.Faithful {ν η : Type} (e : MmioRbRange ν η) : Prop :=
  e.mrBase = e.mrParam.base ∧ e.mrEnd.toNat + 1 = e.mrParam.base.toNat + e.mrParam.size.toNat ∧
    1 ≤ e.mrParam.size.toNat

theorem MmioRbRange.Faithful.contains_iff {ν η : Type} {e : MmioRbRange ν η} (h : e.Faithful)
    (paddr : U64) : e.Contains paddr ↔ e.mrParam.Contains paddr := by
  obtain ⟨hbase, hend, -⟩ := h
  rw [MmioBounds.Contains, MemRange.Contains, hbase, BitVec.le_def, BitVec.le_def]
  omega

theorem MmioRbRange.Faithful.nonempty {ν η : Type} {e : MmioRbRange ν η} (h : e.Faithful) :
    e.mrBase ≤ e.mrEnd := by
  obtain ⟨hbase, hend, hsize⟩ := h
  rw [BitVec.le_def, hbase]
  omega

section Lookup

variable {ν η β : Type} {T : MmioRbTree ν η}

/-- A lookup finds the range that contains the address. -/
theorem mmioRbLookup_eq_some {t : T.Tree} (h : T.Sorted t) {paddr : U64} {e : MmioRbRange ν η} :
    mmioRbLookup t paddr = some e ↔ e ∈ T.elems t ∧ e.Contains paddr := by
  constructor
  · intro hfind
    obtain ⟨hmem, hcmp⟩ := T.find_some h hfind
    exact ⟨hmem, mmioRbRangeCompare_point.1 hcmp⟩
  · rintro ⟨hmem, hcont⟩
    cases hfind : mmioRbLookup t paddr with
    | none => exact absurd (mmioRbRangeCompare_point.2 hcont) (T.find_none h hfind e hmem)
    | some e' =>
      obtain ⟨hmem', hcmp'⟩ := T.find_some h hfind
      by_contra hne
      have hne' : e' ≠ e := fun heq => hne (congrArg some heq)
      exact h hmem' hmem hne' ((mmioRbRangeCompare_point.1 hcmp').compare_eq hcont)

/-- It finds nothing where no range does. -/
theorem mmioRbLookup_eq_none {t : T.Tree} (h : T.Sorted t) {paddr : U64} :
    mmioRbLookup t paddr = none ↔ ∀ e ∈ T.elems t, ¬ e.Contains paddr := by
  constructor
  · intro hfind e hmem hcont
    exact T.find_none h hfind e hmem (mmioRbRangeCompare_point.2 hcont)
  · intro hall
    cases hfind : mmioRbLookup t paddr with
    | none => rfl
    | some e =>
      obtain ⟨hmem, hcont⟩ := (mmioRbLookup_eq_some h).1 hfind
      exact absurd hcont (hall e hmem)

/-- What `mem.c` keeps: each tree holds ranges that lie apart, and the hint is a
range of the first tree. -/
structure Mmio.Sound (m : Mmio T) : Prop where
  root : T.Sorted m.root
  fallback : T.Sorted m.fallback
  faithful : ∀ e ∈ T.elems m.root, e.Faithful
  hint : ∀ e, m.hint = some e → e ∈ T.elems m.root

namespace Mmio.Sound

variable {m : Mmio T}

theorem init : (initMem T).Sound where
  root := OrderedTree.sorted_init
  fallback := OrderedTree.sorted_init
  faithful := by
    intro e he
    rw [initMem, T.elems_init] at he
    exact absurd he (Set.notMem_empty e)
  hint := by
    intro e he
    cases he

/-- The ranges of the registry have no address in common. -/
theorem pairwiseDisjoint (h : m.Sound) :
    (T.elems m.root).PairwiseDisjoint fun e => e.mrParam.addresses := by
  intro a ha b hb hne
  refine Set.disjoint_left.2 fun paddr hap hbp => ?_
  have hac := ((h.faithful a ha).contains_iff paddr).2 hap
  have hbc := ((h.faithful b hb).contains_iff paddr).2 hbp
  exact h.root ha hb hne (hac.compare_eq hbc)

/-- At most one range of the registry contains an address. -/
theorem unique (h : m.Sound) {a b : MmioRbRange ν η} {paddr : U64} (ha : a ∈ T.elems m.root)
    (hb : b ∈ T.elems m.root) (hap : a.mrParam.Contains paddr) (hbp : b.mrParam.Contains paddr) :
    a = b := by
  have hapart : Apart (fun e : MmioRbRange ν η => e.mrBase.toNat) (fun e => e.mrEnd.toNat)
      (T.elems m.root) := h.root
  have hac := ((h.faithful a ha).contains_iff paddr).2 hap
  have hbc := ((h.faithful b hb).contains_iff paddr).2 hbp
  exact hapart.unique ha hb (contains_iff_covers.1 hac) (contains_iff_covers.1 hbc)

theorem lookup_eq_some (h : m.Sound) {paddr : U64} {e : MmioRbRange ν η} :
    mmioRbLookup m.root paddr = some e ↔ e ∈ T.elems m.root ∧ e.mrParam.Contains paddr := by
  rw [mmioRbLookup_eq_some h.root]
  exact and_congr_right fun he => (h.faithful e he).contains_iff paddr

theorem lookup_eq_none (h : m.Sound) {paddr : U64} :
    mmioRbLookup m.root paddr = none ↔ ∀ e ∈ T.elems m.root, ¬ e.mrParam.Contains paddr := by
  rw [mmioRbLookup_eq_none h.root]
  exact forall₂_congr fun e he => not_congr ((h.faithful e he).contains_iff paddr)

/-- The hint is used only where the lookup would find the same range. -/
theorem cached_eq_some (h : m.Sound) {paddr : U64} {e : MmioRbRange ν η}
    (hc : m.cached paddr = some e) : mmioRbLookup m.root paddr = some e := by
  rw [Mmio.cached] at hc
  cases hh : m.hint with
  | none => simp [hh] at hc
  | some e' =>
    simp only [hh, Option.ite_none_right_eq_some, Option.some.injEq] at hc
    obtain ⟨hcont, rfl⟩ := hc
    exact (mmioRbLookup_eq_some h.root).2 ⟨h.hint _ hh, hcont⟩

/-- **The hint is only a shortcut.** An access returns what the plain lookup returns. -/
theorem accessMemory_snd (h : m.Sound) (paddr : U64) (cb : MemRange ν η → β) :
    (accessMemory m paddr cb).2 = accessMemoryPlain m paddr cb := by
  rw [accessMemory, accessMemoryPlain]
  cases hc : m.cached paddr with
  | some e => rw [h.cached_eq_some hc]
  | none =>
    cases mmioRbLookup m.root paddr with
    | some e => rfl
    | none => cases mmioRbLookup m.fallback paddr <;> rfl

/-- An access to a registered range. -/
theorem accessMemory_hit (h : m.Sound) {e : MmioRbRange ν η} (he : e ∈ T.elems m.root)
    {paddr : U64} (hc : e.mrParam.Contains paddr) (cb : MemRange ν η → β) :
    (accessMemory m paddr cb).2 = .ok (cb e.mrParam) := by
  rw [h.accessMemory_snd, accessMemoryPlain, h.lookup_eq_some.2 ⟨he, hc⟩]

/-- An access to no registered range, where nothing is registered as a fallback. -/
theorem accessMemory_miss (h : m.Sound) (hfall : m.fallback = T.init) {paddr : U64}
    (hnone : ∀ e ∈ T.elems m.root, ¬ e.mrParam.Contains paddr) (cb : MemRange ν η → β) :
    accessMemory m paddr cb = (m, .error .esrch) := by
  have hroot := h.lookup_eq_none.2 hnone
  have hfallback : mmioRbLookup m.fallback paddr = none := by
    rw [mmioRbLookup_eq_none h.fallback, hfall, T.elems_init]
    intro e he
    exact absurd he (Set.notMem_empty e)
  rw [accessMemory]
  cases hc : m.cached paddr with
  | some e => exact nomatch hroot.symm.trans (h.cached_eq_some hc)
  | none => rw [hroot, hfallback]

/-- An access changes the hint only, and keeps what `mem.c` relies on. -/
theorem access (h : m.Sound) (paddr : U64) (cb : MemRange ν η → β) :
    (accessMemory m paddr cb).1.Sound ∧ (accessMemory m paddr cb).1.root = m.root ∧
      (accessMemory m paddr cb).1.fallback = m.fallback := by
  rw [accessMemory]
  cases m.cached paddr with
  | some e => exact ⟨h, rfl, rfl⟩
  | none =>
    cases hl : mmioRbLookup m.root paddr with
    | some e =>
      refine ⟨{ h with hint := ?_ }, rfl, rfl⟩
      intro e' he'
      obtain rfl := Option.some.inj he'
      exact ((mmioRbLookup_eq_some h.root).1 hl).1
    | none =>
      cases mmioRbLookup m.fallback paddr with
      | some e => exact ⟨h, rfl, rfl⟩
      | none => exact ⟨h, rfl, rfl⟩

/-- **`register_mem`, case by case.** Memory may run out; a base inside a registered
range is passed over in silence; a range that overlaps one further up is refused;
and otherwise the range is added. -/
theorem registerMem_cases (h : m.Sound) (mrp : Option Nat) {memp : MemRange ν η}
    (hproper : memp.Proper) :
    (mrp = none ∧ registerMem mrp m memp = (m, some .enomem)) ∨
    (∃ e ∈ T.elems m.root, e.mrParam.Contains memp.base ∧ registerMem mrp m memp = (m, none)) ∨
    (∃ e ∈ T.elems m.root, ¬ e.mrParam.Contains memp.base ∧
      ¬ Disjoint e.mrParam.addresses memp.addresses ∧
      registerMem mrp m memp = (m, some .eexist)) ∨
    ∃ e : MmioRbRange ν η, e.mrParam = memp ∧ e.Faithful ∧
      (∀ a ∈ T.elems m.root, Disjoint a.mrParam.addresses memp.addresses) ∧
      (registerMem mrp m memp).2 = none ∧
      (registerMem mrp m memp).1.hint = m.hint ∧
      (registerMem mrp m memp).1.fallback = m.fallback ∧
      T.Sorted (registerMem mrp m memp).1.root ∧
      T.elems (registerMem mrp m memp).1.root = insert e (T.elems m.root) := by
  cases mrp with
  | none => exact .inl ⟨rfl, rfl⟩
  | some ptr =>
    right
    rw [registerMem, registerMemInt]
    cases hl : mmioRbLookup m.root memp.base with
    | some e =>
      obtain ⟨hmem, hcont⟩ := h.lookup_eq_some.1 hl
      exact .inl ⟨e, hmem, hcont, rfl⟩
    | none =>
      right
      have hnone := h.lookup_eq_none.1 hl
      let new : MmioRbRange ν η :=
        { ptr := ptr, mrParam := memp, mrBase := memp.base, mrEnd := memp.base + memp.size - 1 }
      have hfaith : new.Faithful := ⟨rfl, hproper.end_toNat, hproper.1⟩
      have hcommon : ∀ a : MmioRbRange ν η, a ∈ T.elems m.root → ∀ x, a.mrParam.Contains x →
          memp.Contains x → mmioRbRangeCompare new.toMmioBounds a.toMmioBounds = .eq := by
        intro a ha x hax hmx
        exact ((hfaith.contains_iff x).2 hmx).compare_eq (((h.faithful a ha).contains_iff x).2 hax)
      simp only [mmioRbAdd]
      cases hins : T.insert m.root new with
      | mk t' res =>
        cases res with
        | some a =>
          obtain ⟨rfl, hmem, hcmp⟩ := T.insert_some h.root hins
          refine .inl ⟨a, hmem, hnone a hmem, ?_, rfl⟩
          obtain ⟨x, hnx, hax⟩ :=
            MmioBounds.exists_contains hfaith.nonempty (h.faithful a hmem).nonempty hcmp
          rw [Set.not_disjoint_iff]
          exact ⟨x, ((h.faithful a hmem).contains_iff x).1 hax, (hfaith.contains_iff x).1 hnx⟩
        | none =>
          obtain ⟨hne, helems⟩ := T.insert_none h.root hins
          refine .inr ⟨new, rfl, hfaith, ?_, rfl, trivial, trivial, ?_, helems⟩
          · intro a ha
            rw [Set.disjoint_left]
            intro x hax hmx
            exact hne a ha (hcommon a ha x hax hmx)
          · have hsorted := h.root.insert (r := new) fun a b => mmioRbRangeCompare_comm
            rwa [hins] at hsorted

/-- Registering keeps what `mem.c` relies on. -/
theorem register (h : m.Sound) (mrp : Option Nat) {memp : MemRange ν η}
    (hproper : memp.Proper) : (registerMem mrp m memp).1.Sound := by
  obtain ⟨-, heq⟩ | ⟨e, -, -, heq⟩ | ⟨e, -, -, -, heq⟩ |
    ⟨e, -, hfaith, -, -, hhint, hfall, hsorted, helems⟩ := h.registerMem_cases mrp hproper
  · rw [heq]
    exact h
  · rw [heq]
    exact h
  · rw [heq]
    exact h
  · refine ⟨hsorted, hfall ▸ h.fallback, ?_, ?_⟩
    · intro a ha
      rw [helems] at ha
      rcases ha with rfl | ha
      · exact hfaith
      · exact h.faithful a ha
    · intro a ha
      rw [hhint] at ha
      rw [helems]
      exact Set.mem_insert_of_mem e (h.hint a ha)

theorem flushHint_root (m : Mmio T) (e : MmioRbRange ν η) : (m.flushHint e).root = m.root := by
  rw [Mmio.flushHint]
  split
  · split <;> rfl
  · rfl

theorem flushHint_fallback (m : Mmio T) (e : MmioRbRange ν η) :
    (m.flushHint e).fallback = m.fallback := by
  rw [Mmio.flushHint]
  split
  · split <;> rfl
  · rfl

/-- A hint that is left is the old one, and not the entry that goes. -/
theorem flushHint_hint {m : Mmio T} {e a : MmioRbRange ν η} (h : (m.flushHint e).hint = some a) :
    m.hint = some a ∧ a ≠ e := by
  rw [Mmio.flushHint] at h
  cases hh : m.hint with
  | none => simp [hh] at h
  | some b =>
    by_cases hptr : b.ptr = e.ptr
    · simp [hh, hptr] at h
    · simp only [hh, hptr, if_false, Option.some.injEq] at h
      subst h
      exact ⟨rfl, fun heq => hptr (heq ▸ rfl)⟩

/-- **`unregister_mem`, where it returns.** Nothing contains the base, or the range
that does is the one asked for; it is mutable, and it goes. -/
theorem unregisterMem_cases [DecidableEq ν] (h : m.Sound) {memp : MemRange ν η}
    {r : Mmio T × Option MemErrno} (hr : unregisterMem m memp = .ok r) :
    ((∀ e ∈ T.elems m.root, ¬ e.mrParam.Contains memp.base) ∧ r = (m, some .enoent)) ∨
    ∃ e ∈ T.elems m.root, e.mrParam.name = memp.name ∧ e.mrParam.base = memp.base ∧
      e.mrParam.size = memp.size ∧ e.mrParam.flags &&& memFImmutable = 0 ∧
      r = (({ m with root := T.remove m.root e } : Mmio T).flushHint e, none) := by
  rw [unregisterMem] at hr
  cases hl : mmioRbLookup m.root memp.base with
  | none =>
    simp only [hl, Except.ok.injEq] at hr
    exact .inl ⟨h.lookup_eq_none.1 hl, hr.symm⟩
  | some e =>
    rw [hl] at hr
    obtain ⟨_, hname, hr⟩ := Except.bind_eq_ok.1 hr
    obtain ⟨_, hbounds, hr⟩ := Except.bind_eq_ok.1 hr
    obtain ⟨_, hflags, hr⟩ := Except.bind_eq_ok.1 hr
    simp only [assert_eq_ok, Bool.and_eq_true, beq_iff_eq] at hname hbounds hflags
    exact .inr ⟨e, (h.lookup_eq_some.1 hl).1, hname, hbounds.1, hbounds.2, hflags,
      (Except.ok.inj hr).symm⟩

theorem unregisterMem_fallback [DecidableEq ν] (h : m.Sound) {memp : MemRange ν η}
    {r : Mmio T × Option MemErrno} (hr : unregisterMem m memp = .ok r) :
    r.1.fallback = m.fallback := by
  obtain ⟨-, rfl⟩ | ⟨e, -, -, -, -, -, rfl⟩ := h.unregisterMem_cases hr
  · rfl
  · exact flushHint_fallback _ e

/-- Taking a range away keeps what `mem.c` relies on: a hint to it goes with it. -/
theorem remove (h : m.Sound) {e : MmioRbRange ν η} (he : e ∈ T.elems m.root) :
    (({ m with root := T.remove m.root e } : Mmio T).flushHint e).Sound := by
  have helems := T.elems_remove h.root he
  refine ⟨?_, ?_, ?_, ?_⟩
  · rw [flushHint_root]
    exact h.root.remove he
  · rw [flushHint_fallback]
    exact h.fallback
  · intro a ha
    rw [flushHint_root, helems] at ha
    exact h.faithful a ha.1
  · intro a ha
    obtain ⟨ha, hne⟩ := flushHint_hint ha
    rw [flushHint_root, helems]
    exact ⟨h.hint a ha, hne⟩

theorem unregister [DecidableEq ν] (h : m.Sound) {memp : MemRange ν η}
    {r : Mmio T × Option MemErrno} (hr : unregisterMem m memp = .ok r) : r.1.Sound := by
  obtain ⟨-, rfl⟩ | ⟨e, he, -, -, -, -, rfl⟩ := h.unregisterMem_cases hr
  · exact h
  · exact h.remove he

end Mmio.Sound

/-! ### The registered ranges -/

/-- The ranges that are registered. -/
def Mmio.ranges (m : Mmio T) : Set (MemRange ν η) := MmioRbRange.mrParam '' T.elems m.root

namespace Mmio.Sound

variable {m m' : Mmio T} {mr : MemRange ν η}

theorem nonempty (h : m.Sound) {r : MemRange ν η} (hr : r ∈ m.ranges) : 1 ≤ r.size.toNat := by
  obtain ⟨e, he, rfl⟩ := hr
  exact (h.faithful e he).2.2

theorem contains_base (h : m.Sound) {r : MemRange ν η} (hr : r ∈ m.ranges) :
    r.Contains r.base :=
  ⟨le_refl _, Nat.lt_add_of_pos_right (h.nonempty hr)⟩

/-- Different registered ranges have no address in common. -/
theorem ranges_disjoint (h : m.Sound) : m.ranges.PairwiseDisjoint MemRange.addresses := by
  rintro r ⟨e, he, rfl⟩ r' ⟨e', he', rfl⟩ hne
  exact h.pairwiseDisjoint he he' fun heq => hne (heq ▸ rfl)

theorem ranges_unique (h : m.Sound) {r r' : MemRange ν η} {paddr : U64} (hr : r ∈ m.ranges)
    (hr' : r' ∈ m.ranges) (hc : r.Contains paddr) (hc' : r'.Contains paddr) : r = r' := by
  by_contra hne
  exact Set.disjoint_left.1 (h.ranges_disjoint hr hr' hne) hc hc'

/-- A registered range has one entry. -/
theorem existsUnique_entry (h : m.Sound) {r : MemRange ν η} (hr : r ∈ m.ranges) :
    ∃! e, e ∈ T.elems m.root ∧ e.mrParam = r := by
  have hbase := h.contains_base hr
  obtain ⟨e, he, rfl⟩ := hr
  refine ⟨e, ⟨he, rfl⟩, ?_⟩
  rintro e' ⟨he', heq⟩
  exact h.unique he' he (heq ▸ hbase) hbase

/-- Without memory for the entry nothing is registered; with it, `register_mem`
returns 0 after adding a range that overlaps no other, or after doing nothing. -/
theorem registerMem_ok (h : m.Sound) {p : Nat} (hproper : mr.Proper)
    (hr : registerMem (some p) m mr = (m', none)) :
    m'.Sound ∧ ((m'.ranges = insert mr m.ranges ∧
        ∀ r ∈ m.ranges, Disjoint r.addresses mr.addresses) ∨
      (m' = m ∧ ∃ r ∈ m.ranges, r.Contains mr.base)) := by
  have hsound := h.register (some p) hproper
  have hcases := h.registerMem_cases (some p) hproper
  rw [hr] at hsound hcases
  obtain ⟨hnone, -⟩ | ⟨e, he, hc, heq⟩ | ⟨e, -, -, -, heq⟩ |
    ⟨e, heq, -, hdisj, -, -, -, -, helems⟩ := hcases
  · exact nomatch hnone
  · exact ⟨hsound, .inr ⟨(Prod.mk.inj heq).1, e.mrParam, ⟨e, he, rfl⟩, hc⟩⟩
  · exact nomatch (Prod.mk.inj heq).2
  · refine ⟨hsound, .inl ⟨?_, ?_⟩⟩
    · rw [Mmio.ranges, helems, Set.image_insert_eq, heq]
      rfl
    · rintro r ⟨a, ha, rfl⟩
      exact hdisj a ha

/-- A range that overlaps no other is added. -/
theorem registerMem_fresh (h : m.Sound) (p : Nat) (hproper : mr.Proper)
    (hdisj : ∀ r ∈ m.ranges, Disjoint r.addresses mr.addresses) :
    ∃ m', registerMem (some p) m mr = (m', none) ∧ m'.Sound ∧
      m'.ranges = insert mr m.ranges := by
  obtain ⟨hnone, -⟩ | ⟨e, he, hc, -⟩ | ⟨e, he, -, hnd, -⟩ | ⟨e, -, -, -, herr, -⟩ :=
    h.registerMem_cases (some p) hproper
  · exact nomatch hnone
  · exact absurd hproper.contains_base (Set.disjoint_left.1 (hdisj e.mrParam ⟨e, he, rfl⟩) hc)
  · exact absurd (hdisj e.mrParam ⟨e, he, rfl⟩) hnd
  · have heq : registerMem (some p) m mr =
        ((registerMem (some p) m mr).1, none) := by rw [← herr]
    obtain ⟨hsound, ⟨hranges, -⟩ | ⟨-, r, hr, hc⟩⟩ := h.registerMem_ok hproper heq
    · exact ⟨_, heq, hsound, hranges⟩
    · exact absurd hproper.contains_base (Set.disjoint_left.1 (hdisj r hr) hc)

/-- A range whose base is registered is passed over in silence. -/
theorem registerMem_inside (h : m.Sound) (p : Nat) {r : MemRange ν η} (hr : r ∈ m.ranges)
    (hc : r.Contains mr.base) : registerMem (some p) m mr = (m, none) := by
  obtain ⟨e, he, rfl⟩ := hr
  rw [registerMem, registerMemInt, h.lookup_eq_some.2 ⟨he, hc⟩]

/-- A range whose base is not registered is added where it overlaps no other, and
refused where it overlaps one. -/
theorem registerMem_outside (h : m.Sound) (p : Nat) (hproper : mr.Proper)
    (hbase : ∀ r ∈ m.ranges, ¬ r.Contains mr.base) :
    ((∀ r ∈ m.ranges, Disjoint r.addresses mr.addresses) ∧
      (registerMem (some p) m mr).2 = none ∧
      (registerMem (some p) m mr).1.ranges = insert mr m.ranges) ∨
    ((∃ r ∈ m.ranges, ¬ Disjoint r.addresses mr.addresses) ∧
      registerMem (some p) m mr = (m, some .eexist)) := by
  obtain ⟨hno, -⟩ | ⟨e, he, hc, -⟩ | ⟨e, he, -, hnd, heq⟩ | ⟨e, heq, -, hdisj, herr, -, -, -, helems⟩ :=
    h.registerMem_cases (some p) hproper
  · exact nomatch hno
  · exact absurd hc (hbase _ ⟨e, he, rfl⟩)
  · exact .inr ⟨⟨e.mrParam, ⟨e, he, rfl⟩, hnd⟩, heq⟩
  · refine .inl ⟨?_, herr, ?_⟩
    · rintro r ⟨a, ha, rfl⟩
      exact hdisj a ha
    · rw [Mmio.ranges, helems, Set.image_insert_eq, heq]
      rfl

theorem ranges_remove (h : m.Sound) {e : MmioRbRange ν η} (he : e ∈ T.elems m.root) :
    (({ m with root := T.remove m.root e } : Mmio T).flushHint e).ranges =
      m.ranges \ {e.mrParam} := by
  rw [Mmio.ranges, flushHint_root, T.elems_remove h.root he]
  ext r
  constructor
  · rintro ⟨a, ⟨ha, hne⟩, rfl⟩
    refine ⟨⟨a, ha, rfl⟩, fun heq => hne ?_⟩
    have hbase := h.contains_base ⟨e, he, rfl⟩
    have heq : a.mrParam = e.mrParam := heq
    exact h.unique ha he (heq ▸ hbase) hbase
  · rintro ⟨⟨a, ha, rfl⟩, hne⟩
    exact ⟨a, ⟨ha, fun heq => hne (heq ▸ rfl)⟩, rfl⟩

/-- Where `unregister_mem` returns 0, the range is not registered any more. -/
theorem unregisterMem_ok [DecidableEq ν] (h : m.Sound)
    (hr : unregisterMem m mr = .ok (m', none)) :
    m'.Sound ∧ m'.ranges ⊆ m.ranges \ {mr} := by
  obtain ⟨-, heq⟩ | ⟨e, he, -, hbase, hsize, -, heq⟩ := h.unregisterMem_cases hr
  · exact nomatch (Prod.mk.inj heq).2
  · obtain rfl := (Prod.mk.inj heq).1
    refine ⟨h.remove he, ?_⟩
    rw [h.ranges_remove he]
    rintro r ⟨hr, hne⟩
    refine ⟨hr, fun hmr => hne ?_⟩
    have hmr : r = mr := hmr
    have hc : r.Contains e.mrParam.base := by
      rw [hbase, ← hmr]
      exact h.contains_base hr
    exact h.ranges_unique hr ⟨e, he, rfl⟩ hc (h.contains_base ⟨e, he, rfl⟩)

/-- A mutable range that is registered can be unregistered. -/
theorem unregisterMem_mem [DecidableEq ν] (h : m.Sound) (hr : mr ∈ m.ranges)
    (hflags : mr.flags &&& memFImmutable = 0) :
    ∃ m', unregisterMem m mr = .ok (m', none) ∧ m'.Sound ∧
      m'.ranges = m.ranges \ {mr} := by
  have hbase := h.contains_base hr
  obtain ⟨e, he, rfl⟩ := hr
  refine ⟨_, ?_, h.remove he, h.ranges_remove he⟩
  rw [unregisterMem, h.lookup_eq_some.2 ⟨he, hbase⟩]
  simp [assert, hflags]
  rfl

end Mmio.Sound

end Lookup

/-! ## Registration is all or nothing -/

section Exact

variable {ν η : Type} {T : MmioRbTree ν η}

/-- What `register_mem` promises for a range `mr`: with the new registry `m'` and the
error `err`, it returns 0 exactly for a range that overlaps no other, and adds it then,
and changes nothing when it returns an error. -/
structure RegistersExactly (m m' : Mmio T) (err : Option MemErrno) (mr : MemRange ν η) : Prop where
  zero : err = none ↔ ∀ r ∈ m.ranges, Disjoint r.addresses mr.addresses
  added : err = none → m'.ranges = insert mr m.ranges
  refused : err ≠ none → m' = m

theorem Mmio.Sound.registersExactly_iff {m : Mmio T} (hsound : m.Sound) (mrp : Option Nat)
    {mr : MemRange ν η} (hproper : mr.Proper) :
    RegistersExactly m (registerMem mrp m mr).1 (registerMem mrp m mr).2 mr ↔
      match mrp with
      | some _ => ∀ r ∈ m.ranges, ¬ r.Contains mr.base
      | none => ∃ r ∈ m.ranges, ¬ Disjoint r.addresses mr.addresses := by
  cases mrp with
  | none =>
    constructor
    · rintro ⟨hzero, -, -⟩
      by_contra hno
      push Not at hno
      exact nomatch hzero.2 hno
    · rintro ⟨r, hr, hnd⟩
      refine ⟨⟨fun hz => (nomatch hz), fun hall => absurd (hall r hr) hnd⟩, ?_, fun _ => rfl⟩
      exact fun hz => (nomatch hz)
  | some p =>
    constructor
    · rintro ⟨hzero, -, -⟩ r hr hc
      rw [hsound.registerMem_inside p hr hc] at hzero
      exact Set.disjoint_left.1 (hzero.1 rfl r hr) hc hproper.contains_base
    · intro hbase
      rcases hsound.registerMem_outside p hproper hbase with
        ⟨hdisj, herr, hranges⟩ | ⟨⟨r, hr, hnd⟩, heq⟩
      · exact ⟨⟨fun _ => hdisj, fun _ => herr⟩, fun _ => hranges, fun hno => absurd herr hno⟩
      · rw [heq]
        exact ⟨⟨fun hz => (nomatch hz), fun hall => absurd (hall r hr) hnd⟩,
          fun hz => (nomatch hz), fun _ => rfl⟩

/-- **`register_mem` keeps its promise** if and only if its base lies in no registered
range, or, without memory for the entry, the range overlaps one. -/
theorem register_mem_exact_iff {m : Mmio T} (hroot : T.Sorted m.root)
    (hfaithful : ∀ e ∈ T.elems m.root, e.Faithful) (mrp : Option Nat) {mr : MemRange ν η}
    (hproper : mr.Proper) :
    RegistersExactly m (registerMem mrp m mr).1 (registerMem mrp m mr).2 mr ↔
      match mrp with
      | some _ => ∀ r ∈ m.ranges, ¬ r.Contains mr.base
      | none => ∃ r ∈ m.ranges, ¬ Disjoint r.addresses mr.addresses := by
  -- neither the fallback tree nor the hint is read
  have hsound : ({ root := m.root, fallback := T.init, hint := none } : Mmio T).Sound :=
    ⟨hroot, OrderedTree.sorted_init, hfaithful, fun e he => (nomatch he)⟩
  refine Iff.trans ?_ (hsound.registersExactly_iff mrp hproper)
  have hsame : ∀ m' : Mmio T, m'.root = m.root → ((registerMem mrp m' mr).1 = m' ↔
      (registerMemInt mrp m.root mr).1 = m.root) := by
    intro m' hm'
    obtain ⟨root, fallback, hint⟩ := m'
    have hm' : root = m.root := hm'
    subst hm'
    exact ⟨fun h => congrArg Mmio.root h, fun h => by simp only [registerMem, h]⟩
  have hsame' : (registerMem mrp m mr).1 = m ↔
      (registerMem mrp { root := m.root, fallback := T.init, hint := none } mr).1 =
        { root := m.root, fallback := T.init, hint := none } :=
    (hsame m rfl).trans (hsame { root := m.root, fallback := T.init, hint := none } rfl).symm
  constructor
  · rintro ⟨hzero, hadded, hrefused⟩
    exact ⟨hzero, hadded, fun h => hsame'.1 (hrefused h)⟩
  · rintro ⟨hzero, hadded, hrefused⟩
    exact ⟨hzero, hadded, fun h => hsame'.2 (hrefused h)⟩

end Exact

/-! ## Runs of the registry -/

/-- What can happen to the registry. -/
inductive MmioLabel (ν η : Type) : Type where
  /-- a call of `register_mem`, with what `malloc` returns in it -/
  | register (mrp : Option Nat) (memp : MemRange ν η)
  /-- a call of `unregister_mem` -/
  | unregister (memp : MemRange ν η)
  /-- an access, with the address -/
  | access (paddr : U64)

section Runs

variable {ν η β : Type} [DecidableEq ν] {T : MmioRbTree ν η}

/-- The calls of the registry that return. -/
inductive MmioStep : Mmio T → MmioLabel ν η → Mmio T → Prop where
  | register {m : Mmio T} (mrp : Option Nat) {memp : MemRange ν η} :
      memp.Proper → MmioStep m (.register mrp memp) (registerMem mrp m memp).1
  | unregister {m : Mmio T} {memp : MemRange ν η} {r : Mmio T × Option MemErrno} :
      unregisterMem m memp = .ok r → MmioStep m (.unregister memp) r.1
  | access {m : Mmio T} (paddr : U64) :
      MmioStep m (.access paddr) (accessMemory m paddr id).1

theorem MmioStep.sound {m m' : Mmio T} {l : MmioLabel ν η} (h : m.Sound)
    (hstep : MmioStep m l m') : m'.Sound := by
  cases hstep with
  | register mrp hproper => exact h.register mrp hproper
  | unregister hr => exact h.unregister hr
  | access paddr => exact (h.access paddr id).1

/-- Nothing is ever registered in the fallback tree. -/
theorem MmioStep.fallback {m m' : Mmio T} {l : MmioLabel ν η} (h : m.Sound)
    (hstep : MmioStep m l m') : m'.fallback = m.fallback := by
  cases hstep with
  | register mrp hproper => rfl
  | unregister hr => exact h.unregisterMem_fallback hr
  | access paddr => exact (h.access paddr id).2.2

theorem Reaches.mmio_sound {m : Mmio T} (h : Reaches MmioStep (· = initMem T) m) :
    m.Sound ∧ m.fallback = T.init := by
  refine h.invariant (I := fun m => m.Sound ∧ m.fallback = T.init) ?_ ?_
  · rintro s rfl
    exact ⟨Mmio.Sound.init, rfl⟩
  · rintro s l t ⟨hs, hfall⟩ hstep
    exact ⟨hstep.sound hs, (hstep.fallback hs).trans hfall⟩

/-- **The cached lookup is the plain one.** In every run of the registry the ranges
stay disjoint and the hint is one of them; an access calls the handler of the one
range that contains the address, or fails where there is none, as it would without
the hint. -/
theorem access_memory_plain {m : Mmio T} (h : Reaches MmioStep (· = initMem T) m) :
    ((T.elems m.root).PairwiseDisjoint fun e => e.mrParam.addresses) ∧
    (∀ e, m.hint = some e → e ∈ T.elems m.root) ∧
    ∀ (paddr : U64) (cb : MemRange ν η → β),
      (accessMemory m paddr cb).2 = accessMemoryPlain m paddr cb ∧
      (∀ e ∈ T.elems m.root, e.mrParam.Contains paddr →
        (∀ a ∈ T.elems m.root, a.mrParam.Contains paddr → a = e) ∧
        (accessMemory m paddr cb).2 = .ok (cb e.mrParam)) ∧
      ((∀ e ∈ T.elems m.root, ¬ e.mrParam.Contains paddr) →
        (accessMemory m paddr cb).2 = .error .esrch) := by
  obtain ⟨hsound, hfall⟩ := h.mmio_sound
  refine ⟨hsound.pairwiseDisjoint, hsound.hint, fun paddr cb => ⟨?_, ?_, ?_⟩⟩
  · exact hsound.accessMemory_snd paddr cb
  · intro e he hcont
    exact ⟨fun a ha hacont => hsound.unique ha he hacont hcont, hsound.accessMemory_hit he hcont cb⟩
  · intro hnone
    rw [hsound.accessMemory_miss hfall hnone]

/-- One registered range, and an access to it that sets the hint. -/
def mmioExampleRange : MemRange Nat Nat :=
  { name := 0, flags := memFRW, handler := 7, base := 0x60020000, size := 0x20000 }

theorem access_memory_plain_hinted :
    let m : Mmio OrderedTree.list :=
      (accessMemory (registerMem (some 0) (initMem OrderedTree.list) mmioExampleRange).1
        0x60020010 id).1
    (accessMemory m 0x6003ffff MemRange.handler).2 = .ok 7 ∧
      (accessMemory m 0x60040000 MemRange.handler).2 = .error .esrch := by
  intro m
  have hreach : Reaches MmioStep (· = initMem OrderedTree.list) m :=
    .next (.next (.start rfl) (.register (some 0) (by decide))) (.access 0x60020010)
  obtain ⟨-, -, hacc⟩ := access_memory_plain (β := Nat) hreach
  exact ⟨(hacc 0x6003ffff MemRange.handler).1, (hacc 0x60040000 MemRange.handler).1⟩

end Runs

/-- With one range registered, the range behind it is added, and one that ends in it is refused. -/
theorem register_mem_exact_iff_two :
    let m : Mmio OrderedTree.list := (registerMem (some 0) (initMem OrderedTree.list) mmioExampleRange).1
    let behind := { mmioExampleRange with base := 0x60040000, size := 0x1000 }
    let across := { mmioExampleRange with base := 0x60010000 }
    m.ranges = {mmioExampleRange} ∧
      RegistersExactly m (registerMem (some 1) m behind).1 (registerMem (some 1) m behind).2 behind ∧
      RegistersExactly m (registerMem (some 1) m across).1 (registerMem (some 1) m across).2 across ∧
      (registerMem (some 1) m behind).2 = none ∧ (registerMem (some 1) m across).2 = some .eexist := by
  intro m behind across
  have hinit : (initMem (OrderedTree.list : MmioRbTree Nat Nat)).Sound := Mmio.Sound.init
  have hsound : m.Sound := hinit.register (some 0) (by decide)
  have hranges : m.ranges = {mmioExampleRange} := by
    obtain ⟨m', hreg, -, hranges⟩ := hinit.registerMem_fresh 0
      (by decide : mmioExampleRange.Proper) fun _ ⟨_, he, _⟩ => absurd he List.not_mem_nil
    have hm : m = m' := congrArg Prod.fst hreg
    have hempty : (initMem (OrderedTree.list : MmioRbTree Nat Nat)).ranges = ∅ :=
      Set.eq_empty_of_forall_notMem fun _ ⟨_, he, _⟩ => absurd he List.not_mem_nil
    rw [hm, hranges, hempty, insert_empty_eq]
  have hbase : ∀ {mr : MemRange Nat Nat}, ¬ mmioExampleRange.Contains mr.base →
      ∀ r ∈ m.ranges, ¬ r.Contains mr.base := by
    intro mr hno r hr
    rw [hranges, Set.mem_singleton_iff] at hr
    exact hr ▸ hno
  exact ⟨hranges,
    (register_mem_exact_iff hsound.root hsound.faithful (some 1) (by decide)).2 (hbase (by decide)),
    (register_mem_exact_iff hsound.root hsound.faithful (some 1) (by decide)).2 (hbase (by decide)),
    by decide, by decide⟩

/-- A range inside a registered one is dropped, and 0 is returned. -/
theorem register_mem_silent :
    ¬ ∀ (m : Mmio (OrderedTree.list : MmioRbTree Nat Nat)) (p : Nat) (mr : MemRange Nat Nat),
      OrderedTree.list.Sorted m.root → (∀ e ∈ OrderedTree.list.elems m.root, e.Faithful) →
      mr.Proper → RegistersExactly m (registerMem (some p) m mr).1 (registerMem (some p) m mr).2 mr := by
  intro h
  have hinit : (initMem (OrderedTree.list : MmioRbTree Nat Nat)).Sound := Mmio.Sound.init
  obtain ⟨m, hreg, hsound, hranges⟩ := hinit.registerMem_fresh 0
    (by decide : mmioExampleRange.Proper) fun _ ⟨_, he, _⟩ => absurd he List.not_mem_nil
  have hmem : mmioExampleRange ∈ m.ranges := hranges ▸ Set.mem_insert _ _
  have hinner : mmioExampleRange.Contains 0x60030000 := by decide
  have hproper : { mmioExampleRange with base := 0x60030000, size := 0x1000 }.Proper := by decide
  have hexact := h m 1 _ hsound.root hsound.faithful hproper
  rw [hsound.registerMem_inside 1 hmem hinner] at hexact
  exact Set.disjoint_left.1 (hexact.zero.1 rfl _ hmem) hinner hproper.contains_base

end DeviceModel
