import DeviceModel.Library.Extents
import DeviceModel.Library.MaskedRegs
import DeviceModel.Library.WordBytes
import DeviceModel.Pci.BarPools
import DeviceModel.Pci.ConfigView

/-!
# The MSI-X table

`pci_emul_add_msixcap` gives a device a table of interrupt messages and a pending bit array, in one
BAR. An access of the guest to that BAR goes to `pci_emul_msix_twrite` or `pci_emul_msix_tread`.
The table is a memory: what is read is what was last written. The index of an entry is an `int`,
so that an offset counts modulo 2 ^ 36, and from 2 ^ 35 on there is nothing behind it.
-/

namespace DeviceModel

/-! ## The table -/

/-- `MSIX_TABLE_ENTRY_SIZE` and `MAX_MSIX_TABLE_ENTRIES`. -/
def msixTableEntrySize : Nat := 16
def maxMsixTableEntries : Nat := 2048

/-- `PCIM_MSIX_VCTRL_MASK`, in `vector_control`, the last word of an entry. -/
def pcimMsixVctrlMask : U32 := 0x1
def vectorControl : Nat := 12

/-- `pi_msix` with the table, which is the memory of its entries. -/
structure MsixTable where
  tableBar : Nat
  pbaBar : Nat
  tableOffset : U32
  tableCount : Nat
  pbaOffset : U32
  pbaSize : Nat
  table : List U8

/-- The place in the table that `dest` points to, where an access of `size` bytes stays in it. -/
def msixDest (m : MsixTable) (tabIndex : Int) (msixEntryOffset size : Nat) : Except Stop Nat :=
  if 0 ≤ tabIndex ∧ tabIndex.toNat * msixTableEntrySize + msixEntryOffset + size ≤ m.table.length then
    .ok (tabIndex.toNat * msixTableEntrySize + msixEntryOffset)
  else .error .undefined

/-- `offset / MSIX_TABLE_ENTRY_SIZE`, as an `int`. -/
def msixIndex (offset : U64) : Int := ((offset / 16#64).setWidth 32).toInt

/-- `pci_emul_msix_twrite`, and what it returns. -/
def pciEmulMsixTwrite (m : MsixTable) (offset : U64) (size : Nat) (value : U64) :
    Except Stop (MsixTable × Int) :=
  if size ≠ 4 ∧ size ≠ 8 then .ok (m, -1)
  else if (m.tableCount : Int) ≤ msixIndex offset then .ok (m, -1)
  else
    let msixEntryOffset := offset.toNat % msixTableEntrySize
    -- only aligned writes
    if msixEntryOffset % size ≠ 0 then .ok (m, -1)
    else do
      let dest ← msixDest m (msixIndex offset) msixEntryOffset size
      .ok ({ m with table := putAt dest (leBytes size value) m.table }, 0)

/-- `pci_valid_pba_offset`. -/
def pciValidPbaOffset (m : MsixTable) (offset : U64) : Bool :=
  !(offset < m.pbaOffset.setWidth 64 ||
    (m.pbaOffset + BitVec.ofNat 32 m.pbaSize).setWidth 64 ≤ offset)

/-- `pci_emul_msix_tread`. -/
def pciEmulMsixTread (m : MsixTable) (offset : U64) (size : Nat) : Except Stop U64 :=
  let retval : U64 := 0xffffffffffffffff
  if size ≠ 1 ∧ size ≠ 4 ∧ size ≠ 8 then .ok retval
  else
    let msixEntryOffset := offset.toNat % msixTableEntrySize
    -- only aligned reads
    if msixEntryOffset % size ≠ 0 then .ok retval
    else if msixIndex offset < m.tableCount then do
      let dest ← msixDest m (msixIndex offset) msixEntryOffset size
      .ok (ofLeBytes 64 (Extent.get ⟨dest, size⟩ m.table))
    else if pciValidPbaOffset m offset then .ok 0
    else .ok retval

/-- The mask bit of an entry is set. -/
def msixMask (t : List U8) (i : Nat) : List U8 :=
  let dest := i * msixTableEntrySize + vectorControl
  putAt dest (leBytes 4 (ofLeBytes 32 (Extent.get ⟨dest, 4⟩ t) ||| pcimMsixVctrlMask)) t

/-- `pci_msix_table_init`: the table. -/
def pciMsixTableInit (tableEntries : Nat) : Except Stop (List U8) := do
  assert "table_entries > 0" (0 < tableEntries)
  assert "table_entries <= MAX_MSIX_TABLE_ENTRIES" (tableEntries ≤ maxMsixTableEntries)
  .ok ((List.range tableEntries).foldl msixMask
    (List.replicate (tableEntries * msixTableEntrySize) 0))

section Table

variable {m : MsixTable} {offset value : U64} {size i : Nat}

/-- The table has its entries. -/
def MsixTable.Sized (m : MsixTable) : Prop := m.table.length = m.tableCount * msixTableEntrySize

/-- Where the index is not negative, offsets count modulo 2 ^ 36. -/
theorem msixIndex_of_lt (h : offset.toNat % 2 ^ 36 < 2 ^ 35) :
    msixIndex offset = ((offset.toNat % 2 ^ 36 / 16 : Nat) : Int) := by
  have hnat : ((offset / 16#64).setWidth 32).toNat = offset.toNat % 2 ^ 36 / 16 := by
    rw [BitVec.toNat_setWidth, BitVec.toNat_udiv]
    show offset.toNat / 16 % 2 ^ 32 = _
    omega
  rw [msixIndex, BitVec.toInt_eq_toNat_of_lt, hnat]
  rw [hnat]
  omega

/-- And elsewhere it is. -/
theorem msixIndex_of_le (h : 2 ^ 35 ≤ offset.toNat % 2 ^ 36) : msixIndex offset < 0 := by
  have hnat : ((offset / 16#64).setWidth 32).toNat = offset.toNat % 2 ^ 36 / 16 := by
    rw [BitVec.toNat_setWidth, BitVec.toNat_udiv]
    show offset.toNat / 16 % 2 ^ 32 = _
    omega
  rw [msixIndex, BitVec.toInt_eq_toNat_cond, hnat, if_neg (by omega)]
  omega

/-- An aligned access stays in its entry. -/
theorem msix_access_le {k n : Nat} (hsize : size = 1 ∨ size = 4 ∨ size = 8)
    (halign : k % msixTableEntrySize % size = 0) (hlt : k / msixTableEntrySize < n) :
    k / msixTableEntrySize * msixTableEntrySize + k % msixTableEntrySize + size ≤
      n * msixTableEntrySize := by
  have hend : k % msixTableEntrySize + size ≤ msixTableEntrySize := by
    have hmod : k % msixTableEntrySize < msixTableEntrySize := Nat.mod_lt _ (by decide)
    rw [msixTableEntrySize] at halign hmod ⊢
    obtain rfl | rfl | rfl := hsize <;> omega
  calc k / msixTableEntrySize * msixTableEntrySize + k % msixTableEntrySize + size
      ≤ k / msixTableEntrySize * msixTableEntrySize + msixTableEntrySize := by omega
    _ = (k / msixTableEntrySize + 1) * msixTableEntrySize := by rw [Nat.add_mul, Nat.one_mul]
    _ ≤ n * msixTableEntrySize := Nat.mul_le_mul_right _ hlt

/-- **The place of an access.** -/
theorem msixDest_of_lt (hm : m.Sized) (hsize : size = 1 ∨ size = 4 ∨ size = 8)
    (halign : offset.toNat % msixTableEntrySize % size = 0) (h : offset.toNat % 2 ^ 36 < 2 ^ 35)
    (hindex : msixIndex offset < m.tableCount) :
    msixDest m (msixIndex offset) (offset.toNat % msixTableEntrySize) size =
        .ok (offset.toNat % 2 ^ 36) ∧
      offset.toNat % 2 ^ 36 + size ≤ m.table.length := by
  have heq := msixIndex_of_lt h
  have hmod : offset.toNat % msixTableEntrySize = offset.toNat % 2 ^ 36 % msixTableEntrySize := by
    rw [msixTableEntrySize]
    omega
  rw [heq] at hindex ⊢
  have hlt : offset.toNat % 2 ^ 36 / msixTableEntrySize < m.tableCount := Int.ofNat_lt.1 hindex
  have hend := msix_access_le hsize (hmod ▸ halign) hlt
  have hsplit : offset.toNat % 2 ^ 36 / msixTableEntrySize * msixTableEntrySize +
      offset.toNat % 2 ^ 36 % msixTableEntrySize = offset.toNat % 2 ^ 36 := Nat.div_add_mod' _ _
  rw [hsplit] at hend
  rw [hm, msixDest, Int.toNat_natCast, hmod]
  have hplace : offset.toNat % 2 ^ 36 / 16 * msixTableEntrySize +
      offset.toNat % 2 ^ 36 % msixTableEntrySize = offset.toNat % 2 ^ 36 := hsplit
  rw [hplace]
  refine ⟨if_pos ⟨Int.natCast_nonneg _, ?_⟩, hend⟩
  rw [hm]
  exact hend

/-- There is none in front of the table. -/
theorem msixDest_of_le {k : Nat} (h : 2 ^ 35 ≤ offset.toNat % 2 ^ 36) :
    msixDest m (msixIndex offset) k size = .error .undefined := by
  have hneg := msixIndex_of_le h
  exact if_neg fun hin => absurd hin.1 (by omega)

end Table

/-! ## What the table holds -/

/-- A write of the guest. -/
structure MsixWrite where
  offset : U64
  size : Nat
  value : U64
  deriving DecidableEq, Repr

namespace MsixWrite

/-- Where it goes. -/
def place (w : MsixWrite) : Nat := w.offset.toNat % 2 ^ 36

/-- A write that `pci_emul_msix_twrite` carries out where there is a table. -/
def Stores (w : MsixWrite) : Prop := (w.size = 4 ∨ w.size = 8) ∧ w.place % w.size = 0

instance (w : MsixWrite) : Decidable w.Stores :=
  inferInstanceAs (Decidable ((w.size = 4 ∨ w.size = 8) ∧ w.place % w.size = 0))

/-- What it puts into a byte of the table. -/
def byteAt (i : Nat) (w : MsixWrite) : Option U8 :=
  if w.Stores ∧ w.place ≤ i ∧ i < w.place + w.size then some (wordByte w.value (i - w.place)) else none

end MsixWrite

/-- A write that returns. -/
def MsixStep (m : MsixTable) (w : MsixWrite) (m' : MsixTable) : Prop :=
  ∃ ret, pciEmulMsixTwrite m w.offset w.size w.value = .ok (m', ret)

section Writes

variable {m m' : MsixTable} {w : MsixWrite} {offset : U64} {size i : Nat}

theorem msix_aligned_iff (hsize : size = 1 ∨ size = 4 ∨ size = 8) :
    offset.toNat % msixTableEntrySize % size = 0 ↔ offset.toNat % 2 ^ 36 % size = 0 := by
  rw [msixTableEntrySize]
  obtain rfl | rfl | rfl := hsize <;> omega

theorem msixIndex_lt_iff (h : offset.toNat % 2 ^ 36 < 2 ^ 35) :
    msixIndex offset < m.tableCount ↔ offset.toNat % 2 ^ 36 < m.tableCount * msixTableEntrySize := by
  rw [msixIndex_of_lt h, msixTableEntrySize, Int.ofNat_lt]
  omega

/-- What a write does. -/
inductive MsixEffect (m : MsixTable) (w : MsixWrite) (m' : MsixTable) : Prop where
  | refused : m' = m → ¬ w.Stores ∨ m.tableCount * msixTableEntrySize ≤ w.place → MsixEffect m w m'
  | stored : w.Stores → w.place + w.size ≤ m.table.length →
      m' = { m with table := putAt w.place (leBytes w.size w.value) m.table } → MsixEffect m w m'

/-- **One write** is refused, or stores what it is given. It stops where its index is negative. -/
theorem pciEmulMsixTwrite_cases (hm : m.Sized) (w : MsixWrite) :
    (w.Stores ∧ 2 ^ 35 ≤ w.place ∧
      pciEmulMsixTwrite m w.offset w.size w.value = .error .undefined) ∨
    (¬ (w.Stores ∧ 2 ^ 35 ≤ w.place) ∧
      ∃ m' ret, pciEmulMsixTwrite m w.offset w.size w.value = .ok (m', ret) ∧ MsixEffect m w m') := by
  by_cases hsize : w.size = 4 ∨ w.size = 8
  swap
  · have hnot : w.size ≠ 4 ∧ w.size ≠ 8 := not_or.1 hsize
    refine .inr ⟨fun h => hsize h.1.1, m, -1, ?_, .refused rfl (.inl fun h => hsize h.1)⟩
    rw [pciEmulMsixTwrite, if_pos hnot]
  have hsize' : w.size = 1 ∨ w.size = 4 ∨ w.size = 8 := .inr hsize
  have hnot : ¬ (w.size ≠ 4 ∧ w.size ≠ 8) := fun h => hsize.elim h.1 h.2
  by_cases halign : w.place % w.size = 0
  swap
  · refine .inr ⟨fun h => halign h.1.2, m, -1, ?_, .refused rfl (.inl fun h => halign h.2)⟩
    have hoff : w.offset.toNat % msixTableEntrySize % w.size ≠ 0 :=
      fun h => halign ((msix_aligned_iff hsize').1 h)
    rw [pciEmulMsixTwrite, if_neg hnot, if_pos hoff]
    split <;> rfl
  have hoff := (msix_aligned_iff hsize').2 halign
  rw [pciEmulMsixTwrite, if_neg hnot, if_neg (not_not.2 hoff)]
  by_cases hlow : w.place < 2 ^ 35
  swap
  · -- a negative index passes the test
    have hneg := msixIndex_of_le (Nat.not_lt.1 hlow)
    refine .inl ⟨⟨hsize, halign⟩, Nat.not_lt.1 hlow, ?_⟩
    rw [if_neg (by omega), msixDest_of_le (Nat.not_lt.1 hlow)]
    rfl
  refine .inr ⟨fun h => absurd hlow (Nat.not_lt.2 h.2), ?_⟩
  by_cases hin : msixIndex w.offset < m.tableCount
  · obtain ⟨hdest, hend⟩ := msixDest_of_lt hm hsize' hoff hlow hin
    refine ⟨_, 0, ?_, .stored ⟨hsize, halign⟩ hend rfl⟩
    rw [if_neg (by omega), hdest]
    rfl
  · refine ⟨m, -1, if_pos (by omega), .refused rfl (.inr ?_)⟩
    exact Nat.not_lt.1 fun h => hin ((msixIndex_lt_iff hlow).2 h)

/-- The table keeps its entries. -/
theorem MsixEffect.sized (hm : m.Sized) (h : MsixEffect m w m') :
    m'.Sized ∧ m'.tableCount = m.tableCount := by
  obtain ⟨rfl, -⟩ | ⟨-, hend, rfl⟩ := h
  · exact ⟨hm, rfl⟩
  · rw [← length_leBytes w.size w.value] at hend
    exact ⟨(length_putAt hend).trans hm, rfl⟩

/-- What a write leaves in a byte. -/
theorem MsixEffect.byte (h : MsixEffect m w m') (hi : i < m.tableCount * msixTableEntrySize) :
    m'.table.getD i 0 = maskedPut (BitVec.allOnes 8) (m.table.getD i 0) (w.byteAt i) := by
  rw [maskedPut_allOnes, MsixWrite.byteAt]
  obtain ⟨rfl, hrefused⟩ | ⟨hstores, hend, rfl⟩ := h
  · rw [if_neg]
    · rfl
    · rintro ⟨hstores, hlo, -⟩
      rcases hrefused with hnot | hout
      · exact hnot hstores
      · omega
  · rw [← length_leBytes w.size w.value] at hend
    dsimp only
    rw [List.getD_eq_getElem?_getD, getElem?_putAt hend, length_leBytes]
    by_cases hin : w.place ≤ i ∧ i < w.place + w.size
    · rw [if_pos hin, if_pos ⟨hstores, hin⟩, getElem?_leBytes _ (by omega)]
      rfl
    · rw [if_neg hin, if_neg fun h => hin h.2, Option.getD_none, List.getD_eq_getElem?_getD]

theorem MsixStep.effect (hm : m.Sized) (h : MsixStep m w m') : MsixEffect m w m' := by
  obtain ⟨ret, hret⟩ := h
  obtain ⟨-, -, hstop⟩ | ⟨-, m'', ret', heq, heffect⟩ := pciEmulMsixTwrite_cases hm w
  · rw [hstop] at hret
    cases hret
  · obtain ⟨rfl, rfl⟩ := Prod.mk.inj (Except.ok.inj (heq.symm.trans hret))
    exact heffect

theorem not_msix_sizes (hsize : size = 1 ∨ size = 4 ∨ size = 8) :
    ¬ (size ≠ 1 ∧ size ≠ 4 ∧ size ≠ 8) := by
  rintro ⟨h₁, h₄, h₈⟩
  rcases hsize with h | h | h
  · exact h₁ h
  · exact h₄ h
  · exact h₈ h

/-- **A read** of the table. -/
theorem pciEmulMsixTread_table (hm : m.Sized) (hsize : size = 1 ∨ size = 4 ∨ size = 8)
    (halign : offset.toNat % 2 ^ 36 % size = 0)
    (hin : offset.toNat % 2 ^ 36 < m.tableCount * msixTableEntrySize)
    (hlow : offset.toNat % 2 ^ 36 < 2 ^ 35) :
    ∃ v, pciEmulMsixTread m offset size = .ok v ∧ ∀ k, k < 8 →
      wordByte v k = if k < size then m.table.getD (offset.toNat % 2 ^ 36 + k) 0 else 0 := by
  have hoff := (msix_aligned_iff hsize).2 halign
  have hindex := (msixIndex_lt_iff (m := m) hlow).2 hin
  obtain ⟨hdest, hend⟩ := msixDest_of_lt hm hsize hoff hlow hindex
  refine ⟨ofLeBytes 64 (Extent.get ⟨offset.toNat % 2 ^ 36, size⟩ m.table), ?_, fun k hk => ?_⟩
  · rw [pciEmulMsixTread, if_neg (not_msix_sizes hsize), if_neg (not_not.2 hoff), if_pos hindex, hdest]
    rfl
  · rw [wordByte_ofLeBytes _ _ (by omega), List.getD_eq_getElem?_getD, Extent.getElem?_get]
    split
    · rw [List.getD_eq_getElem?_getD]
      rfl
    · rfl

/-- And of what is behind it. -/
theorem pciEmulMsixTread_pba (hsize : size = 1 ∨ size = 4 ∨ size = 8)
    (halign : offset.toNat % 2 ^ 36 % size = 0)
    (hout : m.tableCount * msixTableEntrySize ≤ offset.toNat % 2 ^ 36)
    (hlow : offset.toNat % 2 ^ 36 < 2 ^ 35) :
    pciEmulMsixTread m offset size =
      .ok (if pciValidPbaOffset m offset then 0 else 0xffffffffffffffff) := by
  have hoff := (msix_aligned_iff hsize).2 halign
  have hindex : ¬ msixIndex offset < m.tableCount := fun h =>
    absurd ((msixIndex_lt_iff (m := m) hlow).1 h) (Nat.not_lt.2 hout)
  rw [pciEmulMsixTread, if_neg (not_msix_sizes hsize), if_neg (not_not.2 hoff), if_neg hindex]
  split <;> rfl

end Writes

/-! ## The first table -/

/-- A byte after the first `k` entries have been masked. -/
def maskedByte (k i : Nat) : U8 := if i % 16 = vectorControl ∧ i / 16 < k then 1 else 0

/-- One turn of the loop. -/
theorem msixMask_bytes {t : List U8} {n k : Nat} (hlen : t.length = n * msixTableEntrySize) (hk : k < n)
    (ht : ∀ i, i < n * msixTableEntrySize → t[i]? = some (maskedByte k i)) :
    (msixMask t k).length = n * msixTableEntrySize ∧
      ∀ i, i < n * msixTableEntrySize → (msixMask t k)[i]? = some (maskedByte (k + 1) i) := by
  rw [msixTableEntrySize] at hlen ht ⊢
  have hend : k * 16 + vectorControl +
      (leBytes 4 (ofLeBytes 32 (Extent.get ⟨k * 16 + vectorControl, 4⟩ t) ||| pcimMsixVctrlMask)).length ≤
        t.length := by
    rw [length_leBytes, hlen, vectorControl]
    omega
  refine ⟨(length_putAt hend).trans hlen, fun i hi => ?_⟩
  rw [msixMask, msixTableEntrySize, getElem?_putAt hend, length_leBytes]
  by_cases hin : k * 16 + vectorControl ≤ i ∧ i < k * 16 + vectorControl + 4
  · -- the word was zero
    obtain ⟨j, rfl⟩ : ∃ j, i = k * 16 + vectorControl + j := ⟨i - (k * 16 + vectorControl), by omega⟩
    have hj : j < 4 := by omega
    have hold : maskedByte k (k * 16 + vectorControl + j) = 0 := by
      refine if_neg fun h => ?_
      rw [vectorControl] at h
      omega
    rw [if_pos hin, Nat.add_sub_cancel_left, getElem?_leBytes _ hj, wordByte_or,
      wordByte_ofLeBytes _ _ (by omega), List.getD_eq_getElem?_getD, Extent.getElem?_get, if_pos hj,
      ht _ hi, hold]
    rw [vectorControl] at hi ⊢
    have hcases : j = 0 ∨ j = 1 ∨ j = 2 ∨ j = 3 := by omega
    have hnew : maskedByte (k + 1) (k * 16 + 12 + j) = if j = 0 then 1 else 0 := by
      rw [maskedByte, vectorControl]
      refine if_congr ?_ rfl rfl
      omega
    rw [hnew]
    obtain rfl | rfl | rfl | rfl := hcases <;> rfl
  · rw [if_neg hin, ht i hi, maskedByte, maskedByte]
    refine congrArg some (if_congr ?_ rfl rfl)
    rw [vectorControl] at hin ⊢
    omega

/-- **The loop** masks every entry of the new table. -/
theorem pciMsixTableInit_bytes {n : Nat} {t : List U8} (h : pciMsixTableInit n = .ok t) :
    t.length = n * msixTableEntrySize ∧
      ∀ i, i < n * msixTableEntrySize → t.getD i 0 = if i % 16 = vectorControl then 1 else 0 := by
  have hloop : ∀ k, k ≤ n →
      ((List.range k).foldl msixMask (List.replicate (n * msixTableEntrySize) 0)).length =
          n * msixTableEntrySize ∧
        ∀ i, i < n * msixTableEntrySize →
          ((List.range k).foldl msixMask (List.replicate (n * msixTableEntrySize) 0))[i]? =
            some (maskedByte k i) := by
    intro k
    induction k with
    | zero =>
      intro _
      refine ⟨List.length_replicate, fun i hi => ?_⟩
      have hzero : maskedByte 0 i = 0 := if_neg fun h => Nat.not_lt_zero _ h.2
      rw [hzero]
      exact List.getElem?_replicate_of_lt hi
    | succ k ih =>
      intro hk
      obtain ⟨hlen, hbytes⟩ := ih (by omega)
      rw [List.range_succ, List.foldl_append]
      exact msixMask_bytes hlen hk hbytes
  obtain ⟨_, -, h⟩ := Except.bind_eq_ok.1 h
  obtain ⟨_, -, h⟩ := Except.bind_eq_ok.1 h
  obtain rfl := Except.ok.inj h
  obtain ⟨hlen, hbytes⟩ := hloop n (Nat.le_refl n)
  refine ⟨hlen, fun i hi => ?_⟩
  rw [List.getD_eq_getElem?_getD, hbytes i hi, Option.getD_some, maskedByte]
  refine if_congr ?_ rfl rfl
  rw [msixTableEntrySize] at hi
  omega

/-! ## Runs -/

/-- **The table is a memory.** After any writes of the guest to a new table, at any offsets, each byte
holds what the last write that covers it has stored, or what `pci_msix_table_init` has, and reads
return it, zeros in the pending bit array, and ones elsewhere. The only accesses that leave the
table are those whose index is negative as an `int`. -/
theorem msix_table_is_memory {m₀ m : MsixTable} {n : Nat} {ls : List MsixWrite}
    (hinit : pciMsixTableInit n = .ok m₀.table) (hcount : m₀.tableCount = n)
    (hrun : Run MsixStep m₀ ls m) :
    (∀ i, i < n * msixTableEntrySize → m.table.getD i 0 =
      (lastWrite (MsixWrite.byteAt i) ls).getD (if i % 16 = vectorControl then 1 else 0)) ∧
    (∀ (offset : U64) (size : Nat), size = 1 ∨ size = 4 ∨ size = 8 →
      offset.toNat % 2 ^ 36 % size = 0 → offset.toNat % 2 ^ 36 < 2 ^ 35 →
      if offset.toNat % 2 ^ 36 < n * msixTableEntrySize then
        ∃ v, pciEmulMsixTread m offset size = .ok v ∧ ∀ k, k < 8 →
          wordByte v k = if k < size then m.table.getD (offset.toNat % 2 ^ 36 + k) 0 else 0
      else pciEmulMsixTread m offset size =
        .ok (if pciValidPbaOffset m offset then 0 else 0xffffffffffffffff)) ∧
    ∀ w : MsixWrite, Returns (pciEmulMsixTwrite m w.offset w.size w.value) ↔
      ¬ (w.Stores ∧ 2 ^ 35 ≤ w.place) := by
  obtain ⟨hlen, hbytes⟩ := pciMsixTableInit_bytes hinit
  have hsized : m₀.Sized := by rw [MsixTable.Sized, hcount, hlen]
  have hkept : m.Sized ∧ m.tableCount = n :=
    hrun.invariant (I := fun m => m.Sized ∧ m.tableCount = n) (fun s l t hs h => by
      obtain ⟨hs, rfl⟩ := hs
      exact (h.effect hs).sized hs) ⟨hsized, hcount⟩
  obtain ⟨hm, rfl⟩ := hkept
  refine ⟨fun i hi => ?_, fun offset size hsize halign hlow => ?_, fun w => ?_⟩
  · have hstep : ∀ (s : MsixTable) l t, (s.Sized ∧ s.tableCount = m.tableCount) → MsixStep s l t →
        (t.Sized ∧ t.tableCount = m.tableCount) ∧
          t.table.getD i 0 = maskedPut (BitVec.allOnes 8) (s.table.getD i 0) (l.byteAt i) := by
      rintro s l t ⟨hs, hn⟩ h
      have heffect := h.effect hs
      obtain ⟨ht, hn'⟩ := heffect.sized hs
      rw [← hn] at hi
      exact ⟨⟨ht, hn'.trans hn⟩, heffect.byte hi⟩
    rw [(hrun.masked hstep ⟨hsized, hcount⟩).2, hbytes i hi]
    exact maskedPut_allOnes _ _
  · split
    next hin => exact pciEmulMsixTread_table hm hsize halign hin hlow
    next hout => exact pciEmulMsixTread_pba hsize halign (Nat.not_lt.1 hout) hlow
  · obtain ⟨hstores, hlarge, hstop⟩ | ⟨hsafe, m', ret, hret, -⟩ := pciEmulMsixTwrite_cases hm w
    · rw [hstop]
      exact iff_of_false (fun h => by obtain ⟨r, hr⟩ := h; cases hr) (not_not.2 ⟨hstores, hlarge⟩)
    · exact iff_of_true ⟨_, hret⟩ hsafe

/-- A table of two entries, in a page of its own. -/
def msixTwo : MsixTable := ⟨0, 0, 0, 2, 4096, 8, outcome (pciMsixTableInit 2) []⟩

/-- The guest stores an address and unmasks the first entry. -/
def msixWrites : List MsixWrite := [⟨0, 8, 0xfee00000⟩, ⟨12, 4, 0⟩]

def msixStored : MsixTable := (outcome (pciEmulMsixTwrite msixTwo 0 8 0xfee00000) (msixTwo, 0)).1
def msixUnmasked : MsixTable := (outcome (pciEmulMsixTwrite msixStored 12 4 0) (msixTwo, 0)).1

theorem msix_table_is_memory_two :
    msixUnmasked.table.getD 3 0 = 0xfe ∧ msixUnmasked.table.getD 12 0 = 0 ∧
      msixUnmasked.table.getD 28 0 = 1 ∧
      pciEmulMsixTread msixUnmasked 4096 4 = .ok 0 := by
  have hinit : pciMsixTableInit 2 = .ok msixTwo.table := @eq_ok_outcome _ _ [] (by decide +kernel)
  have hstored : MsixStep msixTwo ⟨0, 8, 0xfee00000⟩ msixStored :=
    ⟨_, @eq_ok_outcome _ _ (msixTwo, 0) (by decide +kernel)⟩
  have hunmasked : MsixStep msixStored ⟨12, 4, 0⟩ msixUnmasked :=
    ⟨_, @eq_ok_outcome _ _ (msixTwo, 0) (by decide +kernel)⟩
  have hrun : Run MsixStep msixTwo msixWrites msixUnmasked := .snoc (.snoc (.nil _) hstored) hunmasked
  obtain ⟨hbytes, hreads, -⟩ := msix_table_is_memory hinit rfl hrun
  have hpba := hreads 4096 4 (by decide) (by decide) (by decide)
  rw [if_neg (by decide)] at hpba
  exact ⟨(hbytes 3 (by decide)).trans (by decide), (hbytes 12 (by decide)).trans (by decide),
    (hbytes 28 (by decide)).trans (by decide), hpba.trans (by decide +kernel)⟩

/-! ## The capability -/

/-- `PBA_SIZE`. -/
def pbaSizeOf (msgnum : Nat) : Nat := (roundup2 (BitVec.ofNat 64 msgnum) 64).toNat / 8

/-- The size of the table, rounded up to a page. -/
def msixTabSize (msgnum : Nat) : U32 :=
  (roundup2 (BitVec.ofNat 64 (msgnum * msixTableEntrySize)) 4096).setWidth 32

/-- `PCIR_MAX_BAR_0`. -/
def pcirMaxBar0 : Nat := 5

/-- `pci_emul_add_msixcap`. What `pci_emul_alloc_bar` returns is not looked at. -/
def pciEmulAddMsixcap {T : PciMemTree} (s : PciSetup T) (msgnum barnum : Nat) :
    Except Stop (PciSetup T × MsixTable × Bool) := do
  assert "msgnum >= 1 && msgnum <= MAX_MSIX_TABLE_ENTRIES"
    (1 ≤ msgnum && msgnum ≤ maxMsixTableEntries)
  assert "barnum >= 0 && barnum <= PCIR_MAX_BAR_0" (barnum ≤ pcirMaxBar0)
  let tabSize := msixTabSize msgnum
  let table ← pciMsixTableInit msgnum
  let m : MsixTable := ⟨barnum, barnum, 0, msgnum, tabSize, pbaSizeOf msgnum, table⟩
  let capdata ← pciPopulateMsixcap (BitVec.ofNat 16 msgnum) (BitVec.ofNat 32 barnum) tabSize
  let r ← pciEmulAllocBar s barnum .mem32 ((tabSize + BitVec.ofNat 32 m.pbaSize).setWidth 64)
  let c ← pciEmulAddCapability r.1.pi capdata
  .ok ({ r.1 with pi := c.1 }, m, c.2)

/-- What the capability at `p` tells a guest. -/
structure MsixTold (pi : PciDev) (m : MsixTable) (p : Nat) : Prop where
  id : pi.cfgdata p = pciyMsix
  count : (pi.cfg16 (p + 2) &&& 0x7ff#16).toNat + 1 = m.tableCount
  tableBar : (pi.cfg32 (p + 4) &&& 7#32).toNat = m.tableBar
  tableOffset : pi.cfg32 (p + 4) &&& ~~~7#32 = m.tableOffset
  pbaBar : (pi.cfg32 (p + 8) &&& 7#32).toNat = m.pbaBar
  pbaOffset : pi.cfg32 (p + 8) &&& ~~~7#32 = m.pbaOffset

/-- The table and the pending bit array lie in a BAR of `size` bytes, the array on a page of its
own. -/
structure MsixFits (m : MsixTable) (size : U64) : Prop where
  table : m.tableOffset.toNat + m.tableCount * msixTableEntrySize ≤ m.pbaOffset.toNat
  page : m.pbaOffset.toNat % 4096 = 0
  vectors : m.tableCount ≤ m.pbaSize * 8
  room : m.pbaOffset.toNat + m.pbaSize ≤ size.toNat

section Capability

variable {T : PciMemTree} {s t : PciSetup T} {m : MsixTable} {msgnum barnum : Nat} {pi pj : PciDev}
  {caps : List Capability} {capdata : List U8} {ok : Bool}

/-- The sizes in numbers. -/
theorem toNat_msixTabSize (h : msgnum ≤ maxMsixTableEntries) :
    (msixTabSize msgnum).toNat = alignUp (msgnum * msixTableEntrySize) 4096 := by
  rw [maxMsixTableEntries] at h
  have hnat : (BitVec.ofNat 64 (msgnum * msixTableEntrySize)).toNat = msgnum * msixTableEntrySize := by
    rw [BitVec.toNat_ofNat, msixTableEntrySize]
    exact Nat.mod_eq_of_lt (by omega)
  have hround : (roundup2 (BitVec.ofNat 64 (msgnum * msixTableEntrySize)) 4096).toNat =
      alignUp (msgnum * msixTableEntrySize) 4096 := by
    rw [toNat_roundup2 (k := 12) rfl]
    · rw [hnat]
      rfl
    · rw [hnat, msixTableEntrySize]
      show msgnum * 16 + 4096 ≤ 2 ^ 64
      omega
  have hlt := alignUp_lt (a := msgnum * msixTableEntrySize) (n := 4096) (by decide)
  rw [msixTabSize, BitVec.toNat_setWidth, hround]
  rw [msixTableEntrySize] at hlt ⊢
  exact Nat.mod_eq_of_lt (by omega)

theorem pbaSizeOf_eq (h : msgnum ≤ maxMsixTableEntries) : pbaSizeOf msgnum = alignUp msgnum 64 / 8 := by
  rw [maxMsixTableEntries] at h
  have hnat : (BitVec.ofNat 64 msgnum).toNat = msgnum := by
    rw [BitVec.toNat_ofNat]
    exact Nat.mod_eq_of_lt (by omega)
  rw [pbaSizeOf, toNat_roundup2 (k := 6) rfl]
  · rw [hnat]
    rfl
  · rw [hnat]
    show msgnum + 64 ≤ 2 ^ 64
    omega

theorem toNat_msixRoom (h : msgnum ≤ maxMsixTableEntries) :
    ((msixTabSize msgnum + BitVec.ofNat 32 (pbaSizeOf msgnum)).setWidth 64 : U64).toNat =
      (msixTabSize msgnum).toNat + pbaSizeOf msgnum ∧
    (msixTabSize msgnum).toNat + pbaSizeOf msgnum < 2 ^ 32 := by
  have htab := toNat_msixTabSize h
  have hpba := pbaSizeOf_eq h
  have hlt := alignUp_lt (a := msgnum * msixTableEntrySize) (n := 4096) (by decide)
  have hlt' := alignUp_lt (a := msgnum) (n := 64) (by decide)
  rw [maxMsixTableEntries] at h
  rw [msixTableEntrySize] at hlt htab
  have hroom : (msixTabSize msgnum).toNat + pbaSizeOf msgnum < 2 ^ 32 := by omega
  refine ⟨?_, hroom⟩
  rw [BitVec.toNat_setWidth_of_le (by decide), BitVec.toNat_add, BitVec.toNat_ofNat,
    Nat.mod_eq_of_lt (a := pbaSizeOf msgnum) (by omega), Nat.mod_eq_of_lt hroom]

/-- The layout. -/
theorem msixFits {size : U64} {table : List U8} (h : msgnum ≤ maxMsixTableEntries)
    (hsize : ((msixTabSize msgnum + BitVec.ofNat 32 (pbaSizeOf msgnum)).setWidth 64 : U64).toNat ≤
      size.toNat) :
    MsixFits ⟨barnum, barnum, 0, msgnum, msixTabSize msgnum, pbaSizeOf msgnum, table⟩ size := by
  have htab := toNat_msixTabSize h
  have hpba := pbaSizeOf_eq h
  have hle := le_alignUp (a := msgnum * msixTableEntrySize) (n := 4096) (by decide)
  have hdvd := dvd_alignUp (msgnum * msixTableEntrySize) 4096
  have hle' := le_alignUp (a := msgnum) (n := 64) (by decide)
  have hdvd' := dvd_alignUp msgnum 64
  rw [(toNat_msixRoom h).1] at hsize
  refine ⟨?_, ?_, ?_, hsize⟩
  · show 0 + msgnum * msixTableEntrySize ≤ (msixTabSize msgnum).toNat
    omega
  · rw [htab]
    exact Nat.mod_eq_zero_of_dvd hdvd
  · show msgnum ≤ pbaSizeOf msgnum * 8
    rw [hpba]
    omega

/-- What a guest reads where the bytes of the capability are. -/
theorem MsixTold.of_bytes {p : Nat} {table : List U8} (hmsg : 1 ≤ msgnum) (hle : msgnum ≤ maxMsixTableEntries)
    (hbar : barnum ≤ pcirMaxBar0)
    (hdata : pciPopulateMsixcap (BitVec.ofNat 16 msgnum) (BitVec.ofNat 32 barnum) (msixTabSize msgnum) =
      .ok capdata)
    (hbytes : ∀ i b, i ≠ 1 → capdata[i]? = some b → pi.cfgdata (p + i) = b) :
    MsixTold pi ⟨barnum, barnum, 0, msgnum, msixTabSize msgnum, pbaSizeOf msgnum, table⟩ p := by
  obtain ⟨_, -, hdata⟩ := Except.bind_eq_ok.1 hdata
  obtain rfl := Except.ok.inj hdata
  have hctrl : pi.cfg16 (p + 2) = BitVec.ofNat 16 msgnum - 1 := by
    rw [PciDev.cfg16, hbytes 3 _ (by decide) rfl, hbytes 2 _ (by decide) rfl]
    exact @append_halves 8 8 _
  have htable : pi.cfg32 (p + 4) = BitVec.ofNat 32 barnum &&& 7#32 := by
    refine eq_of_wordByte fun k hk => ?_
    have hcases : k = 0 ∨ k = 1 ∨ k = 2 ∨ k = 3 := by omega
    rw [wordByte_cfg32 _ _ (by omega)]
    obtain rfl | rfl | rfl | rfl := hcases
    · exact hbytes 4 _ (by decide) rfl
    · exact hbytes 5 _ (by decide) rfl
    · exact hbytes 6 _ (by decide) rfl
    · exact hbytes 7 _ (by decide) rfl
  have hpba : pi.cfg32 (p + 8) = msixTabSize msgnum ||| (BitVec.ofNat 32 barnum &&& 7#32) := by
    refine eq_of_wordByte fun k hk => ?_
    have hcases : k = 0 ∨ k = 1 ∨ k = 2 ∨ k = 3 := by omega
    rw [wordByte_cfg32 _ _ (by omega)]
    obtain rfl | rfl | rfl | rfl := hcases
    · exact hbytes 8 _ (by decide) rfl
    · exact hbytes 9 _ (by decide) rfl
    · exact hbytes 10 _ (by decide) rfl
    · exact hbytes 11 _ (by decide) rfl
  rw [maxMsixTableEntries] at hle
  rw [pcirMaxBar0] at hbar
  -- a BAR index fits into the lower bits, and the size of the table leaves them clear
  have hindex : (BitVec.ofNat 32 barnum &&& 7#32).toNat = barnum := by
    rw [toNat_and_pow _ 3 rfl, BitVec.toNat_ofNat]
    omega
  have hself : (BitVec.ofNat 32 barnum &&& 7#32) &&& 7#32 = BitVec.ofNat 32 barnum &&& 7#32 := by
    rw [BitVec.and_assoc, BitVec.and_self]
  have hclear : (BitVec.ofNat 32 barnum &&& 7#32) &&& ~~~7#32 = 0#32 := by
    rw [BitVec.and_assoc]
    exact BitVec.and_zero
  have htab : msixTabSize msgnum &&& 7#32 = 0#32 := by
    refine BitVec.eq_of_toNat_eq ?_
    have hdvd := dvd_alignUp (msgnum * msixTableEntrySize) 4096
    rw [toNat_and_pow _ 3 rfl, toNat_msixTabSize hle]
    exact Nat.mod_eq_zero_of_dvd ((Nat.dvd_trans (by decide) hdvd))
  have hkeep : msixTabSize msgnum &&& ~~~7#32 = msixTabSize msgnum := and_not_of_and htab
  refine ⟨hbytes 0 _ (by decide) rfl, ?_, ?_, ?_, ?_, ?_⟩
  · have hone : (1 : U16).toNat = 1 := rfl
    have hnat : (BitVec.ofNat 16 msgnum).toNat = msgnum := by
      rw [BitVec.toNat_ofNat]
      exact Nat.mod_eq_of_lt (by omega)
    have hpos : (1 : U16) ≤ BitVec.ofNat 16 msgnum := by
      rw [BitVec.le_def, hnat]
      exact hmsg
    rw [hctrl, toNat_and_pow _ 11 rfl, BitVec.toNat_sub_of_le hpos, hnat, hone]
    show (msgnum - 1) % 2048 + 1 = msgnum
    omega
  · rw [htable, hself, hindex]
  · rw [htable, hclear]
    rfl
  · rw [hpba, BitVec.and_or_distrib_right, htab, hself, BitVec.zero_or, hindex]
  · rw [hpba, BitVec.and_or_distrib_right, hkeep, hclear, BitVec.or_zero]

/-- The bytes that the list of capabilities is made of. -/
theorem CapList.congr (h : CapList pi caps) (hprev : pj.prevcap = pi.prevcap)
    (hend : pj.capend = pi.capend)
    (hbytes : ∀ i, i < pcirBar 0 ∨ pcirBar (pciBarmax + 1) ≤ i → pj.cfgdata i = pi.cfgdata i) :
    CapList pj caps := by
  have hhigh : ∀ i, capStartOffset ≤ i → pj.cfgdata i = pi.cfgdata i := fun i hi =>
    hbytes i (.inr (Nat.le_trans (by decide) hi))
  have hstatus : pj.cfg16 pcirStatus = pi.cfg16 pcirStatus := by
    rw [PciDev.cfg16, PciDev.cfg16, hbytes _ (.inl (by decide)), hbytes _ (.inl (by decide))]
  have hfirst : pj.capFirst = pi.capFirst := PciDev.capFirst_congr hstatus
  have hnext : pj.capNext = pi.capNext := by rw [PciDev.capNext, PciDev.capNext, hfirst, hend]
  have hstart : ∀ c ∈ caps, capStartOffset ≤ c.off := fun c hc => (h.between hc).1
  refine ⟨by rw [hfirst, h.first], by rw [hnext]; exact h.packed, by rw [hnext]; exact h.within, ?_,
    fun cs c hcs => by rw [hprev]; exact h.last cs c hcs, fun c hc i b hi hb => ?_, h.two_le⟩
  · rw [hbytes pcirCapPtr (.inr (by decide))]
    exact Linked.congr h.linked fun c hc => hhigh _ (Nat.le_succ_of_le (hstart c hc))
  · rw [hhigh _ (Nat.le_trans (hstart c hc) (Nat.le_add_right _ _))]
    exact h.bytes c hc i b hi hb

/-- A BAR is allocated or not. -/
theorem pciEmulAllocBar_caps {idx : Nat} {size : U64} (hcaps : CapList s.pi caps)
    (h : pciEmulAllocBar s idx .mem32 size = .ok (t, ok)) :
    CapList t.pi caps ∧
      (t.pi.bar = s.pi.bar ∨ (t.pi.bar idx).type = .mem32 ∧
        ∃ size', pbarSize .mem32 size = .ok size' ∧ (t.pi.bar idx).size = size') := by
  obtain ⟨size', hsize, hidx, ⟨-, rfl, -⟩ | ⟨addr, pools, mask, lobits, -, -, hpi, -, -⟩⟩ :=
    pciEmulAllocPbar_cases h
  · exact ⟨hcaps, .inl rfl⟩
  · refine ⟨?_, .inr ⟨?_, size', hsize, ?_⟩⟩
    · rw [hpi, PciDev.withBar]
      rw [if_neg PcibarType.noConfusion]
      refine hcaps.congr rfl rfl fun i hi => ?_
      refine (CfgFrame.set32 _ (pcirBar idx) _).bytes i ?_
      simp only [pcirBar, pciBarmax] at hi hidx ⊢
      omega
    · rw [hpi, PciDev.withBar_bar_self]
    · rw [hpi, PciDev.withBar_bar_self]

/-- A capability that is added leaves the BARs alone. -/
theorem CapList.add_bar (h : CapList pi caps) (hlen : 2 ≤ capdata.length)
    (hadd : pciEmulAddCapability pi capdata = .ok (pj, true)) :
    CapList pj (caps ++ [⟨pi.capNext, capdata⟩]) ∧ pj.bar = pi.bar := by
  obtain ⟨hstatus, hslot⟩ := h.capSlot_lt
  have hfits : pi.capNext + capLen capdata ≤ pciRegmax + 1 := by
    by_contra hfull
    rw [pciEmulAddCapability_full hlen (Nat.not_le.1 hfull)] at hadd
    cases hadd
  obtain ⟨pk, hadds, hadded⟩ := pciEmulAddCapability_adds hlen hfits h.start_le hstatus hslot
  obtain ⟨rfl, -⟩ := Prod.mk.inj (Except.ok.inj (hadds.symm.trans hadd))
  refine ⟨h.add hadded hlen hfits, ?_⟩
  have hle : capdata.length ≤ capLen capdata := by
    rw [capLen]
    omega
  have hwithin := h.within
  obtain ⟨pl, hcopy, hfit⟩ := pciEmulAddCapability_fits hlen hfits (by omega)
  obtain ⟨_, hcopy', hframe, -⟩ := copyCap_returns (linkCap pi) pi.capNext capdata (by omega)
  obtain rfl := Except.ok.inj (hcopy.symm.trans hcopy')
  obtain ⟨rfl, -⟩ := Prod.mk.inj (Except.ok.inj (hfit.symm.trans hadd))
  have hbar : pl.bar = (linkCap pi).bar := by rw [hframe.rest]
  refine hbar.trans ?_
  rw [linkCap]
  split <;> rfl

end Capability

/-- **The capability tells the truth.** Where `pci_emul_add_msixcap` finds room for the capability, a
guest that follows the list finds one that names the entries of the table, the BAR and the offsets of the
table and of the pending bit array; and where there was room for the BAR both lie in it, one
behind the other. -/
theorem msix_capability_tells {T : PciMemTree} {s t : PciSetup T} {m : MsixTable} {msgnum barnum : Nat}
    {caps : List Capability} (hcaps : CapList s.pi caps)
    (h : pciEmulAddMsixcap s msgnum barnum = .ok (t, m, true)) :
    pciMsixTableInit m.tableCount = .ok m.table ∧ (∃ p ∈ capPtrs t.pi, MsixTold t.pi m p) ∧
      (t.pi.bar = s.pi.bar ∨
        (t.pi.bar m.tableBar).type = .mem32 ∧ MsixFits m (t.pi.bar m.tableBar).size) := by
  obtain ⟨_, hmsg, h⟩ := Except.bind_eq_ok.1 h
  obtain ⟨_, hbar, h⟩ := Except.bind_eq_ok.1 h
  obtain ⟨table, htable, h⟩ := Except.bind_eq_ok.1 h
  obtain ⟨capdata, hdata, h⟩ := Except.bind_eq_ok.1 h
  obtain ⟨⟨u, ok⟩, halloc, h⟩ := Except.bind_eq_ok.1 h
  obtain ⟨⟨pj, ok'⟩, hadd, h⟩ := Except.bind_eq_ok.1 h
  obtain ⟨rfl, rfl, rfl⟩ : { u with pi := pj } = t ∧
      (⟨barnum, barnum, 0, msgnum, msixTabSize msgnum, pbaSizeOf msgnum, table⟩ : MsixTable) = m ∧
        ok' = true := by
    simpa only [Except.ok.injEq, Prod.mk.injEq] using h
  have hmsg' := assert_eq_ok.1 hmsg
  simp only [Bool.and_eq_true, decide_eq_true_eq] at hmsg'
  have hbar' : barnum ≤ pcirMaxBar0 := of_decide_eq_true (assert_eq_ok.1 hbar)
  have hlen : 2 ≤ capdata.length := by
    obtain ⟨_, -, hdata⟩ := Except.bind_eq_ok.1 hdata
    obtain rfl := Except.ok.inj hdata
    exact Nat.le_add_left 2 10
  obtain ⟨hcaps', hroom⟩ := pciEmulAllocBar_caps hcaps halloc
  obtain ⟨hlist, hsame⟩ := hcaps'.add_bar hlen hadd
  refine ⟨htable, ⟨u.pi.capNext, ?_, ?_⟩, ?_⟩
  · rw [hlist.capPtrs_eq, List.map_append]
    exact List.mem_append_right _ (List.mem_singleton_self _)
  · exact .of_bytes hmsg'.1 hmsg'.2 hbar' hdata
      (hlist.bytes ⟨u.pi.capNext, capdata⟩ (List.mem_append_right _ (List.mem_singleton_self _)))
  · rcases hroom with hnone | ⟨htype, size', hsize, heq⟩
    · exact .inl (hsame.trans hnone)
    · refine .inr ⟨(congrArg (fun f => (f barnum).type) hsame).trans htype, ?_⟩
      have hle : ((msixTabSize msgnum + BitVec.ofNat 32 (pbaSizeOf msgnum)).setWidth 64 : U64).toNat ≤
          size'.toNat := by
        have hroom := (toNat_msixRoom hmsg'.2)
        obtain ⟨size'', -, hsize'', -, -, hle, -⟩ := @pbarSize_returns .mem32
          ((msixTabSize msgnum + BitVec.ofNat 32 (pbaSizeOf msgnum)).setWidth 64) (by omega)
        obtain rfl := Except.ok.inj (hsize''.symm.trans hsize)
        exact hle
      have hsize' : (pj.bar barnum).size = size' := (congrArg (fun f => (f barnum).size) hsame).trans heq
      have hfits : MsixFits ⟨barnum, barnum, 0, msgnum, msixTabSize msgnum, pbaSizeOf msgnum, table⟩ size' :=
        msixFits hmsg'.2 hle
      exact hsize' ▸ hfits

/-- Four messages in BAR 1 of a device that has no capabilities. -/
def msixSetup : PciSetup OrderedTree.list := ⟨pciPoolsInit, ⟨initMem _, 0⟩, pciEmulDevinst e1000Addr⟩

def msixAdded : PciSetup OrderedTree.list × MsixTable × Bool :=
  outcome (pciEmulAddMsixcap msixSetup 4 1) (msixSetup, msixTwo, false)

theorem msix_capability_tells_four :
    (∃ p ∈ capPtrs msixAdded.1.pi, MsixTold msixAdded.1.pi msixAdded.2.1 p) ∧
      MsixFits msixAdded.2.1 (msixAdded.1.pi.bar msixAdded.2.1.tableBar).size := by
  have hcaps : CapList msixSetup.pi [] := .of_fresh ⟨by decide, by decide⟩
  have hadd : pciEmulAddMsixcap msixSetup 4 1 = .ok (msixAdded.1, msixAdded.2.1, true) := by
    have hok : pciEmulAddMsixcap msixSetup 4 1 = .ok msixAdded := eq_ok_outcome (by decide +kernel)
    have hfits : msixAdded.2.2 = true := by decide +kernel
    rw [← hfits]
    exact hok
  obtain ⟨-, htold, hroom⟩ := msix_capability_tells hcaps hadd
  refine ⟨htold, hroom.elim (fun hnone => ?_) And.right⟩
  have htype : (msixAdded.1.pi.bar 1).type = .mem32 := by decide +kernel
  rw [hnone] at htype
  exact absurd htype (by decide)

end DeviceModel
