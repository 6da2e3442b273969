import DeviceModel.Ahci.Buffers
import DeviceModel.Ahci.System

/-!
# What a command encodes

The forms in which a frame or a packet encodes an address and a count, as numbers, and
when `ahci_handle_rw` and `atapi_read` compute these in their own words of 32 and 64 bits.
-/

namespace DeviceModel

/-! ## The forms -/

/-- The forms of the ATA commands that read and write. -/
inductive RwForm : Type where
  /-- an address of 28 bits and a count of 8 -/
  | lba28
  /-- an address of 48 bits and a count of 16 -/
  | lba48
  /-- the same, with the count in the features -/
  | queued
  deriving DecidableEq, Repr

/-- The form of a command. -/
def rwForm (cmd : U8) : RwForm :=
  if ataRwFpdma cmd then .queued else if cmd ∈ ata48s then .lba48 else .lba28

/-- The number with these bytes, the last one first. -/
def leNat (bs : List U8) : Nat := bs.foldr (fun b n => b.toNat + 256 * n) 0

/-- A count of zero stands for the largest. -/
def zeroMeans (most n : Nat) : Nat := if n = 0 then most else n

namespace RwForm

/-- The sector that a frame encodes. -/
def lba (b : Nat → U8) : RwForm → Nat
  | lba28 => leNat [b 4, b 5, b 6, b 7 &&& 0xf#8]
  | lba48 | queued => leNat [b 4, b 5, b 6, b 8, b 9, b 10]

/-- The sectors that a frame asks for. -/
def count (b : Nat → U8) : RwForm → Nat
  | lba28 => zeroMeans 256 (leNat [b 12])
  | lba48 => zeroMeans 65536 (leNat [b 12, b 13])
  | queued => zeroMeans 65536 (leNat [b 3, b 11])

end RwForm

/-- The sector that a READ_10 or READ_12 packet encodes. -/
def packetLba (b : Nat → U8) : Nat := leNat [b 0x45, b 0x44, b 0x43, b 0x42]

/-- The sectors that it asks for. -/
def packetCount (b : Nat → U8) : Nat :=
  if b 0x40 = 0x28#8 then leNat [b 0x48, b 0x47] else leNat [b 0x49, b 0x48, b 0x47, b 0x46]

/-- A read or write is no TRIM command. -/
theorem ataDsm_eq_false {c : PortCtx} {cfis : U64} (h : ataCmd (c.cfis cfis 2) = .rw) :
    ataDsm c cfis = false := by
  have h06 : c.cfis cfis 2 ≠ 0x06#8 := ne_of_apply_ne ataCmd (by rw [h]; decide)
  have h64 : c.cfis cfis 2 ≠ 0x64#8 := ne_of_apply_ne ataCmd (by rw [h]; decide)
  rw [ataDsm, beq_eq_false_iff_ne.2 h06, beq_eq_false_iff_ne.2 h64]
  rfl

/-! ## Words and numbers -/

theorem toNat_append_byte {w : Nat} (x : BitVec w) (y : U8) :
    (x ++ y).toNat = y.toNat + 256 * x.toNat := by
  rw [BitVec.toNat_append, ← Nat.shiftLeft_add_eq_or_of_lt y.isLt, Nat.shiftLeft_eq]
  omega

theorem toNat_setWidth_of_lt {w v : Nat} {x : BitVec w} (h : w ≤ v) :
    (x.setWidth v).toNat = x.toNat := by
  rw [BitVec.toNat_setWidth]
  exact Nat.mod_eq_of_lt (Nat.lt_of_lt_of_le x.isLt (Nat.pow_le_pow_right (by decide) h))

theorem toNat_ahciRwLba (b : Nat → U8) : (ahciRwLba b).toNat = (rwForm (b 2)).lba b := by
  rw [ahciRwLba, rwForm]
  by_cases hq : ataRwFpdma (b 2) = true
  · rw [if_pos (.inl hq), if_pos hq, toNat_setWidth_of_lt (by decide)]
    simp only [toNat_append_byte, RwForm.lba, leNat, List.foldr]
    omega
  · by_cases h48 : b 2 ∈ ata48s
    · rw [if_pos (.inr h48), if_neg hq, if_pos h48, toNat_setWidth_of_lt (by decide)]
      simp only [toNat_append_byte, RwForm.lba, leNat, List.foldr]
      omega
    · have hno : ¬ (ataRwFpdma (b 2) = true ∨ b 2 ∈ ata48s) := not_or.2 ⟨hq, h48⟩
      rw [if_neg hno, if_neg hq, if_neg h48, toNat_setWidth_of_lt (by decide)]
      simp only [toNat_append_byte, RwForm.lba, leNat, List.foldr]
      omega

theorem toNat_zeroMeans {x : U32} {most : Nat} (hmost : most < 2 ^ 32) :
    (if x = 0 then BitVec.ofNat 32 most else x).toNat = zeroMeans most x.toNat := by
  rw [zeroMeans]
  by_cases hx : x = 0
  · rw [if_pos hx, hx, BitVec.toNat_ofNat, Nat.mod_eq_of_lt hmost]
    rfl
  · have hne : x.toNat ≠ 0 := fun h => hx (BitVec.eq_of_toNat_eq h)
    rw [if_neg hx, if_neg hne]

theorem toNat_ahciRwLen (b : Nat → U8) : (ahciRwLen b).toNat = (rwForm (b 2)).count b := by
  rw [ahciRwLen, rwForm]
  by_cases hq : ataRwFpdma (b 2) = true
  · rw [if_pos hq, if_pos hq]
    refine (toNat_zeroMeans (by decide : 65536 < 2 ^ 32)).trans ?_
    rw [toNat_setWidth_of_lt (by decide), RwForm.count]
    simp only [toNat_append_byte, leNat, List.foldr, Nat.mul_zero, Nat.add_zero]
  · rw [if_neg hq, if_neg hq]
    by_cases h48 : b 2 ∈ ata48s
    · rw [if_pos h48, if_pos h48]
      refine (toNat_zeroMeans (by decide : 65536 < 2 ^ 32)).trans ?_
      rw [toNat_setWidth_of_lt (by decide), RwForm.count]
      simp only [toNat_append_byte, leNat, List.foldr, Nat.mul_zero, Nat.add_zero]
    · rw [if_neg h48, if_neg h48]
      refine (toNat_zeroMeans (by decide : 256 < 2 ^ 32)).trans ?_
      rw [toNat_setWidth_of_lt (by decide), RwForm.count]
      simp only [leNat, List.foldr, Nat.mul_zero, Nat.add_zero]

/-- A number of a given number of bytes. -/
theorem leNat_lt : ∀ bs : List U8, leNat bs < 256 ^ bs.length := by
  intro bs
  induction bs with
  | nil => exact Nat.one_pos
  | cons b bs ih =>
    have hb := b.isLt
    have hcons : leNat (b :: bs) = b.toNat + 256 * leNat bs := rfl
    rw [hcons, List.length_cons, Nat.pow_succ]
    omega

theorem RwForm.lba_lt (b : Nat → U8) (form : RwForm) : form.lba b < 2 ^ 48 := by
  cases form with
  | lba28 =>
    have hlt := leNat_lt [b 4, b 5, b 6, b 7 &&& 0xf#8]
    simp only [List.length_cons, List.length_nil] at hlt
    simp only [RwForm.lba]
    omega
  | lba48 | queued =>
    have hlt := leNat_lt [b 4, b 5, b 6, b 8, b 9, b 10]
    simp only [List.length_cons, List.length_nil] at hlt
    simp only [RwForm.lba]
    omega

theorem zeroMeans_le {most n : Nat} (h : n < most) : zeroMeans most n ≤ most := by
  rw [zeroMeans]
  split
  · exact Nat.le_refl most
  · exact Nat.le_of_lt h

/-- No ATA command asks for more than 65536 sectors. -/
theorem RwForm.count_le (b : Nat → U8) (form : RwForm) : form.count b ≤ 65536 := by
  cases form with
  | lba28 =>
    have hlt := leNat_lt [b 12]
    simp only [List.length_cons, List.length_nil] at hlt
    exact (zeroMeans_le (by omega)).trans (by decide : 256 ≤ 65536)
  | lba48 =>
    have hlt := leNat_lt [b 12, b 13]
    simp only [List.length_cons, List.length_nil] at hlt
    exact zeroMeans_le (by omega)
  | queued =>
    have hlt := leNat_lt [b 3, b 11]
    simp only [List.length_cons, List.length_nil] at hlt
    exact zeroMeans_le (by omega)

theorem toNat_acmd32 (c : PortCtx) (cfis : U64) (i : Nat) :
    (acmd32 c cfis i).toNat = leNat [c.cfis cfis (0x41 + (i + 2)), c.cfis cfis (0x40 + (i + 2)),
      c.cfis cfis (0x41 + i), c.cfis cfis (0x40 + i)] := by
  rw [acmd32, acmd16, acmd16, BitVec.toNat_append, ← Nat.shiftLeft_add_eq_or_of_lt (BitVec.isLt _),
    Nat.shiftLeft_eq]
  simp only [toNat_append_byte, leNat, List.foldr]
  omega

theorem toNat_atapiReadLen (c : PortCtx) (cfis : U64) :
    (atapiReadLen c cfis).toNat = packetCount (c.cfis cfis) := by
  rw [atapiReadLen, packetCount]
  by_cases h10 : c.cfis cfis 0x40 = 0x28#8
  · rw [if_pos h10, if_pos h10, toNat_setWidth_of_lt (by decide), acmd16]
    simp only [toNat_append_byte, leNat, List.foldr, Nat.mul_zero, Nat.add_zero]
  · rw [if_neg h10, if_neg h10, toNat_acmd32]

/-! ## Exact requests -/

/-- The request for what is left of a transfer from `done` on says, as numbers without bound,
what a command for `count` sectors from `lba` on encodes. -/
structure AhciTransfer.Exact (x : AhciTransfer) (done : U32) (lba count sectsz : Nat) : Prop where
  offset : (x.off + done.setWidth 64).toNat = lba * sectsz + done.toNat
  len : x.len.toNat = count * sectsz
  /-- `left` in `ahci_build_iov` -/
  left : (x.len - done).toInt = (count * sectsz : Nat) - (done.toNat : Int)
  nonneg : 0 ≤ (x.len - done).toInt

/-- A length in a word of 32 bits, and `left` as an `int`. -/
theorem AhciTransfer.exact_iff {x : AhciTransfer} {lba count sectsz : Nat}
    (hoff : x.off.toNat = lba * sectsz) (hlba : lba * sectsz < 2 ^ 63)
    (hlen : x.len.toNat = count * sectsz % 2 ^ 32) (done : U32) :
    x.Exact done lba count sectsz ↔
      done.toNat ≤ count * sectsz ∧ count * sectsz < 2 ^ 32 ∧
        count * sectsz - done.toNat < 2 ^ 31 := by
  have hdone := done.isLt
  have hint : (x.len - done).toInt < 2 ^ 31 := by
    have hlt := @BitVec.two_mul_toInt_lt 32 (x.len - done)
    omega
  constructor
  · rintro ⟨-, hcount, hleft, hnonneg⟩
    have hlt := x.len.isLt
    omega
  · rintro ⟨hle, hcount, hleft⟩
    have hexact : x.len.toNat = count * sectsz := hlen.trans (Nat.mod_eq_of_lt hcount)
    have hsub : (x.len - done).toNat = count * sectsz - done.toNat := by
      rw [BitVec.toNat_sub_of_le (BitVec.le_def.2 (by omega)), hexact]
    have hpos : (x.len - done).toInt = ((count * sectsz - done.toNat : Nat) : Int) := by
      rw [BitVec.toInt_eq_toNat_of_lt (by omega), hsub]
    refine ⟨?_, hexact, ?_, ?_⟩
    · rw [BitVec.toNat_add, hoff, toNat_setWidth_of_lt (by decide)]
      exact Nat.mod_eq_of_lt (by omega)
    · rw [hpos]
      omega
    · rw [hpos]
      omega

/-- **Commands are decoded exactly** where what is done is within the command, and, for a packet,
where its length is below 4 GiB and what is left of it below 2 GiB. -/
theorem command_decoding_exact_iff (c : PortCtx) (slot : Slot) (cfis : U64) (done : U32)
    (hsectsz : c.blk.bc.bcSectsz = 512) :
    ((ahciRwTransfer c slot cfis).Exact done ((rwForm (c.cfis cfis 2)).lba (c.cfis cfis))
        ((rwForm (c.cfis cfis 2)).count (c.cfis cfis)) 512 ↔
      done.toNat ≤ (rwForm (c.cfis cfis 2)).count (c.cfis cfis) * 512) ∧
    ((atapiReadTransfer c slot cfis ((acmd32 c cfis 2).setWidth 64) (atapiReadLen c cfis)).Exact done
        (packetLba (c.cfis cfis)) (packetCount (c.cfis cfis)) 2048 ↔
      done.toNat ≤ packetCount (c.cfis cfis) * 2048 ∧
        packetCount (c.cfis cfis) * 2048 < 2 ^ 32 ∧
        packetCount (c.cfis cfis) * 2048 - done.toNat < 2 ^ 31) := by
  constructor
  · have hlba := (rwForm (c.cfis cfis 2)).lba_lt (c.cfis cfis)
    have hcount := (rwForm (c.cfis cfis 2)).count_le (c.cfis cfis)
    have hoff : (ahciRwTransfer c slot cfis).off.toNat =
        (rwForm (c.cfis cfis 2)).lba (c.cfis cfis) * 512 := by
      rw [ahciRwTransfer, hsectsz, BitVec.toNat_mul, toNat_ahciRwLba]
      exact Nat.mod_eq_of_lt (by simp; omega)
    have hlen : (ahciRwTransfer c slot cfis).len.toNat =
        (rwForm (c.cfis cfis 2)).count (c.cfis cfis) * 512 % 2 ^ 32 := by
      rw [ahciRwTransfer, hsectsz, BitVec.toNat_mul, toNat_ahciRwLen]
      rfl
    rw [AhciTransfer.exact_iff hoff (by omega) hlen]
    omega
  · have hlba := leNat_lt [c.cfis cfis 0x45, c.cfis cfis 0x44, c.cfis cfis 0x43, c.cfis cfis 0x42]
    simp only [List.length_cons, List.length_nil] at hlba
    have hdecoded : (acmd32 c cfis 2).toNat = packetLba (c.cfis cfis) := toNat_acmd32 c cfis 2
    refine AhciTransfer.exact_iff ?_ (by rw [packetLba]; omega) ?_ done
    · rw [atapiReadTransfer, BitVec.toNat_mul, toNat_setWidth_of_lt (by decide), hdecoded,
        packetLba]
      exact Nat.mod_eq_of_lt (by simp; omega)
    · rw [atapiReadTransfer, BitVec.toNat_mul, toNat_atapiReadLen]
      rfl

/-- A READ DMA EXT of 65536 sectors, its count zero. -/
def longRead : PortCtx :=
  ((ahciBlank false).dev.ctx 0).setMem fun a => if a = 0x1002 then 0x25 else 0

theorem command_decoding_exact_iff_zero :
    (ahciRwTransfer longRead 0 0x1000).Exact 0 0 65536 512 :=
  (command_decoding_exact_iff longRead 0 0x1000 0 (by decide)).1.2 (by decide)

/-- A READ_12 packet for 0x200000 sectors. -/
def longPacket : PortCtx :=
  ((ahciBlank true).dev.ctx 0).setMem fun a =>
    if a = 0x1040 then 0xa8 else if a = 0x1047 then 0x20 else 0

/-- A READ_12 of 4 GiB is one of no length. -/
theorem command_decoding_wraps :
    ¬ ∀ (c : PortCtx) (slot : Slot) (cfis : U64), c.blk.bc.bcSectsz = 512 →
      (atapiReadTransfer c slot cfis ((acmd32 c cfis 2).setWidth 64) (atapiReadLen c cfis)).Exact 0
        (packetLba (c.cfis cfis)) (packetCount (c.cfis cfis)) 2048 := by
  intro h
  obtain ⟨-, hlen, -, -⟩ := h longPacket 0 0x1000 (by decide)
  exact absurd hlen (by decide)

end DeviceModel
