import DeviceModel.Pci.Effects

/-!
# What a config write does to the BARs

The registry should hold, for each device, the ranges `PciDev.decoded`: its memory
BARs, as long as the command register has `PCIM_CMD_MEMEN` set. A config write of the
guest is one of three kinds (`pciCfgwriteDev_kinds`): it leaves the decoded ranges
alone, it moves one memory BAR, or it writes the command register. `PciDev.after`
says what the device decodes afterwards without looking at the registry.
-/

namespace DeviceModel

/-- The types of BAR that are registered with `register_mem`. -/
def PcibarType.isMem : PcibarType → Bool
  | .mem32 | .mem64 => true
  | _ => false

/-- The memory ranges that a device decodes. -/
def PciDev.decoded (pi : PciDev) : Set PciMemRange :=
  { r | memen pi = true ∧ ∃ i, i ≤ pciBarmax ∧ (pi.bar i).type.isMem = true ∧ r = barRange pi i }

/-- Two states of a device decode the same, as far as memory goes. -/
structure SameDecode (pi pi' : PciDev) : Prop where
  bdf : pi'.bdf = pi.bdf
  memen : memen pi' = memen pi
  type : ∀ i, (pi'.bar i).type = (pi.bar i).type
  bar : ∀ i, (pi.bar i).type.isMem = true → pi'.bar i = pi.bar i

namespace SameDecode

variable {pi pi' pi'' : PciDev}

theorem refl (pi : PciDev) : SameDecode pi pi := ⟨rfl, rfl, fun _ => rfl, fun _ _ => rfl⟩

theorem trans (h : SameDecode pi pi') (h' : SameDecode pi' pi'') : SameDecode pi pi'' where
  bdf := h'.bdf.trans h.bdf
  memen := h'.memen.trans h.memen
  type i := (h'.type i).trans (h.type i)
  bar i hi := (h'.bar i (by rw [h.type i, hi])).trans (h.bar i hi)

theorem symm (h : SameDecode pi pi') : SameDecode pi' pi where
  bdf := h.bdf.symm
  memen := h.memen.symm
  type i := (h.type i).symm
  bar i hi := (h.bar i (by rw [← h.type i, hi])).symm

theorem barRange (h : SameDecode pi pi') {i : Nat} (hi : (pi.bar i).type.isMem = true) :
    barRange pi' i = barRange pi i := by
  rw [DeviceModel.barRange, DeviceModel.barRange, h.bdf, h.bar i hi]

theorem decoded (h : SameDecode pi pi') : pi'.decoded = pi.decoded := by
  ext r
  constructor
  · rintro ⟨hmem, i, hi, htype, rfl⟩
    rw [h.type i] at htype
    exact ⟨h.memen ▸ hmem, i, hi, htype, h.barRange htype⟩
  · rintro ⟨hmem, i, hi, htype, rfl⟩
    exact ⟨h.memen.symm ▸ hmem, i, hi, (h.type i).symm ▸ htype, (h.barRange htype).symm⟩

/-- A change of config space above the command register. -/
theorem of_frame {lo hi : Nat} (h : CfgFrame lo hi pi pi') (hlo : 5 < lo ∨ hi ≤ 4) :
    SameDecode pi pi' where
  bdf := by rw [h.rest]
  memen := by
    have hcommand : pi'.command = pi.command := h.cfg16 hlo
    rw [DeviceModel.memen, DeviceModel.memen, hcommand]
  type i := by rw [h.rest]
  bar i _ := by rw [h.rest]

/-- A change of a BAR that is not a memory BAR. -/
theorem of_setBarAddr {idx : Nat} (h : (pi.bar idx).type.isMem = false) (addr : U64) :
    SameDecode pi (pi.setBarAddr idx addr) where
  bdf := rfl
  memen := rfl
  type i := pi.setBarAddr_type idx addr i
  bar i hi := by
    have hne : i ≠ idx := fun heq => by simp [heq, h] at hi
    exact pi.setBarAddr_bar_of_ne addr hne

end SameDecode

/-! ## Devices whose registers make sense -/

/-- A BAR has a power of two of addresses, and starts at a multiple of it. -/
def Pcibar.Aligned (b : Pcibar) : Prop :=
  (∃ k < 64, b.size.toNat = 2 ^ k) ∧ b.addr &&& (b.size - 1) = 0

/-- What `pci_emul_init` and `pe_init` leave behind and config writes keep: memory
BARs are aligned, the upper half of a 64-bit BAR follows the lower half, and the
capability list is empty or holds one MSI capability. -/
structure PciDev.Wf (pi : PciDev) : Prop where
  aligned : ∀ i, (pi.bar i).type.isMem = true → (pi.bar i).Aligned
  hi : ∀ i, (pi.bar i).type = .memhi64 → 0 < i ∧ (pi.bar (i - 1)).type = .mem64
  caps : pi.capend < capStartOffset ∨
    ((pi.cfg16 pcirStatus &&& pcimStatusCappresent != 0) = true ∧ pi.capend = 0x4f ∧
      pi.cfgdata 0x40 = pciyMsi ∧ pi.cfgdata 0x41 = 0)

/-- Masking with the size of a BAR aligns an address. -/
theorem and_mask_aligned (x size : U64) : (x &&& ~~~(size - 1)) &&& (size - 1) = 0 := by
  rw [BitVec.and_assoc, BitVec.and_comm (~~~(size - 1)), BitVec.and_not_self]
  exact BitVec.and_zero

theorem or_aligned {x y size : U64} (hx : x &&& (size - 1) = 0) (hy : y &&& (size - 1) = 0) :
    (x ||| y) &&& (size - 1) = 0 := by
  rw [BitVec.and_comm, BitVec.and_or_distrib_left, BitVec.and_comm _ x, BitVec.and_comm _ y, hx, hy]
  exact BitVec.or_zero

theorem and_aligned {x size : U64} (mask : U64) (hx : x &&& (size - 1) = 0) :
    (x &&& mask) &&& (size - 1) = 0 := by
  rw [BitVec.and_assoc, BitVec.and_comm mask, ← BitVec.and_assoc, hx]
  exact BitVec.zero_and

/-- An aligned BAR starts at a multiple of its size. -/
theorem Pcibar.Aligned.dvd {b : Pcibar} (h : b.Aligned) : b.size.toNat ∣ b.addr.toNat := by
  obtain ⟨⟨k, hk, hsize⟩, halign⟩ := h
  have hsub : (b.size - 1).toNat = 2 ^ k - 1 := by
    have hpos : 0 < 2 ^ k := Nat.two_pow_pos k
    have hlt : 2 ^ k < 2 ^ 64 := Nat.pow_lt_pow_right (by decide) hk
    have hone : (1 : U64).toNat = 1 := rfl
    rw [BitVec.toNat_sub, hsize, hone]
    omega
  have hand := congrArg BitVec.toNat halign
  rw [BitVec.toNat_and, hsub, Nat.and_two_pow_sub_one_eq_mod] at hand
  rw [hsize]
  exact Nat.dvd_of_mod_eq_zero hand

/-- An aligned BAR ends where 64-bit addresses do, or before. -/
theorem Pcibar.Aligned.proper {pi : PciDev} {i : Nat} (h : (pi.bar i).Aligned) :
    (barRange pi i).Proper := by
  obtain ⟨a, ha⟩ := h.dvd
  obtain ⟨⟨k, hk, hsize⟩, -⟩ := h
  rw [hsize] at ha
  refine ⟨?_, ?_⟩
  · rw [DeviceModel.barRange, hsize]
    exact Nat.two_pow_pos k
  · rw [DeviceModel.barRange, hsize]
    obtain ⟨b, hb⟩ : 2 ^ k ∣ 2 ^ 64 := Nat.pow_dvd_pow 2 hk.le
    have hlt := (pi.bar i).addr.isLt
    rw [ha, hb] at hlt
    have hab : a < b := Nat.lt_of_mul_lt_mul_left hlt
    calc (pi.bar i).addr.toNat + 2 ^ k = 2 ^ k * (a + 1) := by rw [ha, Nat.mul_succ]
      _ ≤ 2 ^ k * b := Nat.mul_le_mul_left _ hab
      _ = 2 ^ 64 := hb.symm

/-! ## What the device decodes after a write -/

/-- The device after a config write, as far as the ranges that it decodes go. -/
def PciDev.after (pi : PciDev) (coff bytes : Nat) (val : U32) : PciDev :=
  if pcirBar 0 ≤ coff ∧ coff < pcirBar (pciBarmax + 1) then
    if bytes ≠ 4 ∨ coff &&& 3 ≠ 0 then pi
    else
      let w := barWrite pi ((coff - pcirBar 0) / 4) val
      match w.addr.bind fun addr => barAddrUpdate (pi.bar w.target).addr addr w.type with
      | some addr => pi.setBarAddr w.target addr
      | none => pi
  else if pciEmulIscap pi coff then pi
  else if pcirCommand ≤ coff ∧ coff < pcirRevid then
    match cmdstsCfgwrite pi coff val bytes with
    | .ok pi' => pi'
    | .error _ => pi
  else pi

/-- The three kinds of config write, for a write of one width and value at one
offset, as functions of the registry. -/
inductive WriteKind (T : PciMemTree) (pi after : PciDev)
    (f : MmioHeap T → Except Stop (MmioHeap T × PciDev)) : Prop where
  /-- the decoded ranges stay -/
  | keep (pi' : PciDev) : SameDecode pi after → SameDecode pi pi' → pi'.Wf →
      (∀ reg, f reg = .ok (reg, pi')) → WriteKind T pi after f
  /-- one memory BAR moves -/
  | move (idx : Nat) (addr : U64) (pi' : PciDev) : idx ≤ pciBarmax →
      (pi.bar idx).type.isMem = true → after = pi.setBarAddr idx addr → SameDecode after pi' →
      pi'.Wf →
      (∀ reg, f reg = do
        let reg ← modifyIfDecoding (memen pi) reg pi idx false
        let reg ← modifyIfDecoding (memen pi) reg after idx true
        .ok (reg, pi')) → WriteKind T pi after f
  /-- the command register -/
  | command (pi' : PciDev) (changed : U16) : after.bdf = pi.bdf → after.bar = pi.bar →
      SameDecode after pi' → pi'.Wf →
      ((changed &&& pcimCmdMemen != 0) = (memen pi ^^ memen after)) →
      (∀ reg, f reg = do
        let reg ← cmdstsBars after changed (List.range (pciBarmax + 1)) reg
        .ok (reg, pi')) → WriteKind T pi after f

namespace PciDev.Wf

variable {pi pi' : PciDev}

/-- `Wf` speaks of the status register and of the header of the capability list. -/
theorem of_bytes (h : pi.Wf) (hbar : pi'.bar = pi.bar) (hcapend : pi'.capend = pi.capend)
    (hstatus : pi'.cfg16 pcirStatus = pi.cfg16 pcirStatus)
    (hid : pi'.cfgdata 0x40 = pi.cfgdata 0x40) (hnext : pi'.cfgdata 0x41 = pi.cfgdata 0x41) :
    pi'.Wf where
  aligned := by
    rw [hbar]
    exact h.aligned
  hi := by
    rw [hbar]
    exact h.hi
  caps := by
    rw [hcapend, hstatus, hid, hnext]
    exact h.caps

theorem of_frame {lo hi : Nat} (h : pi.Wf) (hframe : CfgFrame lo hi pi pi')
    (hstatus : pi'.cfg16 pcirStatus = pi.cfg16 pcirStatus) (hoff : 0x41 < lo ∨ hi ≤ 0x40) :
    pi'.Wf := by
  refine h.of_bytes ?_ ?_ hstatus (hframe.bytes _ ?_) (hframe.bytes _ ?_)
  · rw [hframe.rest]
  · rw [hframe.rest]
  · omega
  · omega

theorem setBarAddr (h : pi.Wf) {idx : Nat} {addr : U64}
    (haddr : (pi.bar idx).type.isMem = true → addr &&& ((pi.bar idx).size - 1) = 0) :
    (pi.setBarAddr idx addr).Wf where
  aligned := by
    intro i hi
    rw [PciDev.setBarAddr_type] at hi
    by_cases hne : i = idx
    · subst hne
      rw [PciDev.setBarAddr_bar_self]
      exact ⟨(h.aligned i hi).1, haddr hi⟩
    · rw [PciDev.setBarAddr_bar_of_ne pi addr hne]
      exact h.aligned i hi
  hi := by
    intro i hi
    rw [PciDev.setBarAddr_type] at hi ⊢
    exact h.hi i hi
  caps := h.caps

end PciDev.Wf

section Kinds

variable {T : PciMemTree} {pi : PciDev} {coff bytes : Nat} {val : U32}

theorem pciSetCfgdata32_returns (pi : PciDev) (val : U32) (hmod : coff % 4 = 0)
    (hle : coff ≤ pciRegmax) : pciSetCfgdata32 pi coff val = .ok (pi.set32 coff val) := by
  have hle' : coff ≤ pciRegmax - 3 := by
    simp only [pciRegmax] at hle ⊢
    omega
  simp [pciSetCfgdata32, assert, hle', and_three_eq_mod, hmod]
  rfl

/-- What a guest write to a BAR register comes to: no new address; a new address of
an i/o BAR; or a new address of a memory BAR, which is aligned like the old one. -/
theorem barWrite_cases (h : pi.Wf) {idx : Nat} (hidx : idx ≤ pciBarmax) (val : U32) :
    let w := barWrite pi idx val
    (w.addr = none ∧ (w.type = .none → (pi.bar w.target).type = .none)) ∨
    (∃ addr, w.addr = some addr ∧ w.type = .io ∧ (pi.bar w.target).type = .io) ∨
    ∃ addr a, w.addr = some addr ∧ w.target ≤ pciBarmax ∧
      (pi.bar w.target).type.isMem = true ∧
      barAddrUpdate (pi.bar w.target).addr addr w.type = some a ∧
      a &&& ((pi.bar w.target).size - 1) = 0 := by
  intro w
  have hw : w = barWrite pi idx val := rfl
  cases htype : (pi.bar idx).type with
  | none =>
    simp only [barWrite, htype] at hw
    rw [hw]
    exact .inl ⟨rfl, fun _ => htype⟩
  | io =>
    simp only [barWrite, htype] at hw
    rw [hw]
    dsimp only
    split_ifs
    · exact .inr (.inl ⟨_, rfl, rfl, htype⟩)
    · exact .inl ⟨rfl, fun heq => (nomatch heq)⟩
  | mem32 =>
    simp only [barWrite, htype] at hw
    rw [hw]
    dsimp only
    split_ifs
    · have hmem : (pi.bar idx).type.isMem = true := by rw [htype]; rfl
      exact .inr (.inr ⟨_, _, rfl, hidx, hmem, rfl, and_mask_aligned _ _⟩)
    · exact .inl ⟨rfl, fun heq => (nomatch heq)⟩
  | mem64 =>
    simp only [barWrite, htype] at hw
    rw [hw]
    dsimp only
    split_ifs
    · have hmem : (pi.bar idx).type.isMem = true := by rw [htype]; rfl
      have hold := (h.aligned idx hmem).2
      exact .inr (.inr ⟨_, _, rfl, hidx, hmem, rfl,
        or_aligned (and_aligned _ hold) (and_mask_aligned _ _)⟩)
    · exact .inl ⟨rfl, fun heq => (nomatch heq)⟩
  | memhi64 =>
    simp only [barWrite, htype] at hw
    rw [hw]
    dsimp only
    split_ifs
    · -- the address goes to the BAR below
      have hmem : (pi.bar (idx - 1)).type.isMem = true := by rw [(h.hi idx htype).2]; rfl
      have hold := (h.aligned (idx - 1) hmem).2
      exact .inr (.inr ⟨_, _, rfl, (Nat.sub_le idx 1).trans hidx, hmem, rfl,
        or_aligned (and_aligned _ hold) (and_mask_aligned _ _)⟩)
    · exact .inl ⟨rfl, fun heq => (nomatch heq)⟩

/-- Where `update_bar_address` is called for a memory BAR, it is as follows. -/
theorem updateBarAddress_mem (reg : MmioHeap T) {addr a : U64} {idx : Nat} {type : PcibarType}
    (hmem : (pi.bar idx).type.isMem = true)
    (hupd : barAddrUpdate (pi.bar idx).addr addr type = some a) :
    updateBarAddress reg pi addr idx type =
      (do let reg ← modifyIfDecoding (memen pi) reg pi idx false
          let reg ← modifyIfDecoding (memen pi) reg (pi.setBarAddr idx a) idx true
          .ok (reg, pi.setBarAddr idx a)) := by
  have hio : (pi.bar idx).type ≠ .io := fun heq => by simp [heq, PcibarType.isMem] at hmem
  simp only [updateBarAddress, if_neg hio, hupd]

/-- For an i/o BAR it changes the address and nothing else. -/
theorem updateBarAddress_io (reg : MmioHeap T) {addr : U64} {idx : Nat}
    (hio : (pi.bar idx).type = .io) :
    updateBarAddress reg pi addr idx .io = .ok (reg, pi.setBarAddr idx addr) := by
  have hio' : ((pi.setBarAddr idx addr).bar idx).type = .io := by
    rw [PciDev.setBarAddr_type, hio]
  have hmod : ∀ (pj : PciDev) (b r : Bool), (pj.bar idx).type = .io →
      modifyIfDecoding b reg pj idx r = .ok reg := by
    intro pj b r hj
    cases b with
    | false => rfl
    | true => simp [modifyIfDecoding, modifyBarRegistration, hj]
  simp only [updateBarAddress, barAddrUpdate]
  rw [hmod pi _ false hio]
  refine (Except.bind_ok rfl).trans ?_
  rw [hmod _ _ true hio']
  rfl

/-- A guest write to a BAR register. -/
theorem pciCfgwriteBar_kind (T : PciMemTree) (h : pi.Wf)
    (hbar : pcirBar 0 ≤ coff ∧ coff < pcirBar (pciBarmax + 1)) :
    WriteKind T pi (pi.after coff bytes val) fun reg => pciCfgwriteBar reg pi coff bytes val := by
  have hafter : pi.after coff bytes val = if bytes ≠ 4 ∨ coff &&& 3 ≠ 0 then pi else
      let w := barWrite pi ((coff - pcirBar 0) / 4) val
      match w.addr.bind fun addr => barAddrUpdate (pi.bar w.target).addr addr w.type with
      | some addr => pi.setBarAddr w.target addr
      | none => pi := by rw [PciDev.after, if_pos hbar]
  by_cases hskip : bytes ≠ 4 ∨ coff &&& 3 ≠ 0
  · rw [hafter, if_pos hskip]
    refine .keep pi (.refl pi) (.refl pi) h fun reg => ?_
    rw [pciCfgwriteBar, if_pos hskip]
  · rw [if_neg hskip] at hafter
    have hmod : coff % 4 = 0 := by
      rw [not_or, not_not, not_not, and_three_eq_mod] at hskip
      exact hskip.2
    simp only [pcirBar, pciBarmax] at hbar
    have hle : coff ≤ pciRegmax := hbar.2.le.trans (by decide)
    have hidx : (coff - pcirBar 0) / 4 ≤ pciBarmax := by
      simp only [pcirBar, pciBarmax]
      omega
    have hhi : ¬((pi.bar ((coff - pcirBar 0) / 4)).type = .memhi64 ∧
        (coff - pcirBar 0) / 4 = 0) := by
      rintro ⟨htype, hzero⟩
      exact absurd (h.hi _ htype).1 (by omega)
    have hset : ∀ (pj : PciDev) (v : U32), CfgFrame coff (coff + 4) pj (pj.set32 coff v) :=
      fun pj v => .set32 pj coff v
    have hwf : ∀ (pj : PciDev) (v : U32), pj.Wf → (pj.set32 coff v).Wf := by
      intro pj v hpj
      have hstatus : pcirStatus + 1 < coff := hbar.1.trans_lt' (by decide)
      exact hpj.of_frame (hset pj v) ((hset pj v).cfg16 (.inl hstatus)) (by omega)
    have hf : ∀ reg : MmioHeap T, pciCfgwriteBar reg pi coff bytes val =
        (do let r ← barMove reg pi (barWrite pi ((coff - pcirBar 0) / 4) val)
            .ok (r.1, r.2.set32 coff
              ((barWrite pi ((coff - pcirBar 0) / 4) val).bar.setWidth 32))) := by
      intro reg
      rw [pciCfgwriteBar, if_neg hskip]
      dsimp only
      rw [if_neg hhi]
      refine bind_congr fun r => ?_
      rw [pciSetCfgdata32_returns r.2 _ hmod hle]
      rfl
    generalize hw : barWrite pi ((coff - pcirBar 0) / 4) val = w at hafter hf
    have hcases := barWrite_cases h hidx val
    rw [hw] at hcases
    obtain ⟨hnone, htype⟩ | ⟨addr, haddr, htype, hio⟩ | ⟨addr, a, haddr, htarget, hmem, hupd, hal⟩ :=
      hcases
    · -- the address stays, or there is no BAR
      have hmove : ∀ reg : MmioHeap T, barMove reg pi w =
          .ok (reg, if w.type = .none then pi.setBarAddr w.target 0 else pi) := by
        intro reg
        rw [barMove, hnone]
      have hpj : SameDecode pi (if w.type = .none then pi.setBarAddr w.target 0 else pi) ∧
          (if w.type = .none then pi.setBarAddr w.target 0 else pi).Wf := by
        split_ifs with hn
        · have hmem : (pi.bar w.target).type.isMem = false := by rw [htype hn]; rfl
          exact ⟨.of_setBarAddr hmem 0, h.setBarAddr fun ht => by simp [hmem] at ht⟩
        · exact ⟨.refl pi, h⟩
      rw [hafter]
      simp only [hnone, Option.bind_none]
      refine .keep _ (.refl pi) (hpj.1.trans (.of_frame (hset _ (w.bar.setWidth 32)) (by omega)))
        (hwf _ _ hpj.2) fun reg => ?_
      rw [hf, hmove]
      rfl
    · have hmem : (pi.bar w.target).type.isMem = false := by rw [hio]; rfl
      have hmove : ∀ reg : MmioHeap T, barMove reg pi w = .ok (reg, pi.setBarAddr w.target addr) := by
        intro reg
        rw [barMove, haddr, htype]
        exact updateBarAddress_io reg hio
      rw [hafter]
      simp only [haddr, htype, Option.bind_some, barAddrUpdate]
      have hsame := SameDecode.of_setBarAddr hmem addr
      refine .keep _ hsame (hsame.trans (.of_frame (hset _ (w.bar.setWidth 32)) (by omega)))
        (hwf _ _ (h.setBarAddr fun ht => by simp [hmem] at ht)) fun reg => ?_
      rw [hf, hmove]
      rfl
    · rw [hafter]
      simp only [haddr, Option.bind_some, hupd]
      refine .move w.target a _ htarget hmem rfl
        (.of_frame (hset _ (w.bar.setWidth 32)) (by omega))
        (hwf _ _ (h.setBarAddr fun _ => hal)) fun reg => ?_
      rw [hf, barMove, haddr]
      dsimp only
      rw [updateBarAddress_mem reg hmem hupd]
      simp only [bind_assoc]
      rfl

/-- A write to the one capability returns, and leaves its header alone. -/
theorem capCfgwrite_msi (hid : pi.cfgdata 0x40 = pciyMsi) {offset bytes : Nat} (val : U32)
    (hlo : 0x42 ≤ offset) (hle : offset ≤ pciRegmax) (halign : cfgAligned offset bytes = true) :
    ∃ pi', capCfgwrite pi 0x40 offset bytes val = .ok pi' ∧ CapEffect 0x42 pi pi' := by
  have hget : pciGetCfgdata8 pi 0x40 = .ok pciyMsi := by
    rw [← hid]
    rfl
  have hcap : capCfgwrite pi 0x40 offset bytes val = msicapCfgwrite pi 0x40 offset bytes val := by
    rw [capCfgwrite, hget]
    rfl
  have hret : Returns (msicapCfgwrite pi 0x40 offset bytes val) := by
    rw [msicapCfgwrite]
    split_ifs with hctrl
    · obtain ⟨rfl, rfl⟩ := hctrl
      have hdata : ∀ b : Bool, 0x40 + (if b = true then 12 else 8) ≤ pciRegmax ∧
          (0x40 + if b = true then 12 else 8) % 2 = 0 := by decide
      refine .bind (pciGetCfgdata16_returns pi (by decide) (by decide)) ?_
      refine .bind (pciGetCfgdata32_returns pi (by decide) (by decide)) ?_
      refine .bind (pciGetCfgdata16_returns pi (hdata _).2 (hdata _).1) ?_
      exact cfgwrite_returns _ _ (by decide) (by decide)
    · exact cfgwrite_returns pi val halign hle
  obtain ⟨pi', hpi'⟩ := hret
  exact ⟨pi', hcap.trans hpi', (CapEffect.of_msicap (hlo.trans' (by decide)) hpi').mono hlo⟩

/-- A guest write to the capability list. -/
theorem pciEmulCapwrite_returns (h : pi.Wf) (fuel : Nat) (val : U32)
    (hcap : pciEmulIscap pi coff = true) (halign : cfgAligned coff bytes = true) :
    ∃ pi', pciEmulCapwrite (fuel + 1) pi coff bytes val = .ok pi' ∧ CapEffect 0x42 pi pi' := by
  simp only [pciEmulIscap, Bool.and_eq_true, decide_eq_true_eq] at hcap
  obtain ⟨-, hlo, hhi⟩ := hcap
  obtain hnone | ⟨-, hend, hid, hnext⟩ := h.caps
  · exact absurd (hlo.trans hhi) (Nat.not_le.2 hnone)
  have hle : coff ≤ pciRegmax := (hhi.trans hend.le).trans (by decide)
  have hfind : findCap pi coff (fuel + 1) (BitVec.ofNat 8 capStartOffset) = .ok 0x40#8 := by
    have hget : pciGetCfgdata8 pi 0x41 = .ok 0 := by
      rw [← hnext]
      rfl
    rw [findCap]
    exact (Except.bind_ok hget).trans rfl
  have hand : coff &&& (bytes - 1) = 0 := by
    simp only [cfgAligned, Bool.and_eq_true, beq_iff_eq] at halign
    exact halign.2
  have hassert : assert "offset >= capoff" (decide ((0x40#8).toNat ≤ coff)) = .ok () :=
    assert_eq_ok.2 (decide_eq_true hlo)
  have heq : pciEmulCapwrite (fuel + 1) pi coff bytes val =
      if coff = 0x40 ∨ coff = 0x41 then
        if coff = 0x40 ∧ bytes = 4 then capCfgwrite pi 0x40 (coff + 2) 2 (val >>> 16) else .ok pi
      else capCfgwrite pi 0x40 coff bytes val := by
    rw [pciEmulCapwrite, if_neg (not_not.2 hand), hfind]
    refine (Except.bind_ok rfl).trans ?_
    rw [hassert]
    rfl
  rw [heq]
  simp only [capStartOffset] at hlo
  split_ifs with hhead htrim
  · -- a 4-byte write at the header is cut down to the upper two bytes
    obtain ⟨rfl, -⟩ := htrim
    exact capCfgwrite_msi hid _ (by decide) (by decide) (by decide)
  · exact ⟨pi, rfl, .refl pi _⟩
  · exact capCfgwrite_msi hid val (by omega) hle halign

/-- One bit of the difference of two words. -/
theorem xor_and_memen (a b : U16) :
    ((a ^^^ b) &&& pcimCmdMemen != 0) = ((a &&& pcimCmdMemen != 0) ^^ (b &&& pcimCmdMemen != 0)) := by
  have hbit : ∀ x : U16, (x &&& pcimCmdMemen != 0) = x.getLsbD 1 := by
    intro x
    have htwo : pcimCmdMemen = BitVec.twoPow 16 1 := by decide
    rw [htwo, BitVec.and_twoPow]
    cases x.getLsbD 1 <;> decide
  rw [hbit, hbit, hbit, BitVec.getLsbD_xor]

namespace PciDev

/-- A word that has been written reads back. -/
theorem cfg16_set16 (pi : PciDev) (offset : Nat) (v : U16) :
    (pi.set16 offset v).cfg16 offset = v := by
  have hlo : (pi.set16 offset v).cfgdata offset = v.setWidth 8 := by simp [set16, set8]
  have hhi : (pi.set16 offset v).cfgdata (offset + 1) = (v >>> 8).setWidth 8 := by
    simp [set16, set8]
  rw [cfg16, hlo, hhi]
  exact @append_halves 8 8 v

/-- Storing a byte that is there already. -/
theorem set8_self (pi : PciDev) (offset : Nat) : pi.set8 offset (pi.cfgdata offset) = pi := by
  rw [set8, Function.update_eq_self]

end PciDev

/-- Where all bits are read-only, a write stores what was there. -/
theorem setWidth_of_readonly {w : Nat} (val old : U32) {readonly : U32} (hw : w ≤ 32)
    (h : readonly.setWidth w = BitVec.allOnes w) :
    ((val &&& ~~~readonly) ||| (old &&& readonly)).setWidth w = old.setWidth w := by
  rw [BitVec.setWidth_or, BitVec.setWidth_and, BitVec.setWidth_and, BitVec.setWidth_not hw, h]
  simp

/-- The upper half of the command and status double word is read-only. -/
theorem ushiftRight_of_readonly (val old : U32) :
    (((val &&& ~~~0xFFFFF880#32) ||| (old &&& 0xFFFFF880#32)) >>> 16).setWidth 16 =
      (old >>> 16).setWidth 16 := by
  rw [BitVec.ushiftRight_or_distrib, BitVec.ushiftRight_and_distrib,
    BitVec.ushiftRight_and_distrib, BitVec.setWidth_or, BitVec.setWidth_and, BitVec.setWidth_and]
  have hval : ((~~~0xFFFFF880#32) >>> 16).setWidth 16 = 0#16 := by decide
  have hold : ((0xFFFFF880#32) >>> 16).setWidth 16 = BitVec.allOnes 16 := by decide
  rw [hval, hold, BitVec.and_zero, BitVec.and_allOnes, BitVec.zero_or]

/-- The status register is read-only. -/
theorem cmdstsCfgwrite_status {pi' : PciDev} (halign : cfgAligned coff bytes = true)
    (hcmd : pcirCommand ≤ coff ∧ coff < pcirRevid)
    (h : cmdstsCfgwrite pi coff val bytes = .ok pi') :
    pi'.cfg16 pcirStatus = pi.cfg16 pcirStatus := by
  obtain ⟨hbytes, hmod⟩ := cfgAligned_iff.1 halign
  obtain ⟨old, hold, hwrite⟩ := Except.bind_eq_ok.1 h
  simp only [pcirCommand, pcirRevid] at hcmd
  by_cases hlow : coff + bytes ≤ 6
  · have hframe := cfgwrite_frame hwrite
    rw [cfgWidth_of_mem hbytes] at hframe
    exact hframe.cfg16 (.inr hlow)
  -- the writes that reach the status register
  have hcases : (coff = 4 ∧ bytes = 4) ∨ (coff = 6 ∧ bytes = 2) ∨ (coff = 6 ∧ bytes = 1) ∨
      (coff = 7 ∧ bytes = 1) := by
    obtain rfl | rfl | rfl := hbytes <;> omega
  obtain ⟨rfl, rfl⟩ | ⟨rfl, rfl⟩ | ⟨rfl, rfl⟩ | ⟨rfl, rfl⟩ := hcases
  · obtain rfl := Except.ok.inj ((pciGetCfgdata32_returns pi (by decide) (by decide)).symm.trans hold)
    obtain rfl := Except.ok.inj
      ((pciSetCfgdata32_returns pi _ (by decide) (by decide)).symm.trans hwrite)
    refine (PciDev.cfg16_set16 _ 6 _).trans ?_
    exact (ushiftRight_of_readonly val _).trans (ushiftRight_append _ (pi.cfg16 4))
  · have hread : cfgread pi 6 2 = .ok ((pi.cfg16 6).setWidth 32) := rfl
    obtain rfl := Except.ok.inj (hread.symm.trans hold)
    obtain rfl : pi.set16 6 _ = pi' := Except.ok.inj hwrite
    refine (PciDev.cfg16_set16 pi 6 _).trans ?_
    rw [setWidth_of_readonly val _ (by decide) (by decide)]
    simp [pcirStatus]
  · have hread : cfgread pi 6 1 = .ok ((pi.cfgdata 6).setWidth 32) := rfl
    obtain rfl := Except.ok.inj (hread.symm.trans hold)
    obtain rfl : pi.set8 6 _ = pi' := Except.ok.inj hwrite
    rw [setWidth_of_readonly val _ (by decide) (by decide), BitVec.setWidth_setWidth_of_le _ (by decide),
      BitVec.setWidth_eq, PciDev.set8_self]
  · have hread : cfgread pi 7 1 = .ok ((pi.cfgdata 7).setWidth 32) := rfl
    obtain rfl := Except.ok.inj (hread.symm.trans hold)
    obtain rfl : pi.set8 7 _ = pi' := Except.ok.inj hwrite
    rw [setWidth_of_readonly val _ (by decide) (by decide), BitVec.setWidth_setWidth_of_le _ (by decide),
      BitVec.setWidth_eq, PciDev.set8_self]

/-- **The three kinds of config write.** -/
theorem pciCfgwriteDev_kinds (T : PciMemTree) (h : pi.Wf) (fuel : Nat)
    (halign : cfgAligned coff bytes = true) (hle : coff ≤ pciRegmax) :
    WriteKind T pi (pi.after coff bytes val)
      fun reg => pciCfgwriteDev (fuel + 1) reg pi coff bytes val := by
  obtain ⟨hbytes, hmod⟩ := cfgAligned_iff.1 halign
  by_cases hbar : pcirBar 0 ≤ coff ∧ coff < pcirBar (pciBarmax + 1)
  · simp only [pciCfgwriteDev, if_pos hbar]
    exact pciCfgwriteBar_kind T h hbar
  by_cases hcap : pciEmulIscap pi coff = true
  · have hafter : pi.after coff bytes val = pi := by
      rw [PciDev.after, if_neg hbar, if_pos hcap]
    obtain ⟨pi', hwrite, heff⟩ := pciEmulCapwrite_returns h fuel val hcap halign
    have hcommand : memen pi' = memen pi := by rw [memen, memen, heff.command (by decide)]
    have hstatus : pi'.cfg16 pcirStatus = pi.cfg16 pcirStatus := by
      rw [PciDev.cfg16, PciDev.cfg16, heff.bytes _ (by decide), heff.bytes _ (by decide)]
    have hwf := h.of_bytes heff.bar heff.capend hstatus (heff.bytes _ (by decide))
      (heff.bytes _ (by decide))
    rw [hafter]
    refine .keep pi' (.refl pi) ⟨heff.bdf, hcommand, ?_, ?_⟩ hwf fun reg => ?_
    · intro i
      rw [heff.bar]
    · intro i _
      rw [heff.bar]
    · rw [pciCfgwriteDev, if_neg hbar, if_pos hcap, hwrite]
      rfl
  by_cases hcmd : pcirCommand ≤ coff ∧ coff < pcirRevid
  · obtain ⟨old, hold⟩ := cfgread_returns pi halign hle
    obtain ⟨pj, hpj⟩ := cfgwrite_returns pi
      ((val &&& ~~~(0xFFFFF880#32 >>> ((coff &&& 3) * 8))) |||
        (old &&& (0xFFFFF880#32 >>> ((coff &&& 3) * 8)))) halign hle
    have hwrite : cmdstsCfgwrite pi coff val bytes = .ok pj := by
      rw [cmdstsCfgwrite, hold]
      exact hpj
    have hafter : pi.after coff bytes val = pj := by
      rw [PciDev.after, if_neg hbar, if_neg hcap, if_pos hcmd, hwrite]
    have hframe := cfgwrite_frame hpj
    rw [cfgWidth_of_mem hbytes] at hframe
    have hoff : coff + bytes ≤ 0x40 := by
      simp only [pcirRevid] at hcmd
      omega
    have hwf : pj.Wf := h.of_frame hframe (cmdstsCfgwrite_status halign hcmd hwrite) (.inr hoff)
    rw [hafter]
    refine .command pj.lintrUpdate (pi.command ^^^ pj.command) (by rw [hframe.rest])
      (by rw [hframe.rest]) ⟨rfl, rfl, fun _ => rfl, fun _ _ => rfl⟩
      (hwf.of_bytes rfl rfl rfl rfl rfl) (xor_and_memen _ _) fun reg => ?_
    rw [pciCfgwriteDev, if_neg hbar, if_neg hcap, if_pos hcmd, pciEmulCmdstsWrite, hwrite]
    rfl
  · have hafter : pi.after coff bytes val = pi := by
      rw [PciDev.after, if_neg hbar, if_neg hcap, if_neg hcmd]
    obtain ⟨pj, hpj⟩ := cfgwrite_returns pi val halign hle
    have hframe := cfgwrite_frame hpj
    rw [cfgWidth_of_mem hbytes] at hframe
    -- an aligned write reaches neither the command nor the status register
    have hlow : 7 < coff ∨ coff + bytes ≤ 4 := by
      simp only [pcirCommand, pcirRevid] at hcmd
      obtain rfl | rfl | rfl := hbytes <;> omega
    have hstatus : pj.cfg16 pcirStatus = pi.cfg16 pcirStatus :=
      hframe.cfg16 (hlow.imp id fun hle => hle.trans (by decide))
    have hwf : pj.Wf := by
      obtain hnone | ⟨hpresent, hend, hid, hnext⟩ := h.caps
      · refine ⟨?_, ?_, .inl ?_⟩
        · rw [hframe.rest]
          exact h.aligned
        · rw [hframe.rest]
          exact h.hi
        · rw [hframe.rest]
          exact hnone
      · have hout : ¬(0x40 ≤ coff ∧ coff ≤ 0x4f) := by
          rintro ⟨hlo, hhi⟩
          apply hcap
          rw [pciEmulIscap, hpresent, hend]
          simp [capStartOffset, hlo, hhi]
        refine h.of_frame hframe hstatus ?_
        obtain rfl | rfl | rfl := hbytes <;> omega
    have hsame : SameDecode pi pj := .of_frame hframe (hlow.imp (by omega) id)
    rw [hafter]
    refine .keep pj (.refl pi) hsame hwf fun reg => ?_
    rw [pciCfgwriteDev, if_neg hbar, if_neg hcap, if_neg hcmd, hpj]
    rfl

end Kinds

end DeviceModel
