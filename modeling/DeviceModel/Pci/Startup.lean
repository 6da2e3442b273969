import DeviceModel.Pci.Mirror

/-!
# The bus that `bhyve_pci_init` leaves

What a bus decodes is the union of what its devices decode, and the range of ECFG.
After `bhyve_pci_init` the registry holds exactly that (`bhyvePciInit_returns`), for
any tree: the pools hand out addresses one after another, so no range overlaps
another.
-/

namespace DeviceModel

variable {T : PciMemTree}

/-! ## What a bus decodes -/

/-- The ranges that should be registered. -/
def PciBus.decoded (s : PciBus T) : Set PciMemRange :=
  insert ecfgRange { r | ∃ a pi, s.devi a = some pi ∧ r ∈ pi.decoded }

/-- Those of them that the device at `a` has no part in. -/
def PciBus.decodedBut (s : PciBus T) (a : PciAddr) : Set PciMemRange :=
  insert ecfgRange { r | ∃ b pi, b ≠ a ∧ s.devi b = some pi ∧ r ∈ pi.decoded }

/-- The types of the BARs of the two functions. -/
def bhyveBarType (a : PciAddr) (i : Nat) : PcibarType :=
  if a = e1000Addr then if i < 2 then .mem32 else if i = 2 then .io else .none
  else if a = ahciAddr ∧ i = 5 then .mem32
  else .none

/-- What holds of the devices, whatever the guest writes to config space. -/
structure PciBus.Wf (s : PciBus T) : Prop where
  functions : ∀ a, (s.devi a).isSome = true ↔ a = e1000Addr ∨ a = ahciAddr
  bdf : ∀ a pi, s.devi a = some pi → pi.bdf = a
  type : ∀ a pi, s.devi a = some pi → ∀ i, (pi.bar i).type = bhyveBarType a i
  dev : ∀ a pi, s.devi a = some pi → pi.Wf

namespace PciBus

variable {s : PciBus T} {a : PciAddr} {pi pi' : PciDev}

theorem decoded_eq (h : s.devi a = some pi) : s.decoded = s.decodedBut a ∪ pi.decoded := by
  ext r
  constructor
  · rintro (rfl | ⟨b, pj, hb, hr⟩)
    · exact .inl (.inl rfl)
    · by_cases hba : b = a
      · subst hba
        obtain rfl := Option.some.inj (h.symm.trans hb)
        exact .inr hr
      · exact .inl (.inr ⟨b, pj, hba, hb, hr⟩)
  · rintro ((rfl | ⟨b, pj, -, hb, hr⟩) | hr)
    · exact .inl rfl
    · exact .inr ⟨b, pj, hb, hr⟩
    · exact .inr ⟨a, pi, h, hr⟩

theorem decoded_setDevi (s : PciBus T) (a : PciAddr) (pi : PciDev) :
    (s.setDevi a pi).decoded = s.decodedBut a ∪ pi.decoded := by
  have hbut : (s.setDevi a pi).decodedBut a = s.decodedBut a := by
    ext r
    refine or_congr_right (exists_congr fun b => exists_congr fun pj => and_congr_right ?_)
    intro hba
    rw [s.setDevi_of_ne pi hba]
  rw [decoded_eq (s.setDevi_same a pi), hbut]

/-- The ranges of the other devices are not the device's own. -/
theorem Wf.foreign (h : s.Wf) (a : PciAddr) : Foreign (s.decodedBut a) a := by
  rintro pi i rfl (heq | ⟨b, pj, hne, hb, -, j, -, -, heq⟩)
  · exact nomatch congrArg MemRange.handler heq
  · refine hne ?_
    rw [(barRange_inj heq).1, h.bdf b pj hb]

/-- Replacing a device by one with the same BARs, but for their addresses. -/
theorem Wf.setDevi (h : s.Wf) (hpi : s.devi a = some pi) (hbdf : pi'.bdf = pi.bdf)
    (htype : ∀ i, (pi'.bar i).type = (pi.bar i).type) (hwf : pi'.Wf) : (s.setDevi a pi').Wf where
  functions b := by
    by_cases hba : b = a
    · subst hba
      rw [s.setDevi_same, ← h.functions b, hpi]
      exact Iff.rfl
    · rw [s.setDevi_of_ne pi' hba]
      exact h.functions b
  bdf b pj hb := by
    by_cases hba : b = a
    · subst hba
      obtain rfl := Option.some.inj ((s.setDevi_same b pi').symm.trans hb)
      exact hbdf.trans (h.bdf b pi hpi)
    · rw [s.setDevi_of_ne pi' hba] at hb
      exact h.bdf b pj hb
  type b pj hb i := by
    by_cases hba : b = a
    · subst hba
      obtain rfl := Option.some.inj ((s.setDevi_same b pi').symm.trans hb)
      exact (htype i).trans (h.type b pi hpi i)
    · rw [s.setDevi_of_ne pi' hba] at hb
      exact h.type b pj hb i
  dev b pj hb := by
    by_cases hba : b = a
    · subst hba
      obtain rfl := Option.some.inj ((s.setDevi_same b pi').symm.trans hb)
      exact hwf
    · rw [s.setDevi_of_ne pi' hba] at hb
      exact h.dev b pj hb

/-- The registry does not matter for the devices. -/
theorem Wf.of_devi {s' : PciBus T} (h : s.Wf) (heq : s'.devi = s.devi) : s'.Wf :=
  ⟨heq ▸ h.functions, heq ▸ h.bdf, heq ▸ h.type, heq ▸ h.dev⟩

end PciBus

/-! ## Allocating the BARs -/

/-- A device after `pci_emul_alloc_pbar` has given it a BAR. -/
def PciDev.allocBar (pi : PciDev) (idx : Nat) (type : PcibarType) (size addr lobits : U64) :
    PciDev :=
  { pi with bar := Function.update pi.bar idx ⟨type, size, addr⟩ }.set32 (pcirBar idx)
    ((addr ||| lobits).setWidth 32)

namespace PciDev

variable (pi : PciDev) (idx : Nat) (type : PcibarType) (size addr lobits : U64)

@[simp] theorem allocBar_bar_self :
    (pi.allocBar idx type size addr lobits).bar idx = ⟨type, size, addr⟩ := by
  simp [allocBar, set32, set16, set8]

end PciDev

/-- `pci_emul_alloc_bar` for a size and pools that leave room. -/
theorem pciEmulAllocBar_eq {s : PciSetup T} {idx : Nat} {type : PcibarType}
    {size size' addr mask lobits : U64} {pools : PciPools} (hidx : idx ≤ pciBarmax)
    (htype : type ≠ .mem64) (hsize : pbarSize type size = .ok size')
    (halloc : pciEmulAllocAddr s.pools 0 type size' = .ok (some (addr, pools, mask, lobits)))
    (hmask : addr &&& mask = addr) :
    pciEmulAllocBar s idx type size =
      (do let reg ← registerBar s.reg (s.pi.allocBar idx type size' addr lobits) idx
          .ok ({ pools := pools, reg := reg, pi := s.pi.allocBar idx type size' addr lobits },
            true)) := by
  have hassert : assert "idx >= 0 && idx <= PCI_BARMAX" (idx ≤ pciBarmax) = .ok () :=
    assert_eq_ok.2 (decide_eq_true hidx)
  have hmod : pcirBar idx % 4 = 0 := by
    simp only [pcirBar]
    omega
  have hle : pcirBar idx ≤ pciRegmax := by
    simp only [pcirBar, pciBarmax, pciRegmax] at hidx ⊢
    omega
  rw [pciEmulAllocBar, pciEmulAllocPbar, hassert, hsize]
  refine (Except.bind_ok rfl).trans ((Except.bind_ok rfl).trans ?_)
  rw [halloc]
  refine (Except.bind_ok rfl).trans ?_
  dsimp only
  rw [hmask, pciSetCfgdata32_returns _ _ hmod hle]
  refine (Except.bind_ok rfl).trans ?_
  rw [if_neg htype]
  rfl

/-- An i/o BAR is registered nowhere. -/
theorem registerBar_io {reg : MmioHeap T} {pi : PciDev} {idx : Nat}
    (h : (pi.bar idx).type = .io) : registerBar reg pi idx = .ok reg := by
  simp [registerBar, modifyBarRegistration, h]

/-- The range of a BAR, written out. -/
theorem barRange_eq {pi : PciDev} {idx : Nat} {type : PcibarType} {size addr : U64}
    (h : pi.bar idx = ⟨type, size, addr⟩) :
    barRange pi idx = ⟨.piName pi.bdf, memFRW, .emulMem pi.bdf idx, addr, size⟩ := by
  rw [barRange, h]

theorem barRange_allocBar (pi : PciDev) (idx : Nat) (type : PcibarType) (size addr lobits : U64) :
    barRange (pi.allocBar idx type size addr lobits) idx =
      ⟨.piName pi.bdf, memFRW, .emulMem pi.bdf idx, addr, size⟩ :=
  barRange_eq (pi.allocBar_bar_self idx type size addr lobits)

/-- All registered ranges end at an address or before. -/
def MmioHeap.Below (reg : MmioHeap T) (limit : Nat) : Prop :=
  ∀ r ∈ reg.ranges, r.base.toNat + r.size.toNat ≤ limit

theorem MemRange.disjoint_of_le {r r' : PciMemRange}
    (h : r.base.toNat + r.size.toNat ≤ r'.base.toNat) : Disjoint r.addresses r'.addresses := by
  refine Set.disjoint_left.2 fun paddr hr hr' => ?_
  have hlt : paddr.toNat < r.base.toNat + r.size.toNat := hr.2
  have hle : r'.base.toNat ≤ paddr.toNat := hr'.1
  omega

/-- `pci_emul_alloc_bar` gives a memory BAR, for a size and pools that leave room
above everything that is registered. -/
theorem pciEmulAllocBar_above {s : PciSetup T} {idx limit k : Nat} {size addr mask : U64}
    {pools : PciPools} (h : s.reg.Sound) (hbelow : s.reg.Below limit) (hidx : idx ≤ pciBarmax)
    (hpbar : pbarSize .mem32 size = .ok size)
    (halloc : pciEmulAllocAddr s.pools 0 .mem32 size = .ok (some (addr, pools, mask, 0)))
    (hmask : addr &&& mask = addr) (hk : k < 64) (hsize : size.toNat = 2 ^ k)
    (hal : addr &&& (size - 1) = 0) (hle : limit ≤ addr.toNat) :
    let pi := s.pi.allocBar idx .mem32 size addr 0
    ∃ reg', pciEmulAllocBar s idx .mem32 size =
        .ok ({ pools := pools, reg := reg', pi := pi }, true) ∧
      reg'.Sound ∧ reg'.ranges = insert (barRange pi idx) s.reg.ranges ∧
      reg'.Below (addr.toNat + size.toNat) := by
  intro pi
  have hbar : pi.bar idx = ⟨.mem32, size, addr⟩ := s.pi.allocBar_bar_self idx .mem32 size addr 0
  have hmem : (pi.bar idx).type.isMem = true := by rw [hbar]; rfl
  have haligned : (pi.bar idx).Aligned := by
    rw [hbar]
    exact ⟨⟨k, hk, hsize⟩, hal⟩
  have habove : ∀ r ∈ s.reg.ranges, r.base.toNat + r.size.toNat ≤ (barRange pi idx).base.toNat := by
    intro r hr
    rw [barRange, hbar]
    exact (hbelow r hr).trans hle
  obtain ⟨reg', hr, h', hranges⟩ := register_fresh h haligned hmem
    fun r hr => MemRange.disjoint_of_le (habove r hr)
  refine ⟨reg', ?_, h', hranges, ?_⟩
  · have htype : PcibarType.mem32 ≠ .mem64 := by decide
    rw [pciEmulAllocBar_eq hidx htype hpbar halloc hmask]
    exact Except.bind_ok hr
  · intro r hr
    rw [hranges] at hr
    obtain rfl | hr := hr
    · rw [barRange, hbar]
    · exact ((hbelow r hr).trans hle).trans (Nat.le_add_right _ _)

/-! ## The two functions -/

/-- The e1000 after `init_pci`. -/
def e1000Dev : PciDev :=
  let pi := (e82545Cfg (pciEmulDevinst e1000Addr)).allocBar 0 .mem32 0x20000 0x60020000 0
  let pi := (pi.allocBar 1 .mem32 0x10000 0x60040000 0).allocBar 2 .io 8 0x2000 1
  pciLintrRoute pi

/-- The controller after `init_pci`, from the device with its capability. -/
def ahciDev (pi : PciDev) : PciDev :=
  pciLintrRoute (pciLintrRequest (pi.allocBar 5 .mem32 0x400 0x60050000 0))

example : (e1000Dev.command, e1000Dev.cfg16 pcirVendor, e1000Dev.cfg32 (pcirBar 0),
    e1000Dev.cfg32 (pcirBar 1), e1000Dev.cfg32 (pcirBar 2)) =
    (7, 0x8086, 0x60020000, 0x60040000, 0x2001) := by decide +kernel

theorem ahciDev_bdf (pi : PciDev) : (ahciDev pi).bdf = pi.bdf := by
  simp only [ahciDev, pciLintrRoute, pciLintrRequest, PciDev.allocBar, PciDev.set8, PciDev.set16,
    PciDev.set32]

theorem ahciDev_lintr (pi : PciDev) : (ahciDev pi).lintr = pi.lintr := by
  simp only [ahciDev, pciLintrRoute, pciLintrRequest, PciDev.allocBar, PciDev.set8, PciDev.set16,
    PciDev.set32]

theorem ahciDev_capend (pi : PciDev) : (ahciDev pi).capend = pi.capend := by
  simp only [ahciDev, pciLintrRoute, pciLintrRequest, PciDev.allocBar, PciDev.set8, PciDev.set16,
    PciDev.set32]

theorem ahciPciInit_caps :
    ∃ r, pciEmulAddMsicap (ahciCfg (pciEmulDevinst ahciAddr)) (ahciMmc defPorts) = .ok r ∧
      r.1.bdf = ahciAddr ∧ r.1.lintr = pciDevinstInit.lintr ∧
      r.1.bar = (fun _ => ⟨.none, 0, 0⟩) ∧ r.1.capend = 0x4f ∧
      (ahciDev r.1).cfg16 pcirStatus &&& pcimStatusCappresent ≠ 0 ∧
      (ahciDev r.1).cfgdata 0x40 = pciyMsi ∧ (ahciDev r.1).cfgdata 0x41 = 0 ∧
      memen (ahciDev r.1) = true := by
  refine ⟨_, rfl, rfl, rfl, rfl, rfl, ?_, ?_, ?_, ?_⟩ <;> decide +kernel

theorem e1000Dev_bdf : e1000Dev.bdf = e1000Addr := by decide +kernel

theorem e1000Dev_bar : e1000Dev.bar 0 = ⟨.mem32, 0x20000, 0x60020000⟩ ∧
    e1000Dev.bar 1 = ⟨.mem32, 0x10000, 0x60040000⟩ := by
  decide +kernel

/-- `e82545_init` returns, with its two memory BARs registered. -/
theorem e82545PciInit_returns {reg : MmioHeap T} (h : reg.Sound) (hbelow : reg.Below 0x60020000) :
    ∃ reg' pi, e82545PciInit ⟨pciPoolsInit, reg, pciEmulDevinst e1000Addr⟩ =
        .ok ⟨⟨0x2008, 0x60050000, 0xD000000000⟩, reg', pi⟩ ∧
      pciLintrRoute pi = e1000Dev ∧ reg'.Sound ∧ reg'.Below 0x60050000 ∧
      reg'.ranges = insert (barRange e1000Dev 1) (insert (barRange e1000Dev 0) reg.ranges) := by
  have hpools₁ : pciEmulAllocAddr pciPoolsInit 0 .mem32 0x20000 =
      .ok (some (0x60020000, ⟨0x2000, 0x60040000, 0xD000000000⟩, 0xfffffffffffffff0, 0)) := rfl
  have hpools₂ : pciEmulAllocAddr ⟨0x2000, 0x60040000, 0xD000000000⟩ 0 .mem32 0x10000 =
      .ok (some (0x60040000, ⟨0x2000, 0x60050000, 0xD000000000⟩, 0xfffffffffffffff0, 0)) := rfl
  have hpools₃ : pciEmulAllocAddr ⟨0x2000, 0x60050000, 0xD000000000⟩ 0 .io 8 =
      .ok (some (0x2000, ⟨0x2008, 0x60050000, 0xD000000000⟩, 0xfffffffc, 1)) := rfl
  let s₀ : PciSetup T := ⟨pciPoolsInit, reg, e82545Cfg (pciEmulDevinst e1000Addr)⟩
  obtain ⟨reg₁, halloc₁, h₁, hranges₁, hbelow₁⟩ :=
    @pciEmulAllocBar_above T s₀ 0 _ 17 0x20000 0x60020000 0xfffffffffffffff0 _ h hbelow (by decide)
      rfl hpools₁ (by decide) (by decide) rfl (by decide) (by decide)
  let s₁ : PciSetup T := ⟨⟨0x2000, 0x60040000, 0xD000000000⟩, reg₁,
    s₀.pi.allocBar 0 .mem32 0x20000 0x60020000 0⟩
  obtain ⟨reg₂, halloc₂, h₂, hranges₂, hbelow₂⟩ :=
    @pciEmulAllocBar_above T s₁ 1 _ 16 0x10000 0x60040000 0xfffffffffffffff0 _ h₁ hbelow₁ (by decide)
      rfl hpools₂ (by decide) (by decide) rfl (by decide) (by decide)
  let s₂ : PciSetup T := ⟨⟨0x2000, 0x60050000, 0xD000000000⟩, reg₂,
    s₁.pi.allocBar 1 .mem32 0x10000 0x60040000 0⟩
  refine ⟨reg₂, s₂.pi.allocBar 2 .io 8 0x2000 1, ?_, rfl, h₂, hbelow₂, ?_⟩
  · have halloc₃ : pciEmulAllocBar s₂ 2 .io 8 =
        .ok (⟨⟨0x2008, 0x60050000, 0xD000000000⟩, reg₂, s₂.pi.allocBar 2 .io 8 0x2000 1⟩, true) := by
      rw [@pciEmulAllocBar_eq T s₂ 2 .io 8 8 0x2000 0xfffffffc 1 _ (by decide) (by decide) rfl
        hpools₃ (by decide)]
      exact Except.bind_ok (registerBar_io (congrArg Pcibar.type (s₂.pi.allocBar_bar_self ..)))
    rw [e82545PciInit]
    refine (Except.bind_ok halloc₁).trans ((Except.bind_ok halloc₂).trans ?_)
    exact Except.bind_ok halloc₃
  · have hbar₁ := barRange_allocBar s₀.pi 0 .mem32 0x20000 0x60020000 0
    have hbar₂ := barRange_allocBar s₁.pi 1 .mem32 0x10000 0x60040000 0
    have hdev₁ := barRange_eq e1000Dev_bar.1
    have hdev₂ := barRange_eq e1000Dev_bar.2
    rw [hranges₂, hranges₁, hbar₁, hbar₂, hdev₁, hdev₂, e1000Dev_bdf]
    rfl

/-- `pci_ahci_init` returns, with its memory BAR registered. -/
theorem ahciPciInit_returns {reg : MmioHeap T} {r : PciDev × Bool}
    (hr : pciEmulAddMsicap (ahciCfg (pciEmulDevinst ahciAddr)) (ahciMmc defPorts) = .ok r)
    (h : reg.Sound) (hbelow : reg.Below 0x60050000) :
    ∃ reg', ahciPciInit 1 ⟨⟨0x2008, 0x60050000, 0xD000000000⟩, reg, pciEmulDevinst ahciAddr⟩ =
        .ok ⟨⟨0x2008, 0x60050400, 0xD000000000⟩, reg',
          pciLintrRequest (r.1.allocBar 5 .mem32 0x400 0x60050000 0)⟩ ∧
      reg'.Sound ∧ reg'.Below 0x60050400 ∧
      reg'.ranges = insert (barRange (r.1.allocBar 5 .mem32 0x400 0x60050000 0) 5) reg.ranges := by
  have hpools : pciEmulAllocAddr ⟨0x2008, 0x60050000, 0xD000000000⟩ 0 .mem32 0x400 =
      .ok (some (0x60050000, ⟨0x2008, 0x60050400, 0xD000000000⟩, 0xfffffffffffffff0, 0)) := rfl
  let s : PciSetup T := ⟨⟨0x2008, 0x60050000, 0xD000000000⟩, reg, r.1⟩
  obtain ⟨reg', halloc, h', hranges, hbelow'⟩ :=
    @pciEmulAllocBar_above T s 5 _ 10 0x400 0x60050000 0xfffffffffffffff0 _ h hbelow (by decide)
      rfl hpools (by decide) (by decide) rfl (by decide) (by decide)
  have hports : max 1 defPorts = defPorts := by decide
  have hsize : BitVec.ofNat 64 (0x100 + defPorts * 0x80) = 0x400#64 := by decide
  refine ⟨reg', ?_, h', hbelow', hranges⟩
  rw [ahciPciInit]
  dsimp only
  rw [hports, hsize, hr]
  refine (Except.bind_ok rfl).trans ?_
  exact Except.bind_ok halloc

/-! ## The bus -/

theorem e1000Dev_bar_eq : e1000Dev.bar =
    Function.update (Function.update (Function.update (fun _ => ⟨.none, 0, 0⟩) 0
      ⟨.mem32, 0x20000, 0x60020000⟩) 1 ⟨.mem32, 0x10000, 0x60040000⟩) 2 ⟨.io, 8, 0x2000⟩ := by
  rfl

theorem e1000Dev_type (i : Nat) : (e1000Dev.bar i).type = bhyveBarType e1000Addr i := by
  rw [e1000Dev_bar_eq]
  obtain rfl | rfl | rfl | hi : i = 0 ∨ i = 1 ∨ i = 2 ∨ 2 < i := by omega
  · rfl
  · rfl
  · rfl
  · have h0 : i ≠ 0 := by omega
    have h1 : i ≠ 1 := by omega
    have h2 : i ≠ 2 := by omega
    have hlt : ¬ i < 2 := by omega
    simp [bhyveBarType, h0, h1, h2, hlt]

theorem e1000Dev_wf : e1000Dev.Wf where
  aligned i hi := by
    rw [e1000Dev_type, bhyveBarType, if_pos rfl] at hi
    obtain hlt | hge := Nat.lt_or_ge i 2
    · obtain rfl | rfl : i = 0 ∨ i = 1 := by omega
      · rw [e1000Dev_bar.1]
        exact ⟨⟨17, by decide, rfl⟩, by decide⟩
      · rw [e1000Dev_bar.2]
        exact ⟨⟨16, by decide, rfl⟩, by decide⟩
    · rw [if_neg (Nat.not_lt.2 hge)] at hi
      split at hi <;> exact nomatch hi
  hi i hi := by
    rw [e1000Dev_type, bhyveBarType, if_pos rfl] at hi
    split at hi
    · exact nomatch hi
    · split at hi <;> exact nomatch hi
  caps := .inl (by decide +kernel)

section Ahci

variable {pi : PciDev} (hbar : pi.bar = fun _ => ⟨.none, 0, 0⟩)

include hbar

theorem ahciDev_bar :
    (ahciDev pi).bar = Function.update (fun _ => ⟨.none, 0, 0⟩) 5 ⟨.mem32, 0x400, 0x60050000⟩ :=
  hbar ▸ rfl

theorem ahciDev_type (i : Nat) : ((ahciDev pi).bar i).type = bhyveBarType ahciAddr i := by
  have hne : ahciAddr ≠ e1000Addr := by decide
  rw [ahciDev_bar hbar, bhyveBarType, if_neg hne]
  by_cases hi : i = 5
  · subst hi
    rfl
  · simp [hi]

theorem ahciDev_wf
    (hcaps : (ahciDev pi).cfg16 pcirStatus &&& pcimStatusCappresent ≠ 0 ∧
      (ahciDev pi).capend = 0x4f ∧ (ahciDev pi).cfgdata 0x40 = pciyMsi ∧
      (ahciDev pi).cfgdata 0x41 = 0) : (ahciDev pi).Wf where
  aligned i hi := by
    by_cases h5 : i = 5
    · subst h5
      rw [ahciDev_bar hbar, Function.update_self]
      exact ⟨⟨10, by decide, rfl⟩, by decide⟩
    · rw [ahciDev_bar hbar, Function.update_of_ne h5] at hi
      exact nomatch hi
  hi i hi := by
    rw [ahciDev_bar hbar] at hi
    by_cases h5 : i = 5
    · subst h5
      exact nomatch hi
    · rw [Function.update_of_ne h5] at hi
      exact nomatch hi
  caps := .inr ⟨bne_iff_ne.2 hcaps.1, hcaps.2⟩

end Ahci

/-- The memory ranges of a device, from the list of its memory BARs. -/
theorem decoded_eq_of_type {pi : PciDev} {is : List Nat} (hen : memen pi = true)
    (h : ∀ i, i ≤ pciBarmax ∧ (pi.bar i).type.isMem = true ↔ i ∈ is) :
    pi.decoded = { r | ∃ i ∈ is, r = barRange pi i } := by
  ext r
  constructor
  · rintro ⟨-, i, hi, hmem, rfl⟩
    exact ⟨i, (h i).1 ⟨hi, hmem⟩, rfl⟩
  · rintro ⟨i, hi, rfl⟩
    obtain ⟨hle, hmem⟩ := (h i).2 hi
    exact ⟨hen, i, hle, hmem, rfl⟩

/-- The devices after `init_pci`. -/
def bhyveDevi (pi : PciDev) : PciAddr → Option PciDev :=
  Function.update (Function.update (fun _ => none) e1000Addr (some e1000Dev)) ahciAddr
    (some (ahciDev pi))

theorem bhyveDevi_apply (pi : PciDev) (a : PciAddr) : bhyveDevi pi a =
    if a = ahciAddr then some (ahciDev pi) else if a = e1000Addr then some e1000Dev else none := by
  simp only [bhyveDevi, Function.update_apply]

theorem bhyveDevi_some {pj pi : PciDev} {a : PciAddr} (h : bhyveDevi pj a = some pi) :
    (a = e1000Addr ∧ pi = e1000Dev) ∨ (a = ahciAddr ∧ pi = ahciDev pj) := by
  rw [bhyveDevi_apply] at h
  split at h
  next ha => exact .inr ⟨ha, (Option.some.inj h).symm⟩
  next =>
    split at h
    next ha => exact .inl ⟨ha, (Option.some.inj h).symm⟩
    next => exact nomatch h

/-- What `bhyve_pci_init` leaves. -/
structure PciBus.Started (s : PciBus T) : Prop where
  wf : s.Wf
  sound : s.reg.Sound
  ranges : s.reg.ranges = s.decoded
  above : ∀ r ∈ s.reg.ranges, 0x60020000 ≤ r.base.toNat
  idle : ∀ a pi, s.devi a = some pi → pi.lintr.state = .idle

theorem bhyveDevi_started {s : PciBus T} {pj : PciDev} (hdevi : s.devi = bhyveDevi pj)
    (h : s.reg.Sound)
    (hranges : s.reg.ranges = insert ecfgRange (insert (barRange (ahciDev pj) 5)
      (insert (barRange e1000Dev 1) {barRange e1000Dev 0})))
    (hbdf : (ahciDev pj).bdf = ahciAddr) (hbar : pj.bar = fun _ => ⟨.none, 0, 0⟩)
    (hwf : (ahciDev pj).Wf) (hen : memen (ahciDev pj) = true)
    (hidle : (ahciDev pj).lintr.state = .idle) : s.Started where
  wf :=
    { functions := by
        intro a
        rw [hdevi, bhyveDevi_apply]
        split_ifs with hahci he1000
        · exact ⟨fun _ => .inr hahci, fun _ => rfl⟩
        · exact ⟨fun _ => .inl he1000, fun _ => rfl⟩
        · exact ⟨fun hnone => (nomatch hnone), fun hor => absurd hor (not_or.2 ⟨he1000, hahci⟩)⟩
      bdf := by
        intro a pi hpi
        rw [hdevi] at hpi
        obtain ⟨rfl, rfl⟩ | ⟨rfl, rfl⟩ := bhyveDevi_some hpi
        · exact e1000Dev_bdf
        · exact hbdf
      type := by
        intro a pi hpi
        rw [hdevi] at hpi
        obtain ⟨rfl, rfl⟩ | ⟨rfl, rfl⟩ := bhyveDevi_some hpi
        · exact e1000Dev_type
        · exact ahciDev_type hbar
      dev := by
        intro a pi hpi
        rw [hdevi] at hpi
        obtain ⟨rfl, rfl⟩ | ⟨rfl, rfl⟩ := bhyveDevi_some hpi
        · exact e1000Dev_wf
        · exact hwf }
  sound := h
  ranges := by
    have he1000 : e1000Dev.decoded = { r | ∃ i ∈ [0, 1], r = barRange e1000Dev i } := by
      refine decoded_eq_of_type (by decide +kernel) fun i => ?_
      rw [e1000Dev_type]
      obtain rfl | rfl | rfl | hi : i = 0 ∨ i = 1 ∨ i = 2 ∨ 2 < i := by omega
      · decide
      · decide
      · decide
      · have hlt : ¬ i < 2 := by omega
        have h0 : i ≠ 0 := by omega
        have h1 : i ≠ 1 := by omega
        have h2 : i ≠ 2 := by omega
        simp [bhyveBarType, hlt, h0, h1, h2, PcibarType.isMem]
    have hahci : (ahciDev pj).decoded = { r | ∃ i ∈ [5], r = barRange (ahciDev pj) i } := by
      refine decoded_eq_of_type hen fun i => ?_
      rw [ahciDev_type hbar]
      by_cases hi : i = 5
      · subst hi
        decide
      · have hne : ahciAddr ≠ e1000Addr := by decide
        simp [bhyveBarType, hi, hne, PcibarType.isMem]
    have hne : e1000Addr ≠ ahciAddr := by decide
    have hdev₀ : s.devi e1000Addr = some e1000Dev := by rw [hdevi, bhyveDevi_apply, if_neg hne, if_pos rfl]
    have hdev₁ : s.devi ahciAddr = some (ahciDev pj) := by rw [hdevi, bhyveDevi_apply, if_pos rfl]
    rw [hranges]
    ext r
    constructor
    · rintro (rfl | rfl | rfl | rfl)
      · exact .inl rfl
      · refine .inr ⟨ahciAddr, _, hdev₁, ?_⟩
        rw [hahci]
        exact ⟨5, by decide, rfl⟩
      · refine .inr ⟨e1000Addr, _, hdev₀, ?_⟩
        rw [he1000]
        exact ⟨1, by decide, rfl⟩
      · refine .inr ⟨e1000Addr, _, hdev₀, ?_⟩
        rw [he1000]
        exact ⟨0, by decide, rfl⟩
    · rintro (rfl | ⟨a, pi, hpi, hr⟩)
      · exact .inl rfl
      · rw [hdevi] at hpi
        obtain ⟨rfl, rfl⟩ | ⟨rfl, rfl⟩ := bhyveDevi_some hpi
        · rw [he1000] at hr
          obtain ⟨i, hi, rfl⟩ := hr
          obtain rfl | rfl : i = 0 ∨ i = 1 := by simpa using hi
          · exact .inr (.inr (.inr rfl))
          · exact .inr (.inr (.inl rfl))
        · rw [hahci] at hr
          obtain ⟨i, hi, rfl⟩ := hr
          obtain rfl : i = 5 := by simpa using hi
          exact .inr (.inl rfl)
  above := by
    rw [hranges]
    rintro r (rfl | rfl | rfl | rfl)
    · decide
    · have hle : 0x60020000 ≤ (0x60050000 : U64).toNat := by decide
      rw [barRange, ahciDev_bar hbar]
      exact hle
    · rw [barRange, e1000Dev_bar.2]
      decide
    · rw [barRange, e1000Dev_bar.1]
      decide
  idle := by
    intro a pi hpi
    rw [hdevi] at hpi
    obtain ⟨rfl, rfl⟩ | ⟨rfl, rfl⟩ := bhyveDevi_some hpi
    · decide +kernel
    · exact hidle

/-- **`bhyve_pci_init` returns**, with every range registered and every line idle. -/
theorem bhyvePciInit_returns (T : PciMemTree) : ∃ s, bhyvePciInit T = .ok s ∧ s.Started := by
  have hempty : (initMem T).ranges = ∅ := by
    rw [Mmio.ranges, initMem, T.elems_init, Set.image_empty]
  obtain ⟨reg₁, pi, hinit₁, hroute, h₁, hbelow₁, hranges₁⟩ :=
    @e82545PciInit_returns T ⟨initMem T, 0⟩ ⟨Mmio.Sound.init, rfl⟩
      fun r hr => absurd (hempty.subset hr) (Set.notMem_empty r)
  obtain ⟨r, hr, hbdf, hlintr, hbar, hend, hpresent, hid, hnext, hen⟩ := ahciPciInit_caps
  obtain ⟨reg₂, hinit₂, h₂, hbelow₂, hranges₂⟩ := ahciPciInit_returns hr h₁ hbelow₁
  have hfresh : ∀ mr ∈ reg₂.mmio.ranges, Disjoint mr.addresses ecfgRange.addresses :=
    fun mr hmr => MemRange.disjoint_of_le ((hbelow₂ mr hmr).trans (by decide))
  obtain ⟨m, hreg, hsound, hranges⟩ := h₂.mmio.registerMem_fresh reg₂.brk (by decide) hfresh
  have hfallback : m.fallback = T.init := by
    obtain rfl := (Prod.mk.inj hreg).1
    exact h₂.fallback
  refine ⟨⟨⟨m, reg₂.brk + 1⟩, bhyveDevi r.1⟩, ?_, bhyveDevi_started rfl ⟨hsound, hfallback⟩ ?_ ?_ hbar
    (ahciDev_wf hbar ⟨hpresent, ?_, hid, hnext⟩) hen ?_⟩
  · rw [bhyvePciInit, initPci]
    refine (Except.bind_ok hinit₁).trans ?_
    refine (Except.bind_ok hinit₂).trans ?_
    dsimp only
    rw [MmioHeap.register, hreg]
    refine (Except.bind_ok rfl).trans ?_
    rw [hroute]
    rfl
  · have hreg₁ : reg₁.ranges = insert (barRange e1000Dev 1) {barRange e1000Dev 0} := by
      rw [hranges₁, MmioHeap.ranges, hempty, insert_empty_eq]
    have hbar₅ : barRange (r.1.allocBar 5 .mem32 0x400 0x60050000 0) 5 =
        barRange (ahciDev r.1) 5 := by
      have hdev : (ahciDev r.1).bar 5 = ⟨.mem32, 0x400, 0x60050000⟩ := by
        rw [ahciDev_bar hbar, Function.update_self]
      rw [barRange_allocBar, barRange_eq hdev, ahciDev_bdf]
    rw [hbar₅, hreg₁] at hranges₂
    rw [← hranges₂]
    exact hranges
  · rw [ahciDev_bdf, hbdf]
  · rw [ahciDev_capend, hend]
  · rw [ahciDev_lintr, hlintr]
    rfl

/-! ## The bus with a list for a tree -/

/-- The bus that `bhyve_pci_init` leaves, with lists for trees. -/
def pciListStart : PciBus OrderedTree.list :=
  outcome (bhyvePciInit OrderedTree.list) ⟨⟨initMem _, 0⟩, fun _ => none⟩

/-- The entries of a registry with a list for a tree. -/
def PciBus.entries (s : PciBus OrderedTree.list) : List (MmioRbRange PciMemName PciMemHandler) :=
  s.reg.mmio.root

theorem pciListStart_init : bhyvePciInit OrderedTree.list = .ok pciListStart :=
  eq_ok_outcome (by decide +kernel)

end DeviceModel
