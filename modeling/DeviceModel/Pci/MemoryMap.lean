import DeviceModel.Pci.DispatchRuns

/-!
# The memory map that the guest sees

A request goes through the links of `emul_map`, the MMIO registry with its hint, and config space.
What the guest sees of this is a memory map: the BARs that its config writes have placed, config
space below them, and the page table base of the monitor. A request for one device leaves the
other alone.
-/

namespace DeviceModel

variable {T : PciMemTree}

/-! ## The BARs -/

/-- BAR `i` of the function `a` decodes an address. -/
def PciBus.Decodes (s : PciBus T) (addr : U64) (a : PciAddr) (i : Nat) : Prop :=
  ∃ pi, s.devi a = some pi ∧ memen pi = true ∧ i ≤ pciBarmax ∧ (pi.bar i).type.isMem = true ∧
    (barRange pi i).Contains addr

/-- The request with the answer to a read. -/
def EpwRequest.answered (req : EpwRequest) (val : U64) : EpwRequest :=
  if req.isWrite then req else { req with data := val }

/-- The condition on the guest's requests: what is decoded after a config write lies apart. -/
def DmPciLabel.Safe (s : DmPci T) : DmPciLabel → Prop
  | .request req => inLink emulPciBase emulPciSize req.addr = true → req.isWrite = true →
      (∀ a i, ¬ s.bus.Decodes req.addr a i) →
        s.bus.WriteSafe req.cfg req.coff req.dataLen (req.data.setWidth 32)
  | .poll => True

section Decodes

variable {s : PciBus T} {addr : U64} {a b : PciAddr} {i j : Nat}

theorem PciBus.Decodes.mem (h : s.Decodes addr a i) : ∃ pi, s.devi a = some pi ∧
    barRange pi i ∈ s.decoded ∧ (barRange pi i).Contains addr := by
  obtain ⟨pi, hpi, hen, hi, hmem, hc⟩ := h
  exact ⟨pi, hpi, .inr ⟨a, pi, hpi, hen, i, hi, hmem, rfl⟩, hc⟩

/-- In the window, what is registered is decoded. -/
theorem PciBus.Within.decodes (h : s.Within) {r : PciMemRange} (hr : r ∈ s.reg.ranges)
    (hc : r.Contains addr) (hlt : addr.toNat < 0x60060000) :
    ∃ a pi i, s.Decodes addr a i ∧ s.devi a = some pi ∧ r = barRange pi i ∧ r.handler = .emulMem a i := by
  obtain rfl | ⟨a, pi, hpi, hen, i, hi, hmem, rfl⟩ := h.ranges hr
  · have hbase : ecfgRange.base.toNat = 0xFDC00000 := rfl
    have hle : ecfgRange.base.toNat ≤ addr.toNat := hc.1
    omega
  · refine ⟨a, pi, i, ⟨pi, hpi, hen, hi, hmem, hc⟩, hpi, rfl, ?_⟩
    rw [barRange, h.wf.bdf a pi hpi]

/-- One BAR at most decodes an address. -/
theorem PciBus.Mirror.decodes_unique (h : s.Mirror) (ha : s.Decodes addr a i) (hb : s.Decodes addr b j) :
    a = b ∧ i = j := by
  obtain ⟨pi, hpi, hr, hc⟩ := ha.mem
  obtain ⟨pj, hpj, hr', hc'⟩ := hb.mem
  rw [← h.ranges] at hr hr'
  have heq := h.sound.mmio.ranges_unique hr hr' hc hc'
  obtain ⟨hbdf, rfl⟩ := PciMemHandler.emulMem.inj (congrArg MemRange.handler heq)
  exact ⟨(h.wf.bdf a pi hpi).symm.trans (hbdf.trans (h.wf.bdf b pj hpj)), rfl⟩

end Decodes

/-! ## What an access to a BAR changes -/

/-- The function `a` has served an access: its interrupt line and its own state may have changed. -/
structure DmPci.Serves (a : PciAddr) (s t : DmPci T) : Prop where
  bus : ∃ pi d, s.bus.devi a = some pi ∧ t.bus = s.bus.setDevi a (pi.setDevinst d)
  e1000 : a = ahciAddr → t.e1000 = s.e1000
  ahci : a ≠ ahciAddr → t.ahci = s.ahci

theorem PciBus.setDevi_setDevi (s : PciBus T) (a : PciAddr) (pi pj : PciDev) :
    (s.setDevi a pi).setDevi a pj = s.setDevi a pj := by
  simp only [PciBus.setDevi, Function.update_idem]

section Serves

variable {env : DmEnv} {s t u : DmPci T} {a : PciAddr} {idx size : Nat} {offset value : U64}

theorem DmPci.Serves.trans (h : DmPci.Serves a s t) (h' : DmPci.Serves a t u) : DmPci.Serves a s u where
  bus := by
    obtain ⟨pi, d, hpi, hbus⟩ := h.bus
    obtain ⟨pj, d', hpj, hbus'⟩ := h'.bus
    rw [hbus, s.bus.setDevi_same] at hpj
    obtain rfl := Option.some.inj hpj
    refine ⟨pi, d', hpi, ?_⟩
    rw [hbus', hbus, PciBus.setDevi_setDevi]
    rfl
  e1000 ha := (h'.e1000 ha).trans (h.e1000 ha)
  ahci ha := (h'.ahci ha).trans (h.ahci ha)

theorem peBarwrite_serves (h : peBarwrite env s a idx offset size value = .ok t) : DmPci.Serves a s t := by
  obtain ⟨pi, d, hpi, hbus⟩ := peBarwrite_bus h
  refine ⟨⟨pi, d, hpi, hbus⟩, fun ha => ?_, fun ha => ?_⟩
  · subst ha
    rw [peBarwrite, hpi] at h
    obtain ⟨v, -, h⟩ := Except.bind_eq_ok.1 h
    rw [← Except.ok.inj h]
    rfl
  · rw [peBarwrite, hpi] at h
    dsimp only at h
    rw [if_neg ha] at h
    obtain ⟨v, -, h⟩ := Except.bind_eq_ok.1 h
    rw [← Except.ok.inj h]
    rfl

theorem peBarread_serves {r : DmPci T × U64} (h : peBarread s a idx offset size = .ok r) :
    DmPci.Serves a s r.1 := by
  obtain ⟨pi, d, hpi, hbus⟩ := peBarread_bus h
  refine ⟨⟨pi, d, hpi, hbus⟩, fun ha => ?_, fun ha => ?_⟩
  · subst ha
    rw [peBarread, hpi] at h
    obtain ⟨v, -, h⟩ := Except.bind_eq_ok.1 h
    rw [← Except.ok.inj h]
    rfl
  · rw [peBarread, hpi] at h
    dsimp only at h
    rw [if_neg ha] at h
    obtain ⟨v, -, h⟩ := Except.bind_eq_ok.1 h
    rw [← Except.ok.inj h]
    rfl

theorem pciEmulMemAccess_serves {r : DmPci T × U64} {isWrite : Bool}
    (h : pciEmulMemAccess env s a idx isWrite offset size value = .ok r) : DmPci.Serves a s r.1 := by
  rw [pciEmulMemAccess] at h
  split_ifs at h
  · obtain ⟨t, ht, h⟩ := Except.bind_eq_ok.1 h
    obtain ⟨u, hu, h⟩ := Except.bind_eq_ok.1 h
    obtain rfl := Except.ok.inj h
    exact (peBarwrite_serves ht).trans (peBarwrite_serves hu)
  · obtain ⟨t, ht, h⟩ := Except.bind_eq_ok.1 h
    obtain rfl := Except.ok.inj h
    exact peBarwrite_serves ht
  · obtain ⟨t, ht, h⟩ := Except.bind_eq_ok.1 h
    obtain ⟨u, hu, h⟩ := Except.bind_eq_ok.1 h
    obtain rfl := Except.ok.inj h
    have hserves := peBarread_serves hu
    exact (peBarread_serves ht).trans hserves
  · exact peBarread_serves h

theorem pciEmulMemHandler_serves {r : DmPci T × U64} {isWrite : Bool} {addr : U64}
    (h : pciEmulMemHandler env s a idx isWrite addr size value = .ok r) : DmPci.Serves a s r.1 := by
  rw [pciEmulMemHandler] at h
  cases hpi : s.bus.devi a with
  | none => simp [hpi] at h
  | some pi =>
    simp only [hpi] at h
    obtain ⟨_, -, h⟩ := Except.bind_eq_ok.1 h
    obtain ⟨_, -, h⟩ := Except.bind_eq_ok.1 h
    obtain ⟨_, -, h⟩ := Except.bind_eq_ok.1 h
    exact pciEmulMemAccess_serves h

theorem DmPci.Serves.mirror (h : DmPci.Serves a s t) (hs : s.bus.Mirror) : t.bus.Mirror := by
  obtain ⟨pi, d, hpi, hbus⟩ := h.bus
  rw [hbus]
  exact hs.step (.device d hpi) trivial

end Serves

/-! ## One request -/

section Request

variable {env : DmEnv} {s : DmPci T} {req : EpwRequest} {a : PciAddr} {pi : PciDev} {i : Nat}

/-- `emul_mem` where a BAR is registered. -/
theorem emulPci_hit {r : PciMemRange} (hacc : (accessMemory s.bus.reg.mmio req.addr id).2 = .ok r)
    (hhandler : r.handler = .emulMem a i) (hwrite : req.isWrite = true → req.dataLen < 8) :
    emulPci env emulPciBase s req = (do
      let r ← pciEmulMemHandler env (s.hinted req.addr) a i req.isWrite req.addr req.dataLen req.val
      .ok (r.1, req.answered r.2)) := by
  have hmem : ∀ (isWrite : Bool) (val : U64), emulateMem env s req.addr isWrite req.dataLen val = (do
      let r ← pciEmulMemHandler env (s.hinted req.addr) a i isWrite req.addr req.dataLen val
      .ok (r.1, .ok r.2)) := by
    intro isWrite val
    rw [emulateMem_hit hacc, hhandler, memHandler]
  rw [emulPci, emulMem, EpwRequest.val]
  simp only [EpwRequest.answered]
  cases hw : req.isWrite with
  | true =>
    have hassert : kassert "req->data_len < 8" (decide (req.dataLen < 8)) = .ok () := by
      rw [kassert, if_pos (decide_eq_true (hwrite hw))]
    simp only [if_true, hmem]
    rw [Except.bind_ok hassert]
    cases pciEmulMemHandler env (s.hinted req.addr) a i true req.addr req.dataLen req.data <;> rfl
  | false =>
    simp only [Bool.false_eq_true, if_false, hmem]
    cases pciEmulMemHandler env (s.hinted req.addr) a i false req.addr req.dataLen 0 <;> rfl

/-- An access to config space does not touch the softcs, and a read of it nothing at all. -/
theorem emulCfgrw_rest {r : DmPci T × EpwRequest} {coff : Nat} (h : emulCfgrw env s req a coff = .ok r) :
    (r.1.e1000 = s.e1000 ∧ r.1.ahci = s.ahci) ∧ (req.isWrite = false → r.1 = s) := by
  rw [emulCfgrw] at h
  split at h
  next hw =>
    obtain ⟨u, hu, h⟩ := Except.bind_eq_ok.1 h
    obtain rfl := Except.ok.inj h
    rw [bhyvePciCfgrw, if_pos rfl] at hu
    obtain ⟨bus, -, hu⟩ := Except.bind_eq_ok.1 hu
    obtain rfl := Except.ok.inj hu
    exact ⟨⟨rfl, rfl⟩, fun hread => absurd (hread.symm.trans hw) Bool.false_ne_true⟩
  next =>
    obtain ⟨u, hu, h⟩ := Except.bind_eq_ok.1 h
    obtain rfl := Except.ok.inj h
    rw [bhyvePciCfgrw, if_neg Bool.false_ne_true] at hu
    obtain ⟨eax, -, hu⟩ := Except.bind_eq_ok.1 hu
    obtain rfl := Except.ok.inj hu
    exact ⟨⟨rfl, rfl⟩, fun _ => rfl⟩

/-- What a request that returns has done. -/
inductive DmPci.Answers (s : DmPci T) (req : EpwRequest) (t : DmPci T) : Prop where
  /-- a BAR has served it -/
  | bar {a : PciAddr} {i : Nat} : s.bus.Decodes req.addr a i → DmPci.Serves a (s.hinted req.addr) t → Answers s req t
  /-- it was a write to config space -/
  | cfgwrite {env : DmEnv} : inLink emulPciBase emulPciSize req.addr = true → req.isWrite = true →
      (∀ r ∈ s.bus.reg.ranges, ¬ r.Contains req.addr) →
      pciCfgwrite (env.fuel + 1) s.bus req.cfg req.coff req.dataLen (req.data.setWidth 32) = .ok t.bus →
      t.e1000 = s.e1000 → t.ahci = s.ahci → Answers s req t
  /-- it has changed nothing -/
  | same : t = s → Answers s req t

theorem dmRequest_answers (h : s.bus.Within) {satp : U64} {r : DmPci T × EpwRequest × Int}
    (hr : dmRequest env satp s req = .ok r) : s.Answers req r.1 := by
  rw [dmRequest] at hr
  split_ifs at hr with hwin
  · obtain ⟨-, hlt⟩ := inLink_lt hwin
    obtain ⟨u, hu, hr⟩ := Except.bind_eq_ok.1 hr
    obtain rfl := Except.ok.inj hr
    have hwrite : req.isWrite = true → req.dataLen < 8 := by
      obtain ⟨q, hq, -⟩ := Except.bind_eq_ok.1 hu
      exact emulMem_len hq
    obtain ⟨mr, hmr, hc, hacc⟩ | ⟨hnone, -⟩ := h.route req.addr
    · obtain ⟨a, pi, i, hdec, -, -, hhandler⟩ := h.decodes hmr hc hlt
      rw [emulPci_hit hacc hhandler hwrite] at hu
      obtain ⟨v, hv, hu⟩ := Except.bind_eq_ok.1 hu
      obtain rfl := Except.ok.inj hu
      exact .bar hdec (pciEmulMemHandler_serves hv)
    · rw [(emulPci_miss h hnone hwrite).2] at hu
      obtain ⟨hsoftcs, hread⟩ := emulCfgrw_rest hu
      obtain ⟨hw, -⟩ | ⟨hw, hbus⟩ := emulCfgrw_bus hu
      · exact .same (hread hw)
      · exact .cfgwrite hwin hw hnone hbus hsoftcs.1 hsoftcs.2
  · obtain rfl := Except.ok.inj hr
    exact .same rfl
  · obtain rfl := Except.ok.inj hr
    exact .same rfl

/-- An access that lies in a BAR is an access to the device. -/
theorem pciEmulMemHandler_inside (hwf : s.bus.Wf) (hpi : s.bus.devi a = some pi) (hi : i ≤ pciBarmax)
    (hmem : (pi.bar i).type.isMem = true) (hc : (barRange pi i).Contains req.addr)
    (haddr : req.addr.toNat < 2 ^ 63) (hlen : req.dataLen < 2 ^ 62)
    (hend : req.addr.toNat + req.dataLen ≤ (pi.bar i).addr.toNat + (pi.bar i).size.toNat) (val : U64) :
    pciEmulMemHandler env s a i req.isWrite req.addr req.dataLen val =
      pciEmulMemAccess env s a i req.isWrite (req.addr - (pi.bar i).addr) req.dataLen val := by
  have hal := (hwf.dev a pi hpi).aligned i hmem
  rw [pciEmulMemHandler, hpi]
  dsimp only
  rw [kassert, if_pos (decide_eq_true hi), kassert, if_pos hmem, kassert,
    if_pos ((access_end_iff hal hc haddr hlen).2 hend)]
  rfl

end Request

/-! ## Runs of requests -/

section Runs

variable {s t : DmPci T} {a : PciAddr}

theorem Reaches.dm_mirror (h : Reaches (Guarded DmPciStep fun s l => l.Safe s) DmPciInitial s) :
    s.bus.Mirror := by
  refine h.invariant (I := fun s => s.bus.Mirror) (fun s hinit => hinit.started.mirror) ?_
  rintro s l t hs ⟨hstep, hsafe⟩
  cases hstep with
  | @request req r env satp hr =>
    cases dmRequest_answers hs.within hr with
    | bar hdec hserves => exact hserves.mirror (hs.step (.access req.addr) trivial)
    | @cfgwrite env hwin hw hnone hbus _ _ =>
      have hclear : ∀ a i, ¬ s.bus.Decodes req.addr a i := by
        intro a i hdec
        obtain ⟨pi, -, hr, hc⟩ := hdec.mem
        exact hnone _ (hs.ranges ▸ hr) hc
      exact hs.step (.cfgwrite env.fuel hbus) (hsafe hwin hw hclear)
    | same heq => rwa [heq]
  | poll d e1000 ahci hpi => exact hs.step (.device d hpi) trivial

/-- **The memory map.** As long as the guest places its BARs apart, a request in the PCI window is an
access to the one BAR that decodes its address, at the distance from where the guest has placed it,
if all of it lies in the BAR; and where no BAR decodes the address it is an access to config space,
at the function and the register that the address encodes. The tree of the registry, its hint and
the order of the requests before make no difference. -/
theorem dm_request_memory_map (h : Reaches (Guarded DmPciStep fun s l => l.Safe s) DmPciInitial s)
    {req : EpwRequest} (hwin : inLink emulPciBase emulPciSize req.addr = true)
    (hlen : req.dataLen = 1 ∨ req.dataLen = 2 ∨ req.dataLen = 4 ∨ req.dataLen = 8)
    (hwrite : req.isWrite = true → req.dataLen ≠ 8) (env : DmEnv) (satp : U64) :
    (∀ a pi i, s.bus.devi a = some pi → s.bus.Decodes req.addr a i →
      req.addr.toNat + req.dataLen ≤ (pi.bar i).addr.toNat + (pi.bar i).size.toNat →
      (∀ b j, s.bus.Decodes req.addr b j → b = a ∧ j = i) ∧
      dmRequest env satp s req = (do
        let r ← pciEmulMemAccess env (s.hinted req.addr) a i req.isWrite
          (req.addr - (pi.bar i).addr) req.dataLen req.val
        .ok (r.1, req.answered r.2, 0))) ∧
    ((∀ a i, ¬ s.bus.Decodes req.addr a i) → dmRequest env satp s req = (do
        let r ← emulCfgrw env s req req.cfg req.coff
        .ok (r.1, r.2, 0))) := by
  have hmirror := h.dm_mirror
  obtain ⟨-, hlt⟩ := inLink_lt hwin
  have hless : req.isWrite = true → req.dataLen < 8 := fun hw => by have := hwrite hw; omega
  constructor
  · rintro a pi i hpi hdec hend
    refine ⟨fun b j hb => hmirror.decodes_unique hb hdec, ?_⟩
    obtain ⟨pj, hpj, hen, hi, hmem, hc⟩ := hdec
    obtain rfl := Option.some.inj (hpi.symm.trans hpj)
    have hbar : barRange pi i ∈ s.bus.reg.ranges :=
      hmirror.ranges ▸ .inr ⟨a, pi, hpi, hen, i, hi, hmem, rfl⟩
    have hhandler : (barRange pi i).handler = .emulMem a i := by rw [barRange, hmirror.wf.bdf a pi hpi]
    obtain ⟨r, hr, hcr, hacc⟩ | ⟨hnone, -⟩ := hmirror.within.route req.addr
    · obtain rfl := hmirror.sound.mmio.ranges_unique hr hbar hcr hc
      have hwf : (s.hinted req.addr).bus.Wf := hmirror.wf.of_devi rfl
      rw [dmRequest, if_pos hwin, emulPci_hit hacc hhandler hless,
        pciEmulMemHandler_inside hwf hpi hi hmem hc (hlt.trans (by decide)) (by omega) hend]
      cases pciEmulMemAccess env (s.hinted req.addr) a i req.isWrite (req.addr - (pi.bar i).addr)
        req.dataLen req.val <;> rfl
    · exact absurd hc (hnone _ hbar)
  · intro hnone
    have hclear : ∀ r ∈ s.bus.reg.ranges, ¬ r.Contains req.addr := by
      intro r hr hc
      obtain ⟨a, -, i, hdec, -⟩ := hmirror.within.decodes hr hc hlt
      exact hnone a i hdec
    rw [dmRequest, if_pos hwin, (emulPci_miss hmirror.within hclear hless).2]

/-- A request that is for another function than `a`: none of the BARs of `a` decodes it, and a write
to the config space of `a` is taken by a range that is registered. -/
def DmPciLabel.Spares (a : PciAddr) (s : DmPci T) : DmPciLabel → Prop
  | .request req => (∀ i, ¬ s.bus.Decodes req.addr a i) ∧
      (req.isWrite = true → req.cfg = a → ∃ r ∈ s.bus.reg.ranges, r.Contains req.addr)
  | .poll => False

/-- Nothing has changed for `a`. -/
structure DmPci.Spared (a : PciAddr) (s t : DmPci T) : Prop where
  devi : t.bus.devi a = s.bus.devi a
  e1000 : a = e1000Addr → t.e1000 = s.e1000
  ahci : a = ahciAddr → t.ahci = s.ahci

theorem DmPci.Spared.trans {u : DmPci T} (h : DmPci.Spared a s t) (h' : DmPci.Spared a t u) :
    DmPci.Spared a s u :=
  ⟨h'.devi.trans h.devi, fun ha => (h'.e1000 ha).trans (h.e1000 ha), fun ha => (h'.ahci ha).trans (h.ahci ha)⟩

/-- An access to another function. -/
theorem DmPci.Serves.spared {b : PciAddr} (h : DmPci.Serves b s t) (hwf : s.bus.Wf) (hne : b ≠ a) :
    DmPci.Spared a s t := by
  obtain ⟨pi, d, hpi, hbus⟩ := h.bus
  have hb := (hwf.functions b).1 (by rw [hpi]; rfl)
  refine ⟨?_, fun ha => h.e1000 ?_, fun ha => h.ahci ?_⟩
  · rw [hbus, s.bus.setDevi_of_ne _ hne.symm]
  · exact hb.resolve_left fun hb => hne (hb.trans ha.symm)
  · exact fun hb => hne (hb.trans ha.symm)

/-- One request for another function. -/
theorem DmPciStep.spared {l : DmPciLabel} (h : s.bus.Within) (hstep : DmPciStep s l t) (hl : l.Spares a s) :
    DmPci.Spared a s t := by
  cases hstep with
  | @request req r env satp hr =>
    obtain ⟨hbar, hcfg⟩ := hl
    cases dmRequest_answers h hr with
    | @bar b i hdec hserves =>
      have hwf : (s.hinted req.addr).bus.Wf := h.wf.of_devi rfl
      have hne : b ≠ a := by
        rintro rfl
        exact hbar i hdec
      obtain ⟨hdevi, he1000, hahci⟩ := hserves.spared hwf hne
      exact ⟨hdevi, he1000, hahci⟩
    | cfgwrite _ hw hnone hbus he1000 hahci =>
      refine ⟨?_, fun _ => he1000, fun _ => hahci⟩
      by_cases ha : req.cfg = a
      · obtain ⟨mr, hmr, hc⟩ := hcfg hw ha
        exact absurd hc (hnone mr hmr)
      · obtain heq | ⟨pi, u, -, -, -, -, heq⟩ := pciCfgwrite_cases hbus
        · rw [heq]
        · rw [heq, PciBus.setDevi_of_ne _ _ (Ne.symm ha)]
    | same heq => exact heq ▸ ⟨rfl, fun _ => rfl, fun _ => rfl⟩
  | poll d e1000 ahci hpi => exact hl.elim

/-- A register of `a` reads the same. -/
theorem DmPci.Spared.barread (h : DmPci.Spared a s t) (ha : a = e1000Addr ∨ a = ahciAddr) (idx : Nat)
    (offset : U64) (size : Nat) :
    (peBarread t a idx offset size).map Prod.snd = (peBarread s a idx offset size).map Prod.snd := by
  rw [peBarread, peBarread, h.devi]
  cases hpi : s.bus.devi a with
  | none => rfl
  | some pi =>
    dsimp only
    rcases ha with rfl | rfl
    · rw [if_neg (by decide), if_neg (by decide), DmPci.e1000View, DmPci.e1000View, h.e1000 rfl]
      cases e82545Read { s.e1000 with escPi := pi.devinst } idx offset size <;> rfl
    · rw [if_pos rfl, if_pos rfl, DmPci.ahciView, DmPci.ahciView, h.ahci rfl]
      cases ahciBarread { s.ahci with sc := { s.ahci.sc with ascPi := pi.devinst } } idx offset size <;> rfl

/-- **The functions are isolated.** From any state that the guest can reach, any number of requests
for the other function leave the config space, the interrupt line and the registers of `a` as they
were, and a read of a register of `a` then returns what it would have returned before them. -/
theorem dm_requests_isolated {ls : List DmPciLabel} (h : Reaches DmPciStep DmPciInitial s)
    (ha : a = e1000Addr ∨ a = ahciAddr)
    (hrun : Run (Guarded DmPciStep fun s l => l.Spares a s) s ls t) :
    DmPci.Spared a s t ∧ ∀ idx offset size,
      (peBarread t a idx offset size).map Prod.snd = (peBarread s a idx offset size).map Prod.snd := by
  have hspared : Reaches DmPciStep DmPciInitial t ∧ DmPci.Spared a s t := by
    refine hrun.invariant (I := fun u => Reaches DmPciStep DmPciInitial u ∧ DmPci.Spared a s u) ?_ ?_
    · rintro u l v ⟨hreach, hspared⟩ ⟨hstep, hl⟩
      exact ⟨.next hreach hstep, hspared.trans (hstep.spared hreach.dm_within hl)⟩
    · exact ⟨h, rfl, fun _ => rfl, fun _ => rfl⟩
  exact ⟨hspared.2, hspared.2.barread ha⟩

end Runs

/-! ### The bus after initialisation -/

theorem dmPciStart_bars {pi : PciDev} (hpi : dmPciStart.bus.devi e1000Addr = some pi) :
    memen pi = true ∧ pi.bar 0 = ⟨.mem32, 0x20000, 0x60020000⟩ ∧ pi.bar 1 = ⟨.mem32, 0x10000, 0x60040000⟩ := by
  have hbars : (dmPciStart.bus.devi e1000Addr).map (fun pi => (memen pi, pi.bar 0, pi.bar 1)) =
      some (true, ⟨.mem32, 0x20000, 0x60020000⟩, ⟨.mem32, 0x10000, 0x60040000⟩) := by decide +kernel
  rw [hpi] at hbars
  simpa only [Option.map_some, Option.some.injEq, Prod.mk.injEq] using hbars

/-- A read of the status register of the e1000. -/
theorem dm_request_memory_map_status :
    dmRequest dmPciEnv 0 dmPciStart (.read 0x60020008 4) = (do
      let r ← pciEmulMemAccess dmPciEnv (dmPciStart.hinted 0x60020008) e1000Addr 0 false 8 4 0
      .ok (r.1, (EpwRequest.read 0x60020008 4).answered r.2, 0)) := by
  obtain ⟨pi, hpi⟩ := Option.isSome_iff_exists.1 (by decide +kernel : (dmPciStart.bus.devi e1000Addr).isSome = true)
  obtain ⟨hen, hbar, -⟩ := dmPciStart_bars hpi
  have hstart : Reaches (Guarded DmPciStep fun s l => l.Safe s) DmPciInitial dmPciStart :=
    .start dmPciStart_initial
  have hdec : dmPciStart.bus.Decodes 0x60020008 e1000Addr 0 := by
    refine ⟨pi, hpi, hen, by decide, by rw [hbar]; rfl, ?_⟩
    rw [barRange, MemRange.Contains, hbar]
    dsimp only
    decide
  have hmap := (@dm_request_memory_map _ _ hstart (.read 0x60020008 4) (by decide) (by decide)
    (by decide) dmPciEnv 0).1 e1000Addr pi 0 hpi hdec (by rw [hbar]; decide)
  rw [hbar] at hmap
  exact hmap.2

/-- Reading a register of the controller leaves the e1000 alone. -/
theorem dm_requests_isolated_read :
    DmPci.Spared e1000Addr dmPciStart (dmPciStart.handle (.read 0x60050004 4)) := by
  have hspares : DmPciLabel.Spares e1000Addr dmPciStart (.request (.read 0x60050004 4)) := by
    refine ⟨?_, fun hw => nomatch hw⟩
    rintro i ⟨pi, hpi, -, -, hmem, hc⟩
    obtain ⟨-, hbar₀, hbar₁⟩ := dmPciStart_bars hpi
    have htype := (Reaches.dm_within (.start dmPciStart_initial)).wf.type e1000Addr pi hpi i
    rw [bhyveBarType, if_pos rfl] at htype
    rcases i with - | - | i
    · rw [barRange, MemRange.Contains, hbar₀] at hc
      dsimp only at hc
      exact absurd hc (by decide)
    · rw [barRange, MemRange.Contains, hbar₁] at hc
      dsimp only at hc
      exact absurd hc (by decide)
    · rw [if_neg (by omega)] at htype
      rw [htype] at hmem
      split at hmem <;> cases hmem
  have hrun : Run (Guarded DmPciStep fun s l => l.Spares e1000Addr s) dmPciStart
      [.request (.read 0x60050004 4)] (dmPciStart.handle (.read 0x60050004 4)) :=
    .single ⟨DmPci.handle_step (by decide +kernel), hspares⟩
  exact (dm_requests_isolated (.start dmPciStart_initial) (.inl rfl) hrun).1

end DeviceModel
