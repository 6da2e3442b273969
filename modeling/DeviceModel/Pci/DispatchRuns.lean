import DeviceModel.Ahci.System
import DeviceModel.Pci.Dispatch
import DeviceModel.Pci.MirrorRuns

/-!
# Where the requests of the guest go

`emul_pci` looks only at the first byte of an access to find its range, and tries the
registry before config space. Two things follow for the state of the bus in a run of
requests:

* the assertions on the path hold exactly where the access fits the BAR that its
  first byte lies in, and has the width and alignment that the controller asserts
  (`dispatch_asserts_hold_iff`);
* config space is reached as long as no BAR decodes an address of it
  (`config_space_not_shadowed`).
-/

namespace DeviceModel

variable {T : PciMemTree}

/-! ## Calls without a failed assertion -/

section NoAssert

variable {α β : Type}

/-- No assertion of the path fails. -/
def NoAssert (m : Except DispatchStop α) : Prop := ∀ expr, m ≠ .error (.assertion expr)

theorem NoAssert.ok (a : α) : NoAssert (.ok a : Except DispatchStop α) := fun _ h => (nomatch h)

/-- A call whose stops are all inside. -/
theorem NoAssert.inside (m : Except Stop α) : NoAssert (m.mapError DispatchStop.inside) := by
  intro expr h
  cases m with
  | ok a => exact nomatch h
  | error e => exact nomatch h

theorem NoAssert.bind {m : Except DispatchStop α} {f : α → Except DispatchStop β}
    (hm : NoAssert m) (hf : ∀ a, m = .ok a → NoAssert (f a)) : NoAssert (m >>= f) := by
  cases m with
  | ok a => exact hf a rfl
  | error e =>
    intro expr h
    have heq : e = .assertion expr := Except.error.inj h
    exact hm expr (congrArg Except.error heq)

theorem noAssert_bind_ok {m : Except DispatchStop α} {f : α → Except DispatchStop β}
    (hf : ∀ a, NoAssert (f a)) : NoAssert (m >>= f) ↔ NoAssert m := by
  constructor
  · intro h expr hm
    exact h expr (by rw [hm]; rfl)
  · intro h
    exact h.bind fun a _ => hf a

/-- An assertion comes first. -/
theorem noAssert_kassert_bind {expr : String} {b : Bool} {f : Unit → Except DispatchStop β} :
    NoAssert (kassert expr b >>= f) ↔ b = true ∧ NoAssert (f ()) := by
  cases b with
  | true => exact ⟨fun h => ⟨rfl, h⟩, fun h => h.2⟩
  | false =>
    constructor
    · intro h
      exact absurd rfl (h expr)
    · rintro ⟨hfalse, -⟩
      exact nomatch hfalse

end NoAssert

/-! ## The device functions -/

section Devices

variable {env : DmEnv} {s : DmPci T} {pi : PciDev} {offset value : U64} {size : Nat}

theorem ahciBarwrite_noAssert (t : Ahci) :
    NoAssert (ahciBarwrite env t 5 offset value) ↔ offset.toNat % 4 = 0 := by
  have hmod : (offset % 4 == 0) = true ↔ offset.toNat % 4 = 0 := by
    rw [beq_iff_eq, ← BitVec.toNat_inj, BitVec.toNat_umod]
    exact Iff.rfl
  rw [ahciBarwrite, noAssert_kassert_bind, noAssert_kassert_bind, hmod]
  refine ⟨fun h => h.2.1, fun h => ⟨rfl, h, ?_⟩⟩
  exact (NoAssert.inside _).bind fun _ _ => .ok _

theorem ahciBarread_noAssert (t : Ahci) (hsize : size = 1 ∨ size = 2 ∨ size = 4) :
    NoAssert (ahciBarread t 5 offset size) ↔ offset.toNat % size = 0 := by
  have hbool : (size == 1 || size == 2 || size == 4) = true := by
    obtain rfl | rfl | rfl := hsize <;> rfl
  rw [ahciBarread, noAssert_kassert_bind, noAssert_kassert_bind, noAssert_kassert_bind,
    beq_iff_eq (a := offset.toNat % size)]
  exact ⟨fun h => h.2.2.1, fun h => ⟨rfl, hbool, h, .ok _⟩⟩

/-- A write to the controller. -/
theorem peBarwrite_ahci (hpi : s.bus.devi ahciAddr = some pi) :
    NoAssert (peBarwrite env s ahciAddr 5 offset size value) ↔ offset.toNat % 4 = 0 := by
  rw [peBarwrite, hpi]
  dsimp only
  rw [if_pos rfl, noAssert_bind_ok fun _ => .ok _, ahciBarwrite_noAssert]

/-- **What the bus hands to the controller is a step of the controller.** -/
theorem peBarwrite_ahciStep (hpi : s.bus.devi ahciAddr = some pi) {idx : Nat} {t : DmPci T}
    (h : peBarwrite env s ahciAddr idx offset size value = .ok t) :
    AhciStep ⟨s.ahciView pi, false⟩ (.write env.M idx offset value) ⟨t.ahci, false⟩ := by
  rw [peBarwrite, hpi] at h
  dsimp only at h
  rw [if_pos rfl] at h
  have hstop := ahciBarwrite_stop env (s.ahciView pi) idx offset value
  cases hcall : ahciBarwrite env (s.ahciView pi) idx offset value with
  | error e =>
    rw [hcall] at h
    cases h
  | ok u =>
    rw [hcall] at h hstop
    obtain rfl := Except.ok.inj h
    exact .write env.fuel env.M idx offset value rfl hstop.symm

theorem peBarread_ahciStep (hpi : s.bus.devi ahciAddr = some pi) {idx : Nat} {r : DmPci T × U64}
    (h : peBarread s ahciAddr idx offset size = .ok r) :
    AhciStep ⟨s.ahciView pi, false⟩ (.read idx offset size) ⟨r.1.ahci, false⟩ := by
  rw [peBarread, hpi] at h
  dsimp only at h
  rw [if_pos rfl] at h
  have hstop := ahciBarread_stop (s.ahciView pi) idx offset size
  cases hcall : ahciBarread (s.ahciView pi) idx offset size with
  | error e =>
    rw [hcall] at h
    cases h
  | ok u =>
    rw [hcall] at h hstop
    obtain rfl := Except.ok.inj h
    exact .read idx offset size rfl hstop.symm

/-- A write to any other device. -/
theorem peBarwrite_other {a : PciAddr} (ha : a ≠ ahciAddr) {idx : Nat} :
    NoAssert (peBarwrite env s a idx offset size value) := by
  rw [peBarwrite]
  cases s.bus.devi a with
  | none => exact fun _ h => (nomatch h)
  | some pi =>
    dsimp only
    rw [if_neg ha]
    exact (NoAssert.inside _).bind fun _ _ => .ok _

theorem peBarread_ahci (hpi : s.bus.devi ahciAddr = some pi)
    (hsize : size = 1 ∨ size = 2 ∨ size = 4) :
    NoAssert (peBarread s ahciAddr 5 offset size) ↔ offset.toNat % size = 0 := by
  rw [peBarread, hpi]
  dsimp only
  rw [if_pos rfl, noAssert_bind_ok fun _ => .ok _, ahciBarread_noAssert _ hsize]

theorem peBarread_other {a : PciAddr} (ha : a ≠ ahciAddr) {idx : Nat} :
    NoAssert (peBarread s a idx offset size) := by
  rw [peBarread]
  cases s.bus.devi a with
  | none => exact fun _ h => (nomatch h)
  | some pi =>
    dsimp only
    rw [if_neg ha]
    exact (NoAssert.inside _).bind fun _ _ => .ok _

end Devices

/-! ## The access to a BAR -/

section Access

variable {env : DmEnv} {s : DmPci T} {pi : PciDev} {offset val : U64} {size : Nat}

/-- The alignment that the controller asserts of an access. -/
def ahciAlign (isWrite : Bool) (size : Nat) : Nat := if isWrite = true ∨ size = 8 then 4 else size

/-- The second half of an access of 8 bytes is aligned like the first. -/
theorem add_four_mod (offset : U64) : (offset + 4).toNat % 4 = offset.toNat % 4 := by
  have hfour : (4 : U64).toNat = 4 := rfl
  rw [BitVec.toNat_add, hfour]
  omega

theorem pciEmulMemAccess_other {a : PciAddr} (ha : a ≠ ahciAddr) {idx : Nat} (isWrite : Bool) :
    NoAssert (pciEmulMemAccess env s a idx isWrite offset size val) := by
  rw [pciEmulMemAccess]
  split_ifs
  · exact (peBarwrite_other ha).bind fun _ _ => (peBarwrite_other ha).bind fun _ _ => .ok _
  · exact (peBarwrite_other ha).bind fun _ _ => .ok _
  · exact (peBarread_other ha).bind fun _ _ => (peBarread_other ha).bind fun _ _ => .ok _
  · exact peBarread_other ha

/-- The device functions change the interrupt line of their device, and nothing else of the bus. -/
theorem peBarwrite_bus {t : DmPci T} {a : PciAddr} {idx : Nat} {value : U64}
    (h : peBarwrite env s a idx offset size value = .ok t) :
    ∃ pi d, s.bus.devi a = some pi ∧ t.bus = s.bus.setDevi a (pi.setDevinst d) := by
  rw [peBarwrite] at h
  cases hpi : s.bus.devi a with
  | none => simp [hpi] at h
  | some pi =>
    simp only [hpi] at h
    split at h
    · cases hcall : ahciBarwrite env (s.ahciView pi) idx offset value with
      | error e => simp [hcall, bind, Except.bind] at h
      | ok u =>
        rw [hcall] at h
        obtain rfl := Except.ok.inj h
        exact ⟨pi, u.sc.ascPi, rfl, rfl⟩
    · cases hcall : e82545Write env.fuel (s.e1000View pi) idx offset size value with
      | error e => simp [hcall, bind, Except.bind, Except.mapError] at h
      | ok sc =>
        rw [hcall] at h
        obtain rfl := Except.ok.inj h
        exact ⟨pi, sc.escPi, rfl, rfl⟩

theorem peBarread_bus {r : DmPci T × U64} {a : PciAddr} {idx : Nat}
    (h : peBarread s a idx offset size = .ok r) :
    ∃ pi d, s.bus.devi a = some pi ∧ r.1.bus = s.bus.setDevi a (pi.setDevinst d) := by
  rw [peBarread] at h
  cases hpi : s.bus.devi a with
  | none => simp [hpi] at h
  | some pi =>
    simp only [hpi] at h
    split at h
    · cases hcall : ahciBarread (s.ahciView pi) idx offset size with
      | error e => simp [hcall, bind, Except.bind] at h
      | ok u =>
        rw [hcall] at h
        obtain rfl := Except.ok.inj h
        exact ⟨pi, u.1.sc.ascPi, rfl, rfl⟩
    · cases hcall : e82545Read (s.e1000View pi) idx offset size with
      | error e => simp [hcall, bind, Except.bind, Except.mapError] at h
      | ok u =>
        rw [hcall] at h
        obtain rfl := Except.ok.inj h
        exact ⟨pi, u.1.escPi, rfl, rfl⟩

/-- The controller's assertions, for an access of any width but a write of 8 bytes. -/
theorem pciEmulMemAccess_ahci (hpi : s.bus.devi ahciAddr = some pi) (isWrite : Bool)
    (hsize : size = 1 ∨ size = 2 ∨ size = 4 ∨ size = 8) (hwrite : isWrite = true → size ≠ 8) :
    NoAssert (pciEmulMemAccess env s ahciAddr 5 isWrite offset size val) ↔
      offset.toNat % ahciAlign isWrite size = 0 := by
  rw [pciEmulMemAccess, ahciAlign]
  cases isWrite with
  | true =>
    rw [if_pos rfl, if_neg (hwrite rfl), if_pos (.inl rfl), noAssert_bind_ok fun _ => .ok _,
      peBarwrite_ahci hpi]
  | false =>
    rw [if_neg Bool.false_ne_true]
    by_cases h8 : size = 8
    · have hfour : (4 : Nat) = 1 ∨ 4 = 2 ∨ 4 = 4 := .inr (.inr rfl)
      rw [if_pos h8, if_pos (.inr h8), ← peBarread_ahci hpi hfour]
      constructor
      · intro h expr hlo
        refine h expr ?_
        rw [hlo]
        rfl
      · intro h
        refine h.bind fun lo hlo => ?_
        obtain ⟨pi', d, -, hbus⟩ := peBarread_bus hlo
        have hpi' : lo.1.bus.devi ahciAddr = some (pi'.setDevinst d) := by
          rw [hbus, PciBus.setDevi_same]
        rw [noAssert_bind_ok fun _ => .ok _, peBarread_ahci hpi' hfour, add_four_mod]
        exact (peBarread_ahci hpi hfour).1 h
    · have hsize' : size = 1 ∨ size = 2 ∨ size = 4 := by omega
      have hneither : ¬(false = true ∨ size = 8) := not_or.2 ⟨Bool.false_ne_true, h8⟩
      rw [if_neg h8, if_neg hneither, peBarread_ahci hpi hsize']

end Access

/-! ## The handler -/

section Handler

variable {env : DmEnv} {s : DmPci T}

/-- The first byte of an access lies in a BAR; the assertion asks for the rest of it. -/
theorem access_end_iff {pi : PciDev} {i : Nat} (hal : (pi.bar i).Aligned) {addr : U64} {size : Nat}
    (hc : (barRange pi i).Contains addr) (haddr : addr.toNat < 2 ^ 63) (hsize : size < 2 ^ 62) :
    ((pi.bar i).addr ≤ addr &&
        addr + BitVec.ofNat 64 size ≤ (pi.bar i).addr + (pi.bar i).size) = true ↔
      addr.toNat + size ≤ (pi.bar i).addr.toNat + (pi.bar i).size.toNat := by
  obtain ⟨hlo, hhi⟩ : (pi.bar i).addr.toNat ≤ addr.toNat ∧
    addr.toNat < (pi.bar i).addr.toNat + (pi.bar i).size.toNat := hc
  have hproper : (pi.bar i).addr.toNat + (pi.bar i).size.toNat ≤ 2 ^ 64 := hal.proper.2
  -- a BAR that ends at the end of the address space starts in the upper half
  have hlt : (pi.bar i).addr.toNat + (pi.bar i).size.toNat < 2 ^ 64 := by
    obtain ⟨⟨k, hk, hpow⟩, -⟩ := hal
    have hle : 2 ^ k ≤ 2 ^ 63 := Nat.pow_le_pow_right (by decide) (Nat.le_of_lt_succ hk)
    omega
  have hend : (addr + BitVec.ofNat 64 size).toNat = addr.toNat + size := by
    rw [BitVec.toNat_add, BitVec.toNat_ofNat]
    omega
  have hbar : ((pi.bar i).addr + (pi.bar i).size).toNat =
      (pi.bar i).addr.toNat + (pi.bar i).size.toNat := by
    rw [BitVec.toNat_add, Nat.mod_eq_of_lt hlt]
  rw [Bool.and_eq_true, decide_eq_true_eq, decide_eq_true_eq, BitVec.le_def, BitVec.le_def, hend,
    hbar]
  exact ⟨fun h => h.2, fun h => ⟨hlo, h⟩⟩

/-- The condition on an access to a BAR: all of it lies in the BAR, and it is aligned
as the controller asserts. -/
def EpwRequest.Fits (req : EpwRequest) (r : PciMemRange) : Prop :=
  req.addr.toNat + req.dataLen ≤ r.base.toNat + r.size.toNat ∧
    (r.handler = .emulMem ahciAddr 5 →
      (req.addr - r.base).toNat % ahciAlign req.isWrite req.dataLen = 0)

/-- The assertions of `pci_emul_mem_handler` and of the controller, for one access. -/
theorem pciEmulMemHandler_noAssert (hwf : s.bus.Wf) {a : PciAddr} {pi : PciDev} {i : Nat}
    (hpi : s.bus.devi a = some pi) (hi : i ≤ pciBarmax) (hmem : (pi.bar i).type.isMem = true)
    {req : EpwRequest} (hc : (barRange pi i).Contains req.addr) (haddr : req.addr.toNat < 2 ^ 63)
    (hlen : req.dataLen = 1 ∨ req.dataLen = 2 ∨ req.dataLen = 4 ∨ req.dataLen = 8)
    (hwrite : req.isWrite = true → req.dataLen ≠ 8) (val : U64) :
    NoAssert (pciEmulMemHandler env s a i req.isWrite req.addr req.dataLen val) ↔
      req.Fits (barRange pi i) := by
  have hal := (hwf.dev a pi hpi).aligned i hmem
  have hsize : req.dataLen < 2 ^ 62 := by omega
  rw [pciEmulMemHandler, hpi]
  dsimp only
  rw [noAssert_kassert_bind, noAssert_kassert_bind, noAssert_kassert_bind,
    access_end_iff hal hc haddr hsize, EpwRequest.Fits]
  have hidx : decide (i ≤ pciBarmax) = true := decide_eq_true hi
  by_cases ha : a = ahciAddr
  · subst ha
    have htype := hwf.type ahciAddr pi hpi i
    have h5 : i = 5 := by
      by_contra hne
      rw [htype, bhyveBarType, if_neg (by decide), if_neg fun h => hne h.2] at hmem
      cases hmem
    subst h5
    have hhandler : (barRange pi 5).handler = .emulMem ahciAddr 5 := by
      rw [barRange, hwf.bdf ahciAddr pi hpi]
    rw [pciEmulMemAccess_ahci hpi req.isWrite hlen hwrite]
    exact ⟨fun h => ⟨h.2.2.1, fun _ => h.2.2.2⟩, fun h => ⟨hidx, hmem, h.1, h.2 hhandler⟩⟩
  · have hhandler : (barRange pi i).handler ≠ .emulMem ahciAddr 5 := by
      intro heq
      rw [barRange, hwf.bdf a pi hpi] at heq
      exact ha (PciMemHandler.emulMem.inj heq).1
    exact ⟨fun h => ⟨h.2.2.1, fun heq => absurd heq hhandler⟩,
      fun h => ⟨hidx, hmem, h.1, pciEmulMemAccess_other ha req.isWrite⟩⟩

end Handler

/-! ## The path from the request to the handler -/

section Path

variable {env : DmEnv} {s : DmPci T} {req : EpwRequest}

/-- `access_memory` on a bus where only what is decoded is registered. -/
theorem PciBus.Within.route {s : PciBus T} (h : s.Within) (paddr : U64) :
    (∃ r ∈ s.reg.ranges, r.Contains paddr ∧ (accessMemory s.reg.mmio paddr id).2 = .ok r) ∨
    ((∀ r ∈ s.reg.ranges, ¬ r.Contains paddr) ∧
      accessMemory s.reg.mmio paddr id = (s.reg.mmio, .error .esrch)) := by
  by_cases hany : ∃ r ∈ s.reg.ranges, r.Contains paddr
  · obtain ⟨r, hr, hc⟩ := hany
    refine .inl ⟨r, hr, hc, ?_⟩
    obtain ⟨e, he, rfl⟩ := hr
    exact h.sound.mmio.accessMemory_hit he hc id
  · have hnone : ∀ r ∈ s.reg.ranges, ¬ r.Contains paddr := fun r hr hc => hany ⟨r, hr, hc⟩
    refine .inr ⟨hnone, h.sound.mmio.accessMemory_miss h.sound.fallback (fun e he => ?_) id⟩
    exact hnone e.mrParam ⟨e, he, rfl⟩

/-- The bus after the hint has moved. -/
def DmPci.hinted (s : DmPci T) (paddr : U64) : DmPci T :=
  { s with bus := { s.bus with reg := { s.bus.reg with mmio := (accessMemory s.bus.reg.mmio paddr id).1 } } }

theorem emulateMem_hit {paddr val : U64} {isWrite : Bool} {accessWidth : Nat} {r : PciMemRange}
    (hr : (accessMemory s.bus.reg.mmio paddr id).2 = .ok r) :
    emulateMem env s paddr isWrite accessWidth val =
      (do let r ← memHandler env (s.hinted paddr) r.handler isWrite paddr accessWidth val
          .ok (r.1, .ok r.2)) := by
  simp only [emulateMem, hr, DmPci.hinted]

theorem emulateMem_miss {paddr val : U64} {isWrite : Bool} {accessWidth : Nat}
    (hr : accessMemory s.bus.reg.mmio paddr id = (s.bus.reg.mmio, .error .esrch)) :
    emulateMem env s paddr isWrite accessWidth val = .ok (s, .error .esrch) := by
  simp only [emulateMem, hr]

/-- The PCI window of `emul_map`. -/
theorem inLink_lt {addr : U64} (h : inLink emulPciBase emulPciSize addr = true) :
    0x60010000 ≤ addr.toNat ∧ addr.toNat < 0x60060000 := by
  have hbase : emulPciBase.toNat = 0x10000 := rfl
  have hend : (emulPciBase + emulPciSize).toNat = 0x60000 := rfl
  have hwin : epwWindow.toNat = 0x60000000 := rfl
  have hlt := addr.isLt
  rw [inLink, Bool.and_eq_true, decide_eq_true_eq, decide_eq_true_eq, BitVec.le_def, BitVec.lt_def,
    BitVec.toNat_sub, hbase, hend, hwin] at h
  omega

/-- In the window, what is registered is a BAR. -/
theorem PciBus.Within.range_bar {s : PciBus T} (h : s.Within) {r : PciMemRange}
    (hr : r ∈ s.reg.ranges) {paddr : U64} (hc : r.Contains paddr) (hlt : paddr.toNat < 0x60060000) :
    ∃ a pi i, s.devi a = some pi ∧ i ≤ pciBarmax ∧ (pi.bar i).type.isMem = true ∧
      r = barRange pi i ∧ r.handler = .emulMem a i := by
  obtain rfl | ⟨a, pi, hpi, -, i, hi, hmem, rfl⟩ := h.ranges hr
  · have hbase : ecfgRange.base.toNat = 0xFDC00000 := rfl
    have hle : ecfgRange.base.toNat ≤ paddr.toNat := hc.1
    omega
  · refine ⟨a, pi, i, hpi, hi, hmem, rfl, ?_⟩
    rw [barRange, h.wf.bdf a pi hpi]

theorem bhyvePciCfgrw_noAssert (isWrite : Bool) (a : PciAddr) (coff bytes : Nat) (eax : U32) :
    NoAssert (bhyvePciCfgrw env s isWrite a coff bytes eax) := by
  rw [bhyvePciCfgrw]
  split
  · exact (NoAssert.inside _).bind fun _ _ => .ok _
  · exact (NoAssert.inside _).bind fun _ _ => .ok _

theorem emulCfgrw_noAssert (a : PciAddr) (coff : Nat) : NoAssert (emulCfgrw env s req a coff) := by
  rw [emulCfgrw]
  split
  · exact (bhyvePciCfgrw_noAssert _ a coff _ _).bind fun _ _ => .ok _
  · exact (bhyvePciCfgrw_noAssert _ a coff _ _).bind fun _ _ => .ok _

/-- The assertions of `emul_pci` are those of `emul_mem`. -/
theorem emulPci_noAssert (baseEmul : U64) :
    NoAssert (emulPci env baseEmul s req) ↔ NoAssert (emulMem env s req) := by
  refine noAssert_bind_ok fun r => ?_
  cases r.2 with
  | ok req => exact .ok _
  | error e => exact emulCfgrw_noAssert _ _

/-- What `emul_mem` reads into, or writes from. -/
def EpwRequest.val (req : EpwRequest) : U64 := if req.isWrite then req.data else 0

theorem emulMem_noAssert : NoAssert (emulMem env s req) ↔
    (req.isWrite = true → req.dataLen < 8) ∧
      NoAssert (emulateMem env s req.addr req.isWrite req.dataLen req.val) := by
  rw [emulMem, EpwRequest.val]
  cases hw : req.isWrite with
  | true =>
    rw [if_pos rfl, if_pos rfl, noAssert_kassert_bind, noAssert_bind_ok fun _ => .ok _,
      decide_eq_true_eq]
    exact and_congr_left fun _ => ⟨fun h _ => h, fun h => h rfl⟩
  | false =>
    rw [if_neg Bool.false_ne_true, if_neg Bool.false_ne_true, noAssert_bind_ok fun _ => .ok _]
    exact ⟨fun h => ⟨fun hf => (nomatch hf), h⟩, fun h => h.2⟩

/-- **The assertions on the path of one request.** -/
theorem emulPci_noAssert_iff (h : s.bus.Within) {baseEmul : U64}
    (hwin : inLink emulPciBase emulPciSize req.addr = true)
    (hlen : req.dataLen = 1 ∨ req.dataLen = 2 ∨ req.dataLen = 4 ∨ req.dataLen = 8) :
    NoAssert (emulPci env baseEmul s req) ↔ (req.isWrite = true → req.dataLen ≠ 8) ∧
      ∀ r ∈ s.bus.reg.ranges, r.Contains req.addr → req.Fits r := by
  obtain ⟨-, hlt⟩ := inLink_lt hwin
  have hwidth : (req.isWrite = true → req.dataLen < 8) ↔ (req.isWrite = true → req.dataLen ≠ 8) := by
    refine forall_congr' fun _ => ?_
    omega
  rw [emulPci_noAssert, emulMem_noAssert, hwidth]
  refine and_congr_right fun hwrite => ?_
  obtain ⟨r, hr, hc, hacc⟩ | ⟨hnone, hacc⟩ := h.route req.addr
  · obtain ⟨a, pi, i, hpi, hi, hmem, rfl, hhandler⟩ := h.range_bar hr hc hlt
    have hwf : (s.hinted req.addr).bus.Wf := h.wf.of_devi rfl
    rw [emulateMem_hit hacc, noAssert_bind_ok fun _ => .ok _, hhandler, memHandler,
      pciEmulMemHandler_noAssert hwf hpi hi hmem hc (hlt.trans (by decide)) hlen hwrite]
    constructor
    · intro hfits r' hr' hc'
      rw [h.sound.mmio.ranges_unique hr' hr hc' hc]
      exact hfits
    · intro hall
      exact hall _ hr hc
  · rw [emulateMem_miss hacc]
    exact ⟨fun _ r hr hc => absurd hc (hnone r hr), fun _ => .ok _⟩

end Path

/-! ## Runs -/

/-- Steps that are not config writes. -/
structure PciBus.QuietTo (s t : PciBus T) : Prop where
  run : ∃ ls, Run PciStep s ls t
  decoded : t.decoded = s.decoded

namespace PciBus.QuietTo

variable {s t u : PciBus T}

theorem refl (s : PciBus T) : s.QuietTo s := ⟨⟨[], .nil s⟩, rfl⟩

theorem trans (h : s.QuietTo t) (h' : t.QuietTo u) : s.QuietTo u := by
  obtain ⟨⟨ls, hrun⟩, hdec⟩ := h
  obtain ⟨⟨ls', hrun'⟩, hdec'⟩ := h'
  exact ⟨⟨ls ++ ls', hrun.trans hrun'⟩, hdec'.trans hdec⟩

theorem device {a : PciAddr} {pi : PciDev} (hpi : s.devi a = some pi) (d : PciDevinst) :
    s.QuietTo (s.setDevi a (pi.setDevinst d)) :=
  ⟨⟨_, .single (.device d hpi)⟩, PciBus.decoded_setDevinst hpi d⟩

theorem access (s : DmPci T) (paddr : U64) : s.bus.QuietTo (s.hinted paddr).bus :=
  ⟨⟨_, .single (.access paddr)⟩, rfl⟩

end PciBus.QuietTo

section Steps

variable {env : DmEnv} {s : DmPci T} {req : EpwRequest}

theorem peBarwrite_quiet {t : DmPci T} {a : PciAddr} {idx size : Nat} {offset value : U64}
    (h : peBarwrite env s a idx offset size value = .ok t) : s.bus.QuietTo t.bus := by
  obtain ⟨pi, d, hpi, hbus⟩ := peBarwrite_bus h
  rw [hbus]
  exact .device hpi d

theorem peBarread_quiet {r : DmPci T × U64} {a : PciAddr} {idx size : Nat} {offset : U64}
    (h : peBarread s a idx offset size = .ok r) : s.bus.QuietTo r.1.bus := by
  obtain ⟨pi, d, hpi, hbus⟩ := peBarread_bus h
  rw [hbus]
  exact .device hpi d

/-- An access to a BAR does not write to config space. -/
theorem pciEmulMemAccess_quiet {r : DmPci T × U64} {a : PciAddr} {idx size : Nat} {isWrite : Bool}
    {offset val : U64} (h : pciEmulMemAccess env s a idx isWrite offset size val = .ok r) :
    s.bus.QuietTo r.1.bus := by
  rw [pciEmulMemAccess] at h
  split_ifs at h
  · obtain ⟨t, ht, h⟩ := Except.bind_eq_ok.1 h
    obtain ⟨u, hu, h⟩ := Except.bind_eq_ok.1 h
    obtain rfl := Except.ok.inj h
    exact (peBarwrite_quiet ht).trans (peBarwrite_quiet hu)
  · obtain ⟨t, ht, h⟩ := Except.bind_eq_ok.1 h
    obtain rfl := Except.ok.inj h
    exact peBarwrite_quiet ht
  · obtain ⟨t, ht, h⟩ := Except.bind_eq_ok.1 h
    obtain ⟨u, hu, h⟩ := Except.bind_eq_ok.1 h
    obtain rfl := Except.ok.inj h
    have hquiet : t.1.bus.QuietTo u.1.bus := peBarread_quiet hu
    exact (peBarread_quiet ht).trans hquiet
  · exact peBarread_quiet h

theorem pciEmulMemHandler_quiet {r : DmPci T × U64} {a : PciAddr} {idx size : Nat}
    {isWrite : Bool} {addr val : U64}
    (h : pciEmulMemHandler env s a idx isWrite addr size val = .ok r) : s.bus.QuietTo r.1.bus := by
  rw [pciEmulMemHandler] at h
  cases hpi : s.bus.devi a with
  | none => simp [hpi] at h
  | some pi =>
    simp only [hpi] at h
    obtain ⟨_, -, h⟩ := Except.bind_eq_ok.1 h
    obtain ⟨_, -, h⟩ := Except.bind_eq_ok.1 h
    obtain ⟨_, -, h⟩ := Except.bind_eq_ok.1 h
    exact pciEmulMemAccess_quiet h

/-- The function that `emul_pci` takes an address for. -/
def EpwRequest.cfg (req : EpwRequest) : PciAddr := cfgAddr (req.addr - emulPciBase - epwWindow)
def EpwRequest.coff (req : EpwRequest) : Nat := cfgCoff (req.addr - emulPciBase - epwWindow)

/-- An access to a registered BAR, where it returns. -/
theorem emulMem_quiet {a : PciAddr} {i : Nat} {mr : PciMemRange} {q : DmPci T × Except MemErrno EpwRequest}
    (hacc : (accessMemory s.bus.reg.mmio req.addr id).2 = .ok mr)
    (hhandler : mr.handler = .emulMem a i) (h : emulMem env s req = .ok q) :
    s.bus.QuietTo q.1.bus ∧ ∃ req', q.2 = .ok req' := by
  have hmem : ∀ {isWrite : Bool} {val : U64} {r : DmPci T × Except MemErrno U64},
      emulateMem env s req.addr isWrite req.dataLen val = .ok r →
        s.bus.QuietTo r.1.bus ∧ ∃ val', r.2 = .ok val' := by
    intro isWrite val r hr
    rw [emulateMem_hit hacc, hhandler, memHandler] at hr
    obtain ⟨u, hu, hr⟩ := Except.bind_eq_ok.1 hr
    obtain rfl := Except.ok.inj hr
    exact ⟨(PciBus.QuietTo.access s req.addr).trans (pciEmulMemHandler_quiet hu), u.2, rfl⟩
  rw [emulMem] at h
  split at h
  · obtain ⟨_, -, h⟩ := Except.bind_eq_ok.1 h
    obtain ⟨r, hr, h⟩ := Except.bind_eq_ok.1 h
    obtain ⟨hquiet, val', hval⟩ := hmem hr
    obtain rfl := Except.ok.inj h
    exact ⟨hquiet, req, by rw [hval]; rfl⟩
  · obtain ⟨r, hr, h⟩ := Except.bind_eq_ok.1 h
    obtain ⟨hquiet, val', hval⟩ := hmem hr
    obtain rfl := Except.ok.inj h
    exact ⟨hquiet, { req with data := val' }, by rw [hval]; rfl⟩

/-- A request that no registered range contains goes to config space. -/
theorem emulPci_miss (h : s.bus.Within) (hnone : ∀ r ∈ s.bus.reg.ranges, ¬ r.Contains req.addr)
    (hlen : req.isWrite = true → req.dataLen < 8) :
    (accessMemory s.bus.reg.mmio req.addr id).2 = .error .esrch ∧
      emulPci env emulPciBase s req = emulCfgrw env s req req.cfg req.coff := by
  obtain ⟨r, hr, hc, -⟩ | ⟨-, hacc⟩ := h.route req.addr
  · exact absurd hc (hnone r hr)
  refine ⟨by rw [hacc], ?_⟩
  have hmem : emulMem env s req = .ok (s, .error .esrch) := by
    rw [emulMem]
    split
    next hw =>
      have hassert : kassert "req->data_len < 8" (decide (req.dataLen < 8)) = .ok () := by
        rw [kassert, if_pos (decide_eq_true (hlen hw))]
      exact (Except.bind_ok hassert).trans (Except.bind_ok (emulateMem_miss hacc))
    next => exact Except.bind_ok (emulateMem_miss hacc)
  rw [emulPci]
  exact (Except.bind_ok hmem).trans rfl

/-- `emul_pci` in the window: an access to a BAR, or an access to config space. -/
theorem emulPci_cases (h : s.bus.Within) (hwin : inLink emulPciBase emulPciSize req.addr = true) :
    (∀ r, emulPci env emulPciBase s req = .ok r → s.bus.QuietTo r.1.bus) ∨
    ∀ r ∈ s.bus.reg.ranges, ¬ r.Contains req.addr := by
  obtain ⟨-, hlt⟩ := inLink_lt hwin
  obtain ⟨r, hr, hc, hacc⟩ | ⟨hnone, -⟩ := h.route req.addr
  · obtain ⟨a, pi, i, -, -, -, rfl, hhandler⟩ := h.range_bar hr hc hlt
    refine .inl fun r hr => ?_
    obtain ⟨q, hq, hr⟩ := Except.bind_eq_ok.1 hr
    obtain ⟨hquiet, req', hreq'⟩ := emulMem_quiet hacc hhandler hq
    rw [hreq'] at hr
    obtain rfl := Except.ok.inj hr
    exact hquiet
  · exact .inr hnone

theorem emulMem_len {q : DmPci T × Except MemErrno EpwRequest} (h : emulMem env s req = .ok q)
    (hw : req.isWrite = true) : req.dataLen < 8 := by
  rw [emulMem, if_pos hw] at h
  obtain ⟨_, hassert, -⟩ := Except.bind_eq_ok.1 h
  rw [kassert] at hassert
  split at hassert
  next hlt => exact of_decide_eq_true hlt
  next => cases hassert

theorem emulCfgrw_bus {r : DmPci T × EpwRequest} {a : PciAddr} {coff : Nat}
    (h : emulCfgrw env s req a coff = .ok r) :
    (req.isWrite = false ∧ r.1.bus = s.bus) ∨
    (req.isWrite = true ∧ pciCfgwrite (env.fuel + 1) s.bus a coff req.dataLen
      (req.data.setWidth 32) = .ok r.1.bus) := by
  rw [emulCfgrw] at h
  cases hw : req.isWrite with
  | true =>
    rw [hw, if_pos rfl] at h
    obtain ⟨u, hu, h⟩ := Except.bind_eq_ok.1 h
    obtain rfl := Except.ok.inj h
    rw [bhyvePciCfgrw, if_pos rfl] at hu
    obtain ⟨bus, hbus, hu⟩ := Except.bind_eq_ok.1 hu
    obtain rfl := Except.ok.inj hu
    refine .inr ⟨rfl, ?_⟩
    cases hwrite : pciCfgwrite (env.fuel + 1) s.bus a coff req.dataLen (req.data.setWidth 32) with
    | error e => exact nomatch (hwrite ▸ hbus : Except.mapError _ (.error e) = .ok bus)
    | ok bus' =>
      rw [hwrite] at hbus
      have heq : bus' = bus := Except.ok.inj hbus
      rw [heq]
  | false =>
    rw [hw, if_neg Bool.false_ne_true] at h
    obtain ⟨u, hu, h⟩ := Except.bind_eq_ok.1 h
    obtain rfl := Except.ok.inj h
    rw [bhyvePciCfgrw, if_neg Bool.false_ne_true] at hu
    obtain ⟨eax, -, hu⟩ := Except.bind_eq_ok.1 hu
    obtain rfl := Except.ok.inj hu
    exact .inl ⟨rfl, rfl⟩

/-- **What a request does to the bus.** It writes to config space, or it does not. -/
theorem dmRequest_cases (h : s.bus.Within) {satp : U64} {r : DmPci T × EpwRequest × Int}
    (hr : dmRequest env satp s req = .ok r) :
    s.bus.QuietTo r.1.bus ∨
    (inLink emulPciBase emulPciSize req.addr = true ∧ req.isWrite = true ∧
      pciCfgwrite (env.fuel + 1) s.bus req.cfg req.coff req.dataLen (req.data.setWidth 32) =
        .ok r.1.bus) := by
  rw [dmRequest] at hr
  split_ifs at hr with hwin
  · obtain ⟨u, hu, hr⟩ := Except.bind_eq_ok.1 hr
    obtain rfl := Except.ok.inj hr
    obtain hquiet | hnone := emulPci_cases h hwin
    · exact .inl (hquiet u hu)
    · obtain ⟨q, hq, -⟩ := Except.bind_eq_ok.1 hu
      rw [(emulPci_miss h hnone (emulMem_len hq)).2] at hu
      obtain ⟨-, hbus⟩ | ⟨hw, hwrite⟩ := emulCfgrw_bus hu
      · rw [hbus]
        exact .inl (.refl _)
      · exact .inr ⟨hwin, hw, hwrite⟩
  · obtain rfl := Except.ok.inj hr
    exact .inl (.refl _)
  · obtain rfl := Except.ok.inj hr
    exact .inl (.refl _)

end Steps

/-! ### The runs of `dm_loop` -/

/-- What can happen between the guest and the bus. -/
inductive DmPciLabel : Type where
  /-- `dm_request` handles a request of the guest -/
  | request (req : EpwRequest)
  /-- `e1000_poll` or `blockif_thr` -/
  | poll

/-- The requests that return, and whatever the polled functions do to the devices. -/
inductive DmPciStep : DmPci T → DmPciLabel → DmPci T → Prop where
  | request {s : DmPci T} {req : EpwRequest} {r : DmPci T × EpwRequest × Int} (env : DmEnv)
      (satp : U64) : dmRequest env satp s req = .ok r → DmPciStep s (.request req) r.1
  | poll {s : DmPci T} {a : PciAddr} {pi : PciDev} (d : PciDevinst) (e1000 : E82545Softc)
      (ahci : Ahci) : s.bus.devi a = some pi →
      DmPciStep s .poll
        { bus := s.bus.setDevi a (pi.setDevinst d), e1000 := e1000, ahci := ahci }

/-- After `emul_pci_init`. -/
def DmPciInitial (s : DmPci T) : Prop := PciInitial s.bus

section Runs

variable {s t : DmPci T} {l : DmPciLabel}

/-- A step writes to config space, or it does not. -/
theorem DmPciStep.bus (h : s.bus.Within) (hstep : DmPciStep s l t) :
    s.bus.QuietTo t.bus ∨
    ∃ req fuel, l = .request req ∧ inLink emulPciBase emulPciSize req.addr = true ∧
      req.isWrite = true ∧ pciCfgwrite (fuel + 1) s.bus req.cfg req.coff req.dataLen
        (req.data.setWidth 32) = .ok t.bus := by
  cases hstep with
  | @request req r env satp hr =>
    obtain hquiet | ⟨hwin, hw, hwrite⟩ := dmRequest_cases h hr
    · exact .inl hquiet
    · exact .inr ⟨req, env.fuel, rfl, hwin, hw, hwrite⟩
  | poll d e1000 ahci hpi => exact .inl (.device hpi d)

/-- A run of requests is a run of the bus. -/
theorem PciBus.QuietTo.within {s t : PciBus T} (h : s.Within) (hquiet : s.QuietTo t) : t.Within := by
  obtain ⟨ls, hrun⟩ := hquiet.run
  exact hrun.invariant (fun _ _ _ hs hstep => hs.step hstep) h

theorem Reaches.dm_within (h : Reaches DmPciStep DmPciInitial s) : s.bus.Within := by
  refine h.invariant (I := fun s => s.bus.Within) ?_ ?_
  · intro s hinit
    exact hinit.started.mirror.within
  · intro s l t hs hstep
    obtain hquiet | ⟨req, fuel, -, -, -, hwrite⟩ := hstep.bus hs
    · exact hquiet.within hs
    · exact hs.cfgwrite hwrite

/-- **The assertions on the path of a request** hold exactly where it is no write of 8
bytes, and the access fits the range that its first byte lies in. -/
theorem dispatch_asserts_hold_iff (h : Reaches DmPciStep DmPciInitial s) {req : EpwRequest}
    (hwin : inLink emulPciBase emulPciSize req.addr = true)
    (hlen : req.dataLen = 1 ∨ req.dataLen = 2 ∨ req.dataLen = 4 ∨ req.dataLen = 8) (env : DmEnv) :
    NoAssert (emulPci env emulPciBase s req) ↔ (req.isWrite = true → req.dataLen ≠ 8) ∧
      ∀ r ∈ s.bus.reg.ranges, r.Contains req.addr → req.Fits r :=
  emulPci_noAssert_iff h.dm_within hwin hlen

/-! ### An access to a fresh bus -/

/-- Both devices after initialisation, on the bus with lists for trees. -/
def dmPciStart : DmPci OrderedTree.list where
  bus := pciListStart
  e1000 := e82545Init ⟨0⟩
  ahci := pciAhciInit ⟨0⟩ 0 false [] (fun _ => 0) (fun _ => 0)

def dmPciEnv : DmEnv := ⟨100, fun _ _ => 0⟩

theorem dmPciStart_initial : DmPciInitial dmPciStart := pciListStart_initial

/-- The state after a request. -/
def DmPci.handle (s : DmPci T) (req : EpwRequest) : DmPci T :=
  match dmRequest dmPciEnv 0 s req with
  | .ok r => r.1
  | .error _ => s

theorem DmPci.handle_step {req : EpwRequest} (h : (dmRequest dmPciEnv 0 s req).isOk = true) :
    DmPciStep s (.request req) (s.handle req) := by
  rw [DmPci.handle]
  cases hr : dmRequest dmPciEnv 0 s req with
  | ok r => exact .request dmPciEnv 0 hr
  | error e =>
    rw [hr] at h
    exact nomatch h

/-- A read of the guest. -/
def EpwRequest.read (addr : U64) (dataLen : Nat) : EpwRequest := ⟨addr, 0, dataLen, false⟩

theorem NoAssert.of_isOk {α : Type} {m : Except DispatchStop α} (h : m.isOk = true) : NoAssert m := by
  intro expr heq
  rw [heq] at h
  exact nomatch h

theorem dispatch_asserts_hold_iff_cap :
    NoAssert (emulPci dmPciEnv emulPciBase dmPciStart (.read 0x60050000 4)) ∧
      ∀ r ∈ dmPciStart.bus.reg.ranges, r.Contains 0x60050000 → (EpwRequest.read 0x60050000 4).Fits r := by
  have hcap : NoAssert (emulPci dmPciEnv emulPciBase dmPciStart (.read 0x60050000 4)) :=
    .of_isOk (by decide +kernel)
  exact ⟨hcap, ((dispatch_asserts_hold_iff (.start dmPciStart_initial) (by decide) (by decide)
    dmPciEnv).1 hcap).2⟩

/-- Nobody has checked that a read of the controller's registers is aligned. -/
theorem dispatch_assertion_fails :
    ¬ ∀ s : DmPci OrderedTree.list, Reaches DmPciStep DmPciInitial s → ∀ req : EpwRequest,
      inLink emulPciBase emulPciSize req.addr = true →
      (req.dataLen = 1 ∨ req.dataLen = 2 ∨ req.dataLen = 4 ∨ req.dataLen = 8) →
        NoAssert (emulPci dmPciEnv emulPciBase s req) := by
  intro h
  have hodd := h dmPciStart (.start dmPciStart_initial) (.read 0x60050002 4) (by decide) (by decide)
  have hfails : (match emulPci dmPciEnv emulPciBase dmPciStart (.read 0x60050002 4) with
      | .error (.assertion expr) => expr == "(regoff & (size - 1)) == 0"
      | _ => false) = true := by
    decide +kernel
  split at hfails
  next expr heq => exact hodd expr heq
  next => exact nomatch hfails

/-! ### Config space -/

/-- The addresses of the config space of a function on bus 0. -/
def configWindow (a : PciAddr) : Set U64 :=
  { addr | ∃ reg < 0x1000, addr.toNat = 0x60010000 + a.slot * 0x8000 + a.func * 0x1000 + reg }

/-- No range that is decoded has an address of the config space of a function. -/
def PciBus.ConfigClear (s : PciBus T) : Prop :=
  ∀ r ∈ s.decoded, ∀ a, (s.devi a).isSome = true → Disjoint r.addresses (configWindow a)

/-- The condition on the guest's requests: what is decoded after a config write
leaves config space alone. -/
def DmPciLabel.Clear (s : DmPci T) : DmPciLabel → Prop
  | .request req => inLink emulPciBase emulPciSize req.addr = true → req.isWrite = true →
      (s.bus.after req.cfg req.coff req.dataLen (req.data.setWidth 32)).ConfigClear
  | .poll => True

theorem PciBus.ConfigClear.congr {s t : PciBus T} (h : s.ConfigClear) (hs : s.Wf) (ht : t.Wf)
    (hdec : t.decoded = s.decoded) : t.ConfigClear := by
  intro r hr a ha
  rw [hdec] at hr
  exact h r hr a ((hs.functions a).2 ((ht.functions a).1 ha))

/-- The bus after a write has the same devices. -/
theorem PciBus.Wf.after {s : PciBus T} (h : s.Wf) (a : PciAddr) (coff bytes : Nat) (val : U32)
    (b : PciAddr) : ((s.after a coff bytes val).devi b).isSome = (s.devi b).isSome := by
  obtain ⟨-, hafter⟩ | ⟨pi, hpi, -, hafter, -⟩ := pciCfgwrite_kind h 0 a coff bytes val
  · rw [hafter]
  · rw [hafter]
    by_cases hba : b = a
    · subst hba
      rw [s.setDevi_same, hpi]
      rfl
    · rw [s.setDevi_of_ne _ hba]

theorem PciInitial.configClear {s : PciBus T} (h : PciInitial s) : s.ConfigClear := by
  have hstarted := h.started
  intro r hr a ha
  rw [← hstarted.ranges] at hr
  have habove := hstarted.above r hr
  refine Set.disjoint_left.2 ?_
  rintro addr hc ⟨reg, hreg, heq⟩
  have hle : r.base.toNat ≤ addr.toNat := hc.1
  obtain rfl | rfl := (hstarted.wf.functions a).1 ha
  · simp only [e1000Addr] at heq
    omega
  · simp only [ahciAddr] at heq
    omega

theorem Reaches.dm_clear
    (h : Reaches (Guarded DmPciStep fun s l => l.Clear s) DmPciInitial s) : s.bus.ConfigClear := by
  refine (h.invariant (I := fun s => s.bus.Within ∧ s.bus.ConfigClear) ?_ ?_).2
  · intro s hinit
    exact ⟨hinit.started.mirror.within, hinit.configClear⟩
  · rintro s l t ⟨hs, hclear⟩ ⟨hstep, hguard⟩
    obtain hquiet | ⟨req, fuel, rfl, hwin, hw, hwrite⟩ := hstep.bus hs
    · exact ⟨hquiet.within hs, hclear.congr hs.wf (hquiet.within hs).wf hquiet.decoded⟩
    · have ht := hs.cfgwrite hwrite
      refine ⟨ht, ?_⟩
      intro r hr a ha
      rw [pciCfgwrite_decoded hs.wf hwrite] at hr
      refine hguard hwin hw r hr a ?_
      rw [hs.wf.after, (hs.wf.functions a).2 ((ht.wf.functions a).1 ha)]

/-- Where an address of config space leads. -/
theorem cfg_of_window {req : EpwRequest} {a : PciAddr} {reg : Nat}
    (ha : a = e1000Addr ∨ a = ahciAddr) (hreg : reg < 0x1000)
    (haddr : req.addr.toNat = 0x60010000 + a.slot * 0x8000 + a.func * 0x1000 + reg) :
    inLink emulPciBase emulPciSize req.addr = true ∧ req.cfg = a ∧ req.coff = reg := by
  have hbase : emulPciBase.toNat = 0x10000 := rfl
  have hend : (emulPciBase + emulPciSize).toNat = 0x60000 := rfl
  have hwin : epwWindow.toNat = 0x60000000 := rfl
  have hlt := req.addr.isLt
  have hoffset : (req.addr - emulPciBase - epwWindow).toNat = a.slot * 0x8000 + a.func * 0x1000 + reg := by
    rw [BitVec.toNat_sub, BitVec.toNat_sub, hbase, hwin]
    obtain rfl | rfl := ha
    · simp only [e1000Addr] at haddr ⊢
      omega
    · simp only [ahciAddr] at haddr ⊢
      omega
  refine ⟨?_, ?_, ?_⟩
  · rw [inLink, Bool.and_eq_true, decide_eq_true_eq, decide_eq_true_eq, BitVec.le_def,
      BitVec.lt_def, BitVec.toNat_sub, hbase, hend, hwin]
    obtain rfl | rfl := ha
    · simp only [e1000Addr] at haddr
      omega
    · simp only [ahciAddr] at haddr
      omega
  · rw [EpwRequest.cfg, cfgAddr, hoffset, Nat.shiftRight_eq_div_pow, Nat.shiftRight_eq_div_pow,
      Nat.shiftRight_eq_div_pow]
    obtain rfl | rfl := ha
    · simp only [e1000Addr, PciAddr.mk.injEq]
      omega
    · simp only [ahciAddr, PciAddr.mk.injEq]
      omega
  · rw [EpwRequest.coff, cfgCoff, hoffset]
    omega

/-- And the other way round: the address of a request is in config space where it leads. -/
theorem window_of_cfg {req : EpwRequest} (hwin : inLink emulPciBase emulPciSize req.addr = true) :
    req.addr ∈ configWindow req.cfg := by
  have hbase : emulPciBase.toNat = 0x10000 := rfl
  have hend : (emulPciBase + emulPciSize).toNat = 0x60000 := rfl
  have hwindow : epwWindow.toNat = 0x60000000 := rfl
  have hlt := req.addr.isLt
  rw [inLink, Bool.and_eq_true, decide_eq_true_eq, decide_eq_true_eq, BitVec.le_def,
    BitVec.lt_def, BitVec.toNat_sub, hbase, hend, hwindow] at hwin
  have hoffset : (req.addr - emulPciBase - epwWindow).toNat = req.addr.toNat - 0x60010000 := by
    rw [BitVec.toNat_sub, BitVec.toNat_sub, hbase, hwindow]
    omega
  refine ⟨req.coff, Nat.mod_lt _ (by decide), ?_⟩
  rw [EpwRequest.coff, EpwRequest.cfg, cfgAddr, cfgCoff, hoffset, Nat.shiftRight_eq_div_pow,
    Nat.shiftRight_eq_div_pow]
  dsimp only
  omega

/-- A decoded range has an address of the config space of a function, and takes the requests for
it where it is registered. -/
def PciBus.Shadowed (s : PciBus T) : Prop :=
  ∃ a, (s.devi a).isSome = true ∧ ∃ r ∈ s.decoded, ∃ addr ∈ configWindow a, r.Contains addr ∧
    (r ∈ s.reg.ranges → (accessMemory s.reg.mmio addr id).2 = .ok r)

theorem PciBus.Within.shadowed {s : PciBus T} (h : s.Within) (hclear : ¬ s.ConfigClear) :
    s.Shadowed := by
  rw [ConfigClear] at hclear
  push Not at hclear
  obtain ⟨r, hr, a, ha, hmeet⟩ := hclear
  obtain ⟨addr, hcontains, hwindow⟩ := Set.not_disjoint_iff.1 hmeet
  refine ⟨a, ha, r, hr, addr, hwindow, hcontains, ?_⟩
  rintro ⟨e, he, rfl⟩
  rw [h.sound.mmio.accessMemory_hit he hcontains]
  rfl

/-- **A config write** outside the condition. -/
theorem DmPciStep.shadowed (h : s.bus.Within) (hclear : s.bus.ConfigClear)
    (hstep : DmPciStep s l t) (hl : ¬ l.Clear s) : t.bus.Shadowed := by
  cases hstep with
  | poll => exact absurd trivial hl
  | @request req r env satp hr =>
    rw [DmPciLabel.Clear] at hl
    push Not at hl
    obtain ⟨hwin, hw, hafter⟩ := hl
    have hdev : (s.bus.devi req.cfg).isSome = true := by
      obtain ⟨-, hsame⟩ | ⟨pi, hpi, -⟩ := pciCfgwrite_kind h.wf 0 req.cfg req.coff req.dataLen
        (req.data.setWidth 32)
      · rw [hsame] at hafter
        exact absurd hclear hafter
      · rw [hpi]
        rfl
    have hwindow := window_of_cfg hwin
    have hnone : ∀ r ∈ s.bus.reg.ranges, ¬ r.Contains req.addr := by
      intro r hr hc
      exact Set.disjoint_left.1 (hclear r (h.ranges hr) req.cfg hdev) hc hwindow
    rw [dmRequest, if_pos hwin] at hr
    obtain ⟨u, hu, hr⟩ := Except.bind_eq_ok.1 hr
    obtain rfl := Except.ok.inj hr
    obtain ⟨q, hq, -⟩ := Except.bind_eq_ok.1 hu
    rw [(emulPci_miss h hnone (emulMem_len hq)).2] at hu
    obtain ⟨hread, -⟩ | ⟨-, hwrite⟩ := emulCfgrw_bus hu
    · exact absurd (hread.symm.trans hw) Bool.false_ne_true
    have ht := h.cfgwrite hwrite
    refine ht.shadowed fun hc => hafter fun r hr a ha => ?_
    refine hc r ?_ a ?_
    · rwa [pciCfgwrite_decoded h.wf hwrite]
    · rw [h.wf.after] at ha
      exact (ht.wf.functions a).2 ((h.wf.functions a).1 ha)

/-- **Config space is not shadowed** as long as no config write makes a BAR decode an
address of it: then a request for the config space of a function goes there, with its
register, unless it is a write of 8 bytes or more. After a write that makes one do so, the BAR
takes such a request if it is registered. -/
theorem config_space_not_shadowed
    (h : Reaches (Guarded DmPciStep fun s l => l.Clear s) DmPciInitial s) :
    (∀ {a : PciAddr}, (s.bus.devi a).isSome = true → ∀ {req : EpwRequest} {reg : Nat}, reg < 0x1000 →
      req.addr.toNat = 0x60010000 + a.slot * 0x8000 + a.func * 0x1000 + reg →
      (req.isWrite = true → req.dataLen < 8) → ∀ (env : DmEnv) (satp : U64),
        (accessMemory s.bus.reg.mmio req.addr id).2 = .error .esrch ∧
          dmRequest env satp s req =
            (do let r ← emulCfgrw env s req a reg
                .ok (r.1, r.2, 0))) ∧
    ∀ {l : DmPciLabel} {t : DmPci T}, DmPciStep s l t → ¬ l.Clear s → t.bus.Shadowed := by
  have hwithin := h.of_guarded.dm_within
  have hclear := h.dm_clear
  refine ⟨?_, fun hstep hl => hstep.shadowed hwithin hclear hl⟩
  intro a hdev req reg hreg haddr hlen env satp
  obtain ⟨hwin, hcfg, hcoff⟩ := cfg_of_window ((hwithin.wf.functions a).1 hdev) hreg haddr
  have hnone : ∀ r ∈ s.bus.reg.ranges, ¬ r.Contains req.addr := by
    intro r hr hc
    exact Set.disjoint_left.1 (hclear r (hwithin.ranges hr) a hdev) hc ⟨reg, hreg, haddr⟩
  obtain ⟨hacc, hpci⟩ := @emulPci_miss T env s req hwithin hnone hlen
  refine ⟨hacc, ?_⟩
  rw [dmRequest, if_pos hwin, hpci, hcfg, hcoff]

/-- A device that decodes no memory after a write leaves config space alone. -/
theorem PciBus.ConfigClear.after_off {s : PciBus T} (h : s.ConfigClear) (hwf : s.Wf) {a : PciAddr}
    {coff bytes : Nat} {val : U32}
    (hoff : (s.devi a).all (fun pi => !memen (pi.after coff bytes val)) = true) :
    (s.after a coff bytes val).ConfigClear := by
  intro r hr b hb
  rw [hwf.after] at hb
  refine h r ?_ b hb
  obtain ⟨-, hafter⟩ | ⟨pi, hpi, -, hafter, -⟩ := pciCfgwrite_kind hwf 0 a coff bytes val
  · rwa [hafter] at hr
  · rw [hpi, Option.all_some, Bool.not_eq_true'] at hoff
    rw [hafter, PciBus.decoded_setDevi, PciDev.decoded_of_not_memen hoff, Set.union_empty] at hr
    rw [PciBus.decoded_eq hpi]
    exact .inl hr

/-- The guest turns memory decoding off for the e1000. -/
def dmPciOffWrite : EpwRequest := ⟨0x60010004, 0x0004, 2, true⟩
def dmPciOff : DmPci OrderedTree.list := dmPciStart.handle dmPciOffWrite

theorem config_space_not_shadowed_off :
    dmRequest dmPciEnv 0 dmPciOff (.read 0x60010000 4) =
      (do let r ← emulCfgrw dmPciEnv dmPciOff (.read 0x60010000 4) e1000Addr 0
          .ok (r.1, r.2, 0)) := by
  have hstart : Reaches (Guarded DmPciStep fun s l => l.Clear s) DmPciInitial dmPciStart :=
    .start dmPciStart_initial
  have hclear : DmPciLabel.Clear dmPciStart (.request dmPciOffWrite) := fun _ _ =>
    (PciInitial.configClear pciListStart_initial).after_off
      (PciInitial.started pciListStart_initial).wf (by decide +kernel)
  have hoff : Reaches (Guarded DmPciStep fun s l => l.Clear s) DmPciInitial dmPciOff :=
    .next hstart ⟨DmPci.handle_step (by decide +kernel), hclear⟩
  have hdev : (dmPciOff.bus.devi e1000Addr).isSome = true := by decide +kernel
  have hread : (EpwRequest.read 0x60010000 4).isWrite = true →
      (EpwRequest.read 0x60010000 4).dataLen < 8 := by decide
  have haddr : (EpwRequest.read 0x60010000 4).addr.toNat =
      0x60010000 + e1000Addr.slot * 0x8000 + e1000Addr.func * 0x1000 + 0 := by decide
  exact ((config_space_not_shadowed hoff).1 hdev (by decide) haddr hread dmPciEnv 0).2

/-- The guest moves the register BAR of the e1000 over the config space of both functions. -/
def dmPciShadowWrite : EpwRequest := ⟨0x60010010, 0x60000000, 4, true⟩
def dmPciShadowed : DmPci OrderedTree.list := dmPciStart.handle dmPciShadowWrite

/-- A read of the vendor of the controller then goes to the e1000. -/
theorem config_space_shadowed :
    ¬ ∀ s : DmPci OrderedTree.list, Reaches DmPciStep DmPciInitial s →
      ∀ (a : PciAddr) (req : EpwRequest) (reg : Nat),
      (s.bus.devi a).isSome = true → reg < 0x1000 →
      req.addr.toNat = 0x60010000 + a.slot * 0x8000 + a.func * 0x1000 + reg →
        (accessMemory s.bus.reg.mmio req.addr id).2 = .error .esrch := by
  intro h
  have hreach : Reaches DmPciStep DmPciInitial dmPciShadowed :=
    .next (.start dmPciStart_initial) (DmPci.handle_step (by decide +kernel))
  have hmiss := h dmPciShadowed hreach ahciAddr (.read 0x60018000 4) 0 (by decide +kernel)
    (by decide) (by decide)
  have hhit : (match (accessMemory dmPciShadowed.bus.reg.mmio 0x60018000 id).2 with
      | .ok r => r.handler == .emulMem e1000Addr 0
      | .error _ => false) = true := by
    decide +kernel
  split at hhit
  next r heq => exact nomatch heq.symm.trans hmiss
  next => exact nomatch hhit

end Runs

end DeviceModel
