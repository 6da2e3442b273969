import DeviceModel.Pci.Bars
import Mathlib.Tactic.SplitIfs

/-!
# What a config write changes

Each function of `DeviceModel.Pci.Config` and `DeviceModel.Pci.Bars` is described
once, by what it leaves alone and by what it does to the interrupt line:

* `CfgFrame` — only config space changed, and only from an offset on;
* `LineEffect` — the line is untouched, or was re-evaluated by `pci_lintr_update`;
* `CapEffect` — a write to a capability.
-/

namespace DeviceModel

/-! ## Config space -/

/-- `pi'` differs from `pi` only in the bytes of config space from `lo` to `hi`. -/
structure CfgFrame (lo hi : Nat) (pi pi' : PciDev) : Prop where
  rest : pi' = { pi with cfgdata := pi'.cfgdata }
  bytes : ∀ i, i < lo ∨ hi ≤ i → pi'.cfgdata i = pi.cfgdata i

namespace CfgFrame

variable {pi pi' pi'' : PciDev} {lo mid hi : Nat}

theorem set8 (pi : PciDev) (offset : Nat) (val : U8) :
    CfgFrame offset (offset + 1) pi (pi.set8 offset val) where
  rest := rfl
  bytes := by
    intro i hi
    have hne : i ≠ offset := by omega
    exact Function.update_of_ne hne val pi.cfgdata

theorem trans (h : CfgFrame lo mid pi pi') (h' : CfgFrame mid hi pi' pi'') (hlo : lo ≤ mid)
    (hhi : mid ≤ hi) : CfgFrame lo hi pi pi'' where
  rest := by rw [h'.rest, h.rest]
  bytes := by
    intro i hi
    rw [h'.bytes i (by omega), h.bytes i (by omega)]

theorem set16 (pi : PciDev) (offset : Nat) (val : U16) :
    CfgFrame offset (offset + 2) pi (pi.set16 offset val) :=
  (set8 pi offset _).trans (set8 _ (offset + 1) _) (by omega) (by omega)

theorem set32 (pi : PciDev) (offset : Nat) (val : U32) :
    CfgFrame offset (offset + 4) pi (pi.set32 offset val) :=
  (set16 pi offset _).trans (set16 _ (offset + 2) _) (by omega) (by omega)

/-- A word outside the bytes that changed. -/
theorem cfg16 (h : CfgFrame lo hi pi pi') {i : Nat} (hi : i + 1 < lo ∨ hi ≤ i) :
    pi'.cfg16 i = pi.cfg16 i := by
  rw [PciDev.cfg16, PciDev.cfg16, h.bytes i (by omega), h.bytes (i + 1) (by omega)]

/-- Nothing that the interrupt functions see has changed. -/
theorem devinst (h : CfgFrame lo hi pi pi') (hi : 5 < lo ∨ hi ≤ 4) : pi'.devinst = pi.devinst := by
  have hcommand : pi'.command = pi.command := h.cfg16 hi
  rw [PciDev.devinst, PciDev.devinst, hcommand, h.rest]

end CfgFrame

/-- The number of bytes that `CFGWRITE` writes. -/
def cfgWidth (bytes : Nat) : Nat := if bytes = 1 then 1 else if bytes = 2 then 2 else 4

theorem cfgwrite_frame {pi pi' : PciDev} {coff bytes : Nat} {val : U32}
    (h : cfgwrite pi coff val bytes = .ok pi') :
    CfgFrame coff (coff + cfgWidth bytes) pi pi' := by
  rw [cfgwrite] at h
  rw [cfgWidth]
  split_ifs at h ⊢
  · obtain ⟨_, _, h⟩ := Except.bind_eq_ok.1 h
    obtain rfl := Except.ok.inj h
    exact .set8 pi coff _
  · obtain ⟨_, _, h⟩ := Except.bind_eq_ok.1 h
    obtain rfl := Except.ok.inj h
    exact .set16 pi coff _
  · obtain ⟨_, _, h⟩ := Except.bind_eq_ok.1 h
    obtain rfl := Except.ok.inj h
    exact .set32 pi coff _

theorem cfgWidth_of_mem {bytes : Nat} (h : bytes = 1 ∨ bytes = 2 ∨ bytes = 4) :
    cfgWidth bytes = bytes := by
  obtain rfl | rfl | rfl := h <;> rfl

theorem and_one_eq_mod (n : Nat) : n &&& 1 = n % 2 := Nat.and_two_pow_sub_one_eq_mod n 1

theorem and_three_eq_mod (n : Nat) : n &&& 3 = n % 4 := Nat.and_two_pow_sub_one_eq_mod n 2

theorem cfgAligned_iff {coff bytes : Nat} :
    cfgAligned coff bytes = true ↔ (bytes = 1 ∨ bytes = 2 ∨ bytes = 4) ∧ coff % bytes = 0 := by
  simp only [cfgAligned, Bool.and_eq_true, Bool.or_eq_true, beq_iff_eq, or_assoc]
  refine and_congr_right fun h => ?_
  obtain rfl | rfl | rfl := h
  · simp [Nat.mod_one]
  · rw [and_one_eq_mod]
  · rw [and_three_eq_mod]

theorem pciGetCfgdata16_returns (pi : PciDev) {offset : Nat} (hmod : offset % 2 = 0)
    (hle : offset ≤ pciRegmax) : pciGetCfgdata16 pi offset = .ok (pi.cfg16 offset) := by
  have hle' : offset ≤ pciRegmax - 1 := by
    simp only [pciRegmax] at hle ⊢
    omega
  simp [pciGetCfgdata16, assert, hle', hmod]
  rfl

theorem pciGetCfgdata32_returns (pi : PciDev) {offset : Nat} (hmod : offset % 4 = 0)
    (hle : offset ≤ pciRegmax) : pciGetCfgdata32 pi offset = .ok (pi.cfg32 offset) := by
  have hle' : offset ≤ pciRegmax - 3 := by
    simp only [pciRegmax] at hle ⊢
    omega
  simp [pciGetCfgdata32, assert, hle', and_three_eq_mod, hmod]
  rfl

/-- An aligned write inside config space meets the assertions of the accessors. -/
theorem cfgwrite_returns (pi : PciDev) {coff bytes : Nat} (val : U32)
    (halign : cfgAligned coff bytes = true) (hle : coff ≤ pciRegmax) :
    Returns (cfgwrite pi coff val bytes) := by
  obtain ⟨rfl | rfl | rfl, hmod⟩ := cfgAligned_iff.1 halign
  · refine ⟨pi.set8 coff (val.setWidth 8), ?_⟩
    simp [cfgwrite, pciSetCfgdata8, assert, hle]
    rfl
  · have hle' : coff ≤ pciRegmax - 1 := by
      simp only [pciRegmax] at hle ⊢
      omega
    refine ⟨pi.set16 coff (val.setWidth 16), ?_⟩
    simp [cfgwrite, pciSetCfgdata16, assert, hle', hmod]
    rfl
  · have hle' : coff ≤ pciRegmax - 3 := by
      simp only [pciRegmax] at hle ⊢
      omega
    refine ⟨pi.set32 coff val, ?_⟩
    simp [cfgwrite, pciSetCfgdata32, assert, hle', and_three_eq_mod, hmod]
    rfl

/-- So does an aligned read. -/
theorem cfgread_returns (pi : PciDev) {coff bytes : Nat} (halign : cfgAligned coff bytes = true)
    (hle : coff ≤ pciRegmax) : Returns (cfgread pi coff bytes) := by
  obtain ⟨rfl | rfl | rfl, hmod⟩ := cfgAligned_iff.1 halign
  · refine ⟨(pi.cfgdata coff).setWidth 32, ?_⟩
    simp [cfgread, pciGetCfgdata8, assert, hle]
    rfl
  · refine ⟨(pi.cfg16 coff).setWidth 32, ?_⟩
    simp [cfgread, pciGetCfgdata16_returns pi hmod hle]
    rfl
  · refine ⟨pi.cfg32 coff, ?_⟩
    simp [cfgread, pciGetCfgdata32_returns pi hmod hle]

/-! ## The interrupt line -/

/-- The line functions leave the enable bits alone. -/
structure SameEnables (d d' : PciDevinst) : Prop where
  msi : d'.msi = d.msi
  msixEnabled : d'.msixEnabled = d.msixEnabled
  command : d'.command = d.command

theorem pciLintrAssert_enables (d : PciDevinst) : SameEnables d (pciLintrAssert d) := by
  rw [pciLintrAssert, pciLintrAssertBody]
  split
  · split <;> exact ⟨rfl, rfl, rfl⟩
  · exact ⟨rfl, rfl, rfl⟩

theorem pciLintrDeassert_enables (d : PciDevinst) : SameEnables d (pciLintrDeassert d) := by
  rw [pciLintrDeassert, pciLintrDeassertBody]
  split <;> exact ⟨rfl, rfl, rfl⟩

theorem pciLintrUpdate_enables (d : PciDevinst) : SameEnables d (pciLintrUpdate d) := by
  rw [pciLintrUpdate, pciLintrUpdateBody]
  split
  · exact ⟨rfl, rfl, rfl⟩
  · split <;> exact ⟨rfl, rfl, rfl⟩

/-- So what they leave behind is what is seen of the device afterwards. -/
theorem SameEnables.devinst {pi : PciDev} {d : PciDevinst} (h : SameEnables pi.devinst d) :
    (pi.setDevinst d).devinst = d := by
  calc (pi.setDevinst d).devinst
      = ⟨d.lintr, pi.devinst.msi, pi.devinst.msixEnabled, pi.devinst.command, d.plic⟩ := rfl
    _ = d := by rw [← h.msi, ← h.msixEnabled, ← h.command]

namespace PciDev

theorem devinst_lintrAssert (pi : PciDev) : pi.lintrAssert.devinst = pciLintrAssert pi.devinst :=
  (pciLintrAssert_enables pi.devinst).devinst

theorem devinst_lintrDeassert (pi : PciDev) :
    pi.lintrDeassert.devinst = pciLintrDeassert pi.devinst :=
  (pciLintrDeassert_enables pi.devinst).devinst

theorem devinst_lintrUpdate (pi : PciDev) : pi.lintrUpdate.devinst = pciLintrUpdate pi.devinst :=
  (pciLintrUpdate_enables pi.devinst).devinst

end PciDev

/-- What a config write does to the line: nothing, while the line stays as
permitted as it was, or one `pci_lintr_update` after the registers have changed. -/
inductive LineEffect (d d' : PciDevinst) : Prop where
  | keep : d'.lintr = d.lintr → d'.plic = d.plic →
      pciLintrPermitted d' = pciLintrPermitted d → LineEffect d d'
  | update (e : PciDevinst) : e.lintr = d.lintr → e.plic = d.plic → d' = pciLintrUpdate e →
      LineEffect d d'

theorem LineEffect.refl (d : PciDevinst) : LineEffect d d := .keep rfl rfl rfl

theorem LineEffect.of_eq {d d' : PciDevinst} (h : d' = d) : LineEffect d d' := h ▸ .refl d

/-- What a write to a capability does: below the offset of the write config space is
as it was, and so are the BARs and the extent of the list. -/
structure CapEffect (offset : Nat) (pi pi' : PciDev) : Prop where
  bdf : pi'.bdf = pi.bdf
  bar : pi'.bar = pi.bar
  capend : pi'.capend = pi.capend
  bytes : ∀ i, i < offset → pi'.cfgdata i = pi.cfgdata i
  line : LineEffect pi.devinst pi'.devinst

namespace CapEffect

variable {pi pi' : PciDev} {offset bytes capoff : Nat} {val : U32}

theorem refl (pi : PciDev) (offset : Nat) : CapEffect offset pi pi :=
  ⟨rfl, rfl, rfl, fun _ _ => rfl, .refl _⟩

theorem mono {offset' : Nat} (h : CapEffect offset pi pi') (hle : offset' ≤ offset) :
    CapEffect offset' pi pi' :=
  { h with bytes := fun i hi => h.bytes i (hi.trans_le hle) }

/-- The command register lies below the capabilities. -/
theorem command (h : CapEffect offset pi pi') (hoff : capStartOffset ≤ offset) :
    pi'.command = pi.command := by
  have hlow : ∀ i, i ≤ 5 → pi'.cfgdata i = pi.cfgdata i :=
    fun i hi => h.bytes i ((hi.trans_lt (by decide)).trans_le hoff)
  rw [PciDev.command, PciDev.command, PciDev.cfg16, PciDev.cfg16, pcirCommand,
    hlow 4 (by decide), hlow 5 (by decide)]

/-- A plain write above the header of config space. -/
theorem of_cfgwrite (hoff : capStartOffset ≤ offset)
    (h : cfgwrite pi offset val bytes = .ok pi') : CapEffect offset pi pi' := by
  have hframe := cfgwrite_frame h
  have hlo : 5 < offset := hoff.trans_lt' (by decide)
  refine ⟨?_, ?_, ?_, fun i hi => hframe.bytes i (.inl hi), .of_eq (hframe.devinst (.inl hlo))⟩
  · rw [hframe.rest]
  · rw [hframe.rest]
  · rw [hframe.rest]

/-- A message control write: the enable bit, the line, then config space. -/
theorem of_msgctrl {pj : PciDev} (hoff : capStartOffset ≤ offset)
    (hdata : pj.cfgdata = pi.cfgdata) (hbdf : pj.bdf = pi.bdf) (hbar : pj.bar = pi.bar)
    (hcapend : pj.capend = pi.capend) (hlintr : pj.lintr = pi.lintr) (hplic : pj.plic = pi.plic)
    (h : cfgwrite pj.lintrUpdate offset val bytes = .ok pi') : CapEffect offset pi pi' := by
  obtain ⟨hbdf', hbar', hcapend', hbytes', -⟩ := of_cfgwrite hoff h
  have hlo : 5 < offset := hoff.trans_lt' (by decide)
  have hdev : pi'.devinst = pciLintrUpdate pj.devinst :=
    ((cfgwrite_frame h).devinst (.inl hlo)).trans pj.devinst_lintrUpdate
  refine ⟨hbdf'.trans hbdf, hbar'.trans hbar, hcapend'.trans hcapend, ?_, ?_⟩
  · intro i hi
    exact (hbytes' i hi).trans (congrFun hdata i)
  · exact .update pj.devinst hlintr hplic hdev

theorem of_msixcap (hoff : capStartOffset ≤ offset)
    (h : msixcapCfgwrite pi capoff offset bytes val = .ok pi') : CapEffect offset pi pi' := by
  rw [msixcapCfgwrite] at h
  split at h
  · obtain ⟨_, _, h⟩ := Except.bind_eq_ok.1 h
    dsimp only at h
    refine of_msgctrl hoff ?_ ?_ ?_ ?_ ?_ ?_ h <;> rfl
  · exact of_cfgwrite hoff h

theorem of_msicap (hoff : capStartOffset ≤ offset)
    (h : msicapCfgwrite pi capoff offset bytes val = .ok pi') : CapEffect offset pi pi' := by
  rw [msicapCfgwrite] at h
  split at h
  · obtain ⟨_, _, h⟩ := Except.bind_eq_ok.1 h
    obtain ⟨_, _, h⟩ := Except.bind_eq_ok.1 h
    obtain ⟨_, _, h⟩ := Except.bind_eq_ok.1 h
    dsimp only at h
    refine of_msgctrl hoff ?_ ?_ ?_ ?_ ?_ ?_ h <;> rfl
  · exact of_cfgwrite hoff h

theorem of_capCfgwrite (hoff : capStartOffset ≤ offset)
    (h : capCfgwrite pi capoff offset bytes val = .ok pi') : CapEffect offset pi pi' := by
  obtain ⟨capid, _, h⟩ := Except.bind_eq_ok.1 h
  split_ifs at h
  · exact of_msicap hoff h
  · exact of_msixcap hoff h
  · exact of_cfgwrite hoff h
  · obtain rfl := Except.ok.inj h
    exact refl pi offset

/-- `pci_emul_capwrite` changes the capability it finds, from the offset on. -/
theorem of_capwrite {fuel : Nat} (hoff : capStartOffset ≤ offset)
    (h : pciEmulCapwrite fuel pi offset bytes val = .ok pi') : CapEffect offset pi pi' := by
  rw [pciEmulCapwrite] at h
  split at h
  · obtain rfl := Except.ok.inj h
    exact refl pi offset
  · obtain ⟨capoff, _, h⟩ := Except.bind_eq_ok.1 h
    obtain ⟨_, _, h⟩ := Except.bind_eq_ok.1 h
    split_ifs at h
    · have hoff' : capStartOffset ≤ offset + 2 := by omega
      exact (of_capCfgwrite hoff' h).mono (by omega)
    · obtain rfl := Except.ok.inj h
      exact refl pi offset
    · exact of_capCfgwrite hoff h

end CapEffect

/-! ## BAR registers -/

section BarRegister

variable {T : PciMemTree} {reg : MmioHeap T} {pi : PciDev} {r : MmioHeap T × PciDev}

/-- Moving a BAR changes nothing else of the device. -/
theorem updateBarAddress_rest {addr : U64} {idx : Nat} {type : PcibarType}
    (h : updateBarAddress reg pi addr idx type = .ok r) :
    ∃ a, barAddrUpdate (pi.bar idx).addr addr type = some a ∧ r.2 = pi.setBarAddr idx a := by
  obtain ⟨reg', -, h⟩ := Except.bind_eq_ok.1 h
  cases haddr : barAddrUpdate (pi.bar idx).addr addr type with
  | none =>
    rw [haddr] at h
    cases h
  | some a =>
    rw [haddr] at h
    obtain ⟨reg'', -, h⟩ := Except.bind_eq_ok.1 h
    obtain rfl := Except.ok.inj h
    exact ⟨a, rfl, rfl⟩

theorem barMove_rest {w : BarWrite} (h : barMove reg pi w = .ok r) :
    r.2 = { pi with bar := r.2.bar } := by
  rw [barMove] at h
  split at h
  · obtain ⟨a, -, ha⟩ := updateBarAddress_rest h
    rw [ha, PciDev.setBarAddr]
  · obtain rfl := Except.ok.inj h
    dsimp only
    split <;> rfl

/-- A write to a BAR register changes that register, and addresses of BARs. -/
theorem pciCfgwriteBar_rest {coff bytes : Nat} {val : U32}
    (h : pciCfgwriteBar reg pi coff bytes val = .ok r) :
    r.2 = { pi with bar := r.2.bar, cfgdata := r.2.cfgdata } ∧
      ∀ i, i < coff ∨ coff + 4 ≤ i → r.2.cfgdata i = pi.cfgdata i := by
  rw [pciCfgwriteBar] at h
  split at h
  · obtain rfl := Except.ok.inj h
    exact ⟨rfl, fun _ _ => rfl⟩
  · dsimp only at h
    split at h
    · cases h
    · obtain ⟨r', hmove, h⟩ := Except.bind_eq_ok.1 h
      obtain ⟨pj, hset, h⟩ := Except.bind_eq_ok.1 h
      obtain rfl := Except.ok.inj h
      obtain ⟨_, -, hset⟩ := Except.bind_eq_ok.1 hset
      obtain rfl := Except.ok.inj hset
      have hrest := barMove_rest hmove
      refine ⟨?_, fun i hi => ?_⟩
      · rw [(CfgFrame.set32 r'.2 coff _).rest, hrest]
      · rw [(CfgFrame.set32 r'.2 coff _).bytes i hi, hrest]

end BarRegister

/-! ## The bus -/

section Bus

variable {T : PciMemTree}

@[simp] theorem PciBus.setDevi_same (s : PciBus T) (a : PciAddr) (pi : PciDev) :
    (s.setDevi a pi).devi a = some pi := by
  simp [PciBus.setDevi]

theorem PciBus.setDevi_of_ne (s : PciBus T) {a b : PciAddr} (pi : PciDev) (h : b ≠ a) :
    (s.setDevi a pi).devi b = s.devi b := by
  simp [PciBus.setDevi, h]

/-- A config write is passed over, or is a write to the device it names. -/
theorem pciCfgwrite_cases {fuel : Nat} {s s' : PciBus T} {a : PciAddr} {coff bytes : Nat}
    {eax : U32} (h : pciCfgwrite fuel s a coff bytes eax = .ok s') :
    s' = s ∨ ∃ pi r, s.devi a = some pi ∧ cfgAligned coff bytes = true ∧ coff ≤ pciRegmax ∧
      pciCfgwriteDev fuel s.reg pi coff bytes eax = .ok r ∧
      s' = { s with reg := r.1 }.setDevi a r.2 := by
  rw [pciCfgwrite] at h
  cases hd : s.devi a with
  | none =>
    simp only [hd, Except.ok.injEq] at h
    exact .inl h.symm
  | some pi =>
    simp only [hd] at h
    split at h
    next hin =>
      simp only [Bool.and_eq_true, decide_eq_true_eq] at hin
      obtain ⟨r, hwrite, h⟩ := Except.bind_eq_ok.1 h
      exact .inr ⟨pi, r, rfl, hin.1, hin.2, hwrite, (Except.ok.inj h).symm⟩
    next => exact .inl (Except.ok.inj h).symm

end Bus

end DeviceModel
