import DeviceModel.Pci.Capabilities
import Mathlib.Tactic.IntervalCases

/-!
# The message control registers

A device keeps the enable bits of its MSI and MSI-X capabilities twice: in the message
control register in config space, and in `pi_msi` and `pi_msix`, which the interrupt
functions read. `msicap_cfgwrite` and `msixcap_cfgwrite` keep the two together and the
read-only bits of the register as they are, for a write of two bytes; a write of four bytes
at the head of the capability is trimmed to one. A write of one byte goes past them.

* `CtrlInv` — what holds of a capability, kept by every write but those of one byte to a
  message control register;
* `CapsUntouched` — what a write outside the region does.
-/

namespace DeviceModel

/-! ## Capabilities with a message control register -/

/-- `pci_populate_msixcap`: the 12 bytes of `struct msixcap`, little-endian. -/
def pciPopulateMsixcap (msgnum : U16) (barnum msixTabSize : U32) : Except Stop (List U8) := do
  assert "msix_tab_size % 4096 == 0" (msixTabSize.umod 4096 == 0)
  let msgctrl := msgnum - 1
  let tableInfo := barnum &&& 0x7
  let pbaInfo := msixTabSize ||| (barnum &&& 0x7)
  .ok [pciyMsix, 0, msgctrl.setWidth 8, (msgctrl >>> 8).setWidth 8,
    tableInfo.setWidth 8, (tableInfo >>> 8).setWidth 8, (tableInfo >>> 16).setWidth 8,
    (tableInfo >>> 24).setWidth 8, pbaInfo.setWidth 8, (pbaInfo >>> 8).setWidth 8,
    (pbaInfo >>> 16).setWidth 8, (pbaInfo >>> 24).setWidth 8]

/-- The bits of the registers that a guest may change. -/
def msiRwmask : U16 := pcimMsictrlMmeMask ||| pcimMsictrlMsiEnable
def msixRwmask : U16 := pcimMsixctrlMsixEnable ||| pcimMsixctrlFunctionMask

/-- The message control register in the data of a capability. -/
def dataCtrl (d : List U8) : U16 := d.getD 3 0 ++ d.getD 2 0

/-- The data leave messages off. -/
structure QuietControl (d : List U8) : Prop where
  msi : d[0]? = some pciyMsi → 4 ≤ d.length ∧ dataCtrl d &&& pcimMsictrlMsiEnable = 0
  msix : d[0]? = some pciyMsix → 4 ≤ d.length ∧ dataCtrl d &&& msixRwmask = 0

/-- A fresh device, and the data of capabilities for it: not two for MSI, not two for
MSI-X. -/
structure MsiInit (pi : PciDev) (datas : List (List U8)) : Prop where
  fresh : pi.FreshCaps
  msi : pi.msi = ⟨false, 0⟩
  msix : pi.msix = ⟨false, false⟩
  two_le : ∀ d ∈ datas, 2 ≤ d.length
  quiet : ∀ d ∈ datas, QuietControl d
  once : datas.Pairwise fun d e => d[0]? = e[0]? → d[0]? ≠ some pciyMsi ∧ d[0]? ≠ some pciyMsix

/-- What `pci_populate_msicap` makes is quiet. -/
theorem pciPopulateMsicap_quiet {mmc : Nat} (h : 1 <<< mmc ≤ 32) :
    QuietControl (pciPopulateMsicap mmc 0) := by
  have hmmc : mmc ≤ 5 := by
    by_contra hlt
    have hpow : 2 ^ 6 ≤ 2 ^ mmc := Nat.pow_le_pow_right (by decide) (by omega)
    rw [Nat.one_shiftLeft] at h
    omega
  interval_cases mmc <;> exact ⟨by decide, by decide⟩

/-- So is what `pci_populate_msixcap` makes, for a table of at most
`MAX_MSIX_TABLE_ENTRIES`. -/
theorem pciPopulateMsixcap_quiet {msgnum : U16} {barnum msixTabSize : U32} {d : List U8}
    (hpos : 1 ≤ msgnum.toNat) (hle : msgnum.toNat ≤ 2048)
    (h : pciPopulateMsixcap msgnum barnum msixTabSize = .ok d) : QuietControl d := by
  obtain ⟨-, -, h⟩ := Except.bind_eq_ok.1 h
  obtain rfl := Except.ok.inj h
  refine ⟨fun hid => absurd hid (by simp [pciyMsix, pciyMsi]), fun _ => ⟨by simp, ?_⟩⟩
  have hctrl : (msgnum - 1 : U16).toNat < 2 ^ 14 := by
    rw [BitVec.toNat_sub_of_le (show (1 : U16) ≤ msgnum from hpos)]
    have hone : (1 : U16).toNat = 1 := rfl
    omega
  have hmask : ∀ i, i < 14 → msixRwmask.getLsbD i = false := by decide
  refine (congrArg (· &&& msixRwmask) (@append_halves 8 8 (msgnum - 1))).trans ?_
  apply BitVec.eq_of_getLsbD_eq
  intro i _
  rw [BitVec.getLsbD_and]
  rcases Nat.lt_or_ge i 14 with hlow | hhigh
  · simp [hmask i hlow]
  · have hbit : (msgnum - 1 : U16).getLsbD i = false :=
      Nat.testBit_lt_two_pow (hctrl.trans_le (Nat.pow_le_pow_right (by decide) hhigh))
    rw [hbit, Bool.false_and]
    simp

/-! ## The handlers -/

/-- `pi_msi` after a write of a message control register. -/
def msiOf (ctrl : U16) : PciMsi :=
  if ctrl &&& pcimMsictrlMsiEnable != 0 then
    ⟨true, 1 <<< ((ctrl &&& pcimMsictrlMmeMask) >>> 4).toNat⟩
  else ⟨false, 0⟩

/-- `pi_msix` after a write of a message control register. -/
def msixOf (ctrl : U16) : PciMsix :=
  ⟨ctrl &&& pcimMsixctrlMsixEnable != 0, ctrl &&& pcimMsixctrlFunctionMask != 0⟩

/-- A masked write keeps the bits outside the mask. -/
theorem msgctrlWrite_readonly (msgctrl rwmask : U16) (val : U32) :
    msgctrlWrite msgctrl rwmask val &&& ~~~rwmask = msgctrl &&& ~~~rwmask := by
  apply BitVec.eq_of_getLsbD_eq
  intro i hi
  simp only [msgctrlWrite, BitVec.getLsbD_and, BitVec.getLsbD_or, BitVec.getLsbD_not, hi]
  cases rwmask.getLsbD i <;> simp

section Handlers

variable {pj pk : PciDev} {capoff offset bytes : Nat} {val : U32}

theorem cfgwrite_msi (h : cfgwrite pj offset val bytes = .ok pk) :
    pk.msi = pj.msi ∧ pk.msix = pj.msix := by
  rw [(cfgwrite_frame h).rest]
  exact ⟨rfl, rfl⟩

/-- `CFGWRITE` of a whole register. -/
theorem cfgwrite_ctrl {ctrl : U16} (h : cfgwrite pj offset (ctrl.setWidth 32) 2 = .ok pk) :
    pk.cfg16 offset = ctrl ∧ pk.msi = pj.msi ∧ pk.msix = pj.msix := by
  refine ⟨?_, cfgwrite_msi h⟩
  obtain ⟨_, -, h⟩ := Except.bind_eq_ok.1 h
  obtain rfl := Except.ok.inj h
  rw [PciDev.cfg16_set16, BitVec.setWidth_setWidth_of_le _ (by decide), BitVec.setWidth_eq]

theorem pciGetCfgdata8_eq {v : U8} (h : pciGetCfgdata8 pj offset = .ok v) : v = pj.cfgdata offset := by
  obtain ⟨_, -, h⟩ := Except.bind_eq_ok.1 h
  exact (Except.ok.inj h).symm

theorem pciGetCfgdata16_eq {v : U16} (h : pciGetCfgdata16 pj offset = .ok v) :
    v = pj.cfg16 offset := by
  obtain ⟨_, -, h⟩ := Except.bind_eq_ok.1 h
  exact (Except.ok.inj h).symm

/-- An MSI capability: the register and `pi_msi` change together, or neither does. -/
theorem capCfgwrite_of_msi (hid : pj.cfgdata capoff = pciyMsi)
    (h : capCfgwrite pj capoff offset bytes val = .ok pk) :
    pk.msix = pj.msix ∧
      (offset = capoff + 2 ∧ bytes = 2 →
        pk.cfg16 (capoff + 2) = msgctrlWrite (pj.cfg16 (capoff + 2)) msiRwmask val ∧
          pk.msi = msiOf (pk.cfg16 (capoff + 2))) ∧
      (¬(offset = capoff + 2 ∧ bytes = 2) → pk.msi = pj.msi) := by
  obtain ⟨capid, hcapid, h⟩ := Except.bind_eq_ok.1 h
  obtain rfl : capid = pciyMsi := (pciGetCfgdata8_eq hcapid).trans hid
  rw [if_pos rfl, msicapCfgwrite] at h
  split at h
  next hctrl =>
    obtain ⟨rfl, rfl⟩ := hctrl
    obtain ⟨msgctrl, hmsgctrl, h⟩ := Except.bind_eq_ok.1 h
    obtain rfl := pciGetCfgdata16_eq hmsgctrl
    obtain ⟨_, -, h⟩ := Except.bind_eq_ok.1 h
    obtain ⟨_, -, h⟩ := Except.bind_eq_ok.1 h
    dsimp only at h
    obtain ⟨hreg, hmsi, hmsix⟩ := cfgwrite_ctrl h
    refine ⟨hmsix, fun _ => ⟨hreg, ?_⟩, fun hne => absurd ⟨rfl, rfl⟩ hne⟩
    rw [hmsi, hreg]
    rfl
  next hctrl =>
    obtain ⟨hmsi, hmsix⟩ := cfgwrite_msi h
    exact ⟨hmsix, fun hin => absurd hin hctrl, fun _ => hmsi⟩

/-- An MSI-X capability. -/
theorem capCfgwrite_of_msix (hid : pj.cfgdata capoff = pciyMsix)
    (h : capCfgwrite pj capoff offset bytes val = .ok pk) :
    pk.msi = pj.msi ∧
      (offset = capoff + 2 ∧ bytes = 2 →
        pk.cfg16 (capoff + 2) = msgctrlWrite (pj.cfg16 (capoff + 2)) msixRwmask val ∧
          pk.msix = msixOf (pk.cfg16 (capoff + 2))) ∧
      (¬(offset = capoff + 2 ∧ bytes = 2) → pk.msix = pj.msix) := by
  obtain ⟨capid, hcapid, h⟩ := Except.bind_eq_ok.1 h
  obtain rfl : capid = pciyMsix := (pciGetCfgdata8_eq hcapid).trans hid
  rw [if_neg (by decide), if_pos rfl, msixcapCfgwrite] at h
  split at h
  next hctrl =>
    obtain ⟨rfl, rfl⟩ := hctrl
    obtain ⟨msgctrl, hmsgctrl, h⟩ := Except.bind_eq_ok.1 h
    obtain rfl := pciGetCfgdata16_eq hmsgctrl
    dsimp only at h
    obtain ⟨hreg, hmsi, hmsix⟩ := cfgwrite_ctrl h
    refine ⟨hmsi, fun _ => ⟨hreg, ?_⟩, fun hne => absurd ⟨rfl, rfl⟩ hne⟩
    rw [hmsix, hreg]
    rfl
  next hctrl =>
    obtain ⟨hmsi, hmsix⟩ := cfgwrite_msi h
    exact ⟨hmsi, fun hin => absurd hin hctrl, fun _ => hmsix⟩

/-- What a write of one byte past the handlers leaves: the byte as it is written, and the fields
as they were. -/
structure StoresByte (pj pk : PciDev) (offset : Nat) (val : U32) : Prop where
  stored : pk.cfgdata offset = val.setWidth 8
  others : ∀ i, i ≠ offset → pk.cfgdata i = pj.cfgdata i
  msi : pk.msi = pj.msi
  msix : pk.msix = pj.msix

theorem cfgwrite_one (h : cfgwrite pj offset val 1 = .ok pk) : StoresByte pj pk offset val := by
  obtain ⟨hmsi, hmsix⟩ := cfgwrite_msi h
  rw [cfgwrite, if_pos rfl] at h
  obtain ⟨_, -, h⟩ := Except.bind_eq_ok.1 h
  obtain rfl := Except.ok.inj h
  exact ⟨Function.update_self _ _ _, fun i hi => Function.update_of_ne hi _ _, hmsi, hmsix⟩

/-- Neither handler looks at a write of one byte. -/
theorem capCfgwrite_byte (hid : pj.cfgdata capoff = pciyMsi ∨ pj.cfgdata capoff = pciyMsix)
    (h : capCfgwrite pj capoff offset 1 val = .ok pk) : StoresByte pj pk offset val := by
  have hctrl : ¬(offset = capoff + 2 ∧ 1 = 2) := by simp
  obtain ⟨capid, hcapid, h⟩ := Except.bind_eq_ok.1 h
  obtain rfl := pciGetCfgdata8_eq hcapid
  rcases hid with hid | hid
  · rw [if_pos hid, msicapCfgwrite, if_neg hctrl] at h
    exact cfgwrite_one h
  · rw [hid, if_neg (by decide), if_pos rfl, msixcapCfgwrite, if_neg hctrl] at h
    exact cfgwrite_one h

/-- Any other capability leaves both alone. -/
theorem capCfgwrite_of_other (hmsi : pj.cfgdata capoff ≠ pciyMsi)
    (hmsix : pj.cfgdata capoff ≠ pciyMsix) (h : capCfgwrite pj capoff offset bytes val = .ok pk) :
    pk.msi = pj.msi ∧ pk.msix = pj.msix := by
  obtain ⟨capid, hcapid, h⟩ := Except.bind_eq_ok.1 h
  obtain rfl := pciGetCfgdata8_eq hcapid
  rw [if_neg hmsi, if_neg hmsix] at h
  split at h
  · exact cfgwrite_msi h
  · obtain rfl := Except.ok.inj h
    exact ⟨rfl, rfl⟩

end Handlers

/-! ## One capability -/

/-- The fields agree with the register of a capability, and its read-only bits are those
it has in `pi`. -/
structure CtrlInv (pi pj : PciDev) (c : Capability) : Prop where
  msi : pi.cfgdata c.off = pciyMsi → pj.msi = msiOf (pj.cfg16 (c.off + 2)) ∧
    pj.cfg16 (c.off + 2) &&& ~~~msiRwmask = pi.cfg16 (c.off + 2) &&& ~~~msiRwmask
  msix : pi.cfgdata c.off = pciyMsix → pj.msix = msixOf (pj.cfg16 (c.off + 2)) ∧
    pj.cfg16 (c.off + 2) &&& ~~~msixRwmask = pi.cfg16 (c.off + 2) &&& ~~~msixRwmask

/-- No two capabilities share an id of MSI or MSI-X. -/
def CtrlOnce (pi : PciDev) (caps : List Capability) : Prop :=
  ∀ c ∈ caps, ∀ d ∈ caps, pi.cfgdata c.off = pi.cfgdata d.off →
    pi.cfgdata c.off = pciyMsi ∨ pi.cfgdata c.off = pciyMsix → c = d

/-- A write of one byte to the message control register of a capability. -/
def CtrlByte (pi : PciDev) (p offset bytes : Nat) : Prop :=
  (pi.cfgdata p = pciyMsi ∨ pi.cfgdata p = pciyMsix) ∧ bytes = 1 ∧
    (offset = p + 2 ∨ offset = p + 3)

/-- The registers `r` and `r'` of a capability show the same: the same fields, and the same
read-only bits. -/
structure SameControl (id : U8) (r r' : U16) : Prop where
  msi : id = pciyMsi → msiOf r' = msiOf r ∧ r' &&& ~~~msiRwmask = r &&& ~~~msiRwmask
  msix : id = pciyMsix → msixOf r' = msixOf r ∧ r' &&& ~~~msixRwmask = r &&& ~~~msixRwmask

section Capwrite

variable {pi pj pk : PciDev} {caps : List Capability} {c : Capability} {fuel i bytes : Nat}
  {val : U32}

/-- A guest write in a capability is passed over, or goes to its handler, for the register
and two bytes, or past it, or is of one byte. -/
theorem CapList.capwrite_cases (h : CapList pi caps) (hk : CapsKept caps pi pj) (hc : c ∈ caps)
    (hi : c.Has i) (halign : cfgAligned i bytes = true) (hfuel : caps.length ≤ fuel)
    (hwrite : pciEmulCapwrite fuel pj i bytes val = .ok pk) :
    pk = pj ∨ ∃ offset' bytes' val', capCfgwrite pj c.off offset' bytes' val' = .ok pk ∧
      ((offset' = c.off + 2 ∧ bytes' = 2) ∨ c.off + 4 ≤ offset' ∨
        (bytes = 1 ∧ (i = c.off + 2 ∨ i = c.off + 3))) := by
  obtain ⟨hbytes, hmod⟩ := cfgAligned_iff.1 halign
  have haligned := h.aligned c hc
  rw [pciEmulCapwrite] at hwrite
  split at hwrite
  · exact .inl (Except.ok.inj hwrite).symm
  · rw [Except.bind_ok (h.findCap_kept hk hc hi hfuel), h.toNat_ptr hc] at hwrite
    obtain ⟨_, -, hwrite⟩ := Except.bind_eq_ok.1 hwrite
    split_ifs at hwrite with hhead htrim
    · obtain ⟨rfl, -⟩ := htrim
      exact .inr ⟨_, _, _, hwrite, .inl ⟨rfl, rfl⟩⟩
    · exact .inl (Except.ok.inj hwrite).symm
    · refine .inr ⟨i, bytes, val, hwrite, ?_⟩
      have hlo := hi.1
      obtain rfl | rfl | rfl := hbytes <;> omega

/-- What a write of something else leaves. -/
theorem CtrlInv.of_same (h : CtrlInv pi pj c)
    (hreg : pi.cfgdata c.off = pciyMsi ∨ pi.cfgdata c.off = pciyMsix →
      pk.cfg16 (c.off + 2) = pj.cfg16 (c.off + 2))
    (hmsi : pi.cfgdata c.off = pciyMsi → pk.msi = pj.msi)
    (hmsix : pi.cfgdata c.off = pciyMsix → pk.msix = pj.msix) : CtrlInv pi pk c where
  msi := by
    intro hid
    rw [hreg (.inl hid), hmsi hid]
    exact h.msi hid
  msix := by
    intro hid
    rw [hreg (.inr hid), hmsix hid]
    exact h.msix hid

/-- **One write** in the region, but for one of a byte to a message control register. -/
theorem CapList.capwrite_ctrl (h : CapList pi caps) (honce : CtrlOnce pi caps)
    (hk : CapsKept caps pi pj) (hinv : ∀ d ∈ caps, CtrlInv pi pj d) (hc : c ∈ caps) (hi : c.Has i)
    (halign : cfgAligned i bytes = true) (hfuel : caps.length ≤ fuel)
    (hbyte : ¬ CtrlByte pi c.off i bytes)
    (hwrite : pciEmulCapwrite fuel pj i bytes val = .ok pk) : ∀ d ∈ caps, CtrlInv pi pk d := by
  have hbody := (h.capwrite_body hk hc hi halign val hfuel).of_ok hwrite
  obtain rfl | ⟨offset', bytes', val', hcap, hoff⟩ :=
    h.capwrite_cases hk hc hi halign hfuel hwrite
  · exact hinv
  have hid := (hk.heads c hc).1
  intro d hd
  -- the register of another capability, or of this one in a write past it
  have hother : d ≠ c → pk.cfg16 (d.off + 2) = pj.cfg16 (d.off + 2) := by
    intro hne
    have hfour := h.four_le hd
    have hapart := (h.packed.apart (fun c _ => c.off_le_stop) hd hc).resolve_left hne
    exact congr_arg₂ (· ++ ·) (hbody.bytes _ (by omega)) (hbody.bytes _ (by omega))
  have hpast : c.off + 4 ≤ offset' → pk.cfg16 (c.off + 2) = pj.cfg16 (c.off + 2) := by
    intro hlo
    have hframe : CapBody (c.off + 4) (offset' + cfgWidth bytes') pj pk :=
      (capCfgwrite_body hlo le_rfl).of_ok hcap
    exact congr_arg₂ (· ++ ·) (hframe.bytes _ (by omega)) (hframe.bytes _ (by omega))
  have hregister : ¬(offset' = c.off + 2 ∧ bytes' = 2) →
      pi.cfgdata c.off = pciyMsi ∨ pi.cfgdata c.off = pciyMsix →
      pk.cfg16 (c.off + 2) = pj.cfg16 (c.off + 2) := by
    intro hctrl hid
    refine hpast ((hoff.resolve_left hctrl).resolve_right fun hone => ?_)
    exact hbyte ⟨hid, hone⟩
  by_cases hmsi : pi.cfgdata c.off = pciyMsi
  · obtain ⟨hmsix, hctrl, hplain⟩ := capCfgwrite_of_msi (hid.trans hmsi) hcap
    by_cases hd' : d = c
    · subst hd'
      refine ⟨fun _ => ?_, fun hid' => absurd (hmsi.symm.trans hid') (by decide)⟩
      by_cases hin : offset' = d.off + 2 ∧ bytes' = 2
      · obtain ⟨hreg, hmirror⟩ := hctrl hin
        refine ⟨hmirror, ?_⟩
        rw [hreg, msgctrlWrite_readonly]
        exact ((hinv d hd).msi hmsi).2
      · rw [hregister hin (.inl hmsi), hplain hin]
        exact (hinv d hd).msi hmsi
    · refine (hinv d hd).of_same (fun _ => hother hd') (fun hid' => ?_) fun _ => hmsix
      exact absurd (honce d hd c hc (hid'.trans hmsi.symm) (.inl hid')) hd'
  by_cases hmsix : pi.cfgdata c.off = pciyMsix
  · obtain ⟨hmsi', hctrl, hplain⟩ := capCfgwrite_of_msix (hid.trans hmsix) hcap
    by_cases hd' : d = c
    · subst hd'
      refine ⟨fun hid' => absurd hid' hmsi, fun _ => ?_⟩
      by_cases hin : offset' = d.off + 2 ∧ bytes' = 2
      · obtain ⟨hreg, hmirror⟩ := hctrl hin
        refine ⟨hmirror, ?_⟩
        rw [hreg, msgctrlWrite_readonly]
        exact ((hinv d hd).msix hmsix).2
      · rw [hregister hin (.inr hmsix), hplain hin]
        exact (hinv d hd).msix hmsix
    · refine (hinv d hd).of_same (fun _ => hother hd') (fun _ => hmsi') fun hid' => ?_
      exact absurd (honce d hd c hc (hid'.trans hmsix.symm) (.inr hid')) hd'
  · obtain ⟨hmsi', hmsix'⟩ :=
      capCfgwrite_of_other (by rwa [hid]) (by rwa [hid]) hcap
    refine (hinv d hd).of_same (fun hid' => hother ?_) (fun _ => hmsi') fun _ => hmsix'
    rintro rfl
    exact hid'.elim hmsi hmsix

/-- **One write** of a byte to a message control register. -/
theorem CapList.capwrite_byte (h : CapList pi caps) (hk : CapsKept caps pi pj) (hc : c ∈ caps)
    (hfuel : caps.length ≤ fuel) (hbyte : CtrlByte pi c.off i bytes)
    (hwrite : pciEmulCapwrite fuel pj i bytes val = .ok pk) : StoresByte pj pk i val := by
  obtain ⟨hid, rfl, hoff⟩ := hbyte
  have hfour := h.four_le hc
  have hi : c.Has i := ⟨by omega, by omega⟩
  rw [← (hk.heads c hc).1] at hid
  rw [pciEmulCapwrite, if_neg (by simp), Except.bind_ok (h.findCap_kept hk hc hi hfuel),
    h.toNat_ptr hc] at hwrite
  obtain ⟨_, -, hwrite⟩ := Except.bind_eq_ok.1 hwrite
  rw [if_neg (by omega)] at hwrite
  exact capCfgwrite_byte hid hwrite

/-- The fields agree with the registers after it, if the register shows the same as before. -/
theorem StoresByte.ctrl_iff (h : CapList pi caps) (hinv : ∀ d ∈ caps, CtrlInv pi pj d)
    (hc : c ∈ caps) (hoff : i = c.off + 2 ∨ i = c.off + 3) (hstores : StoresByte pj pk i val) :
    (∀ d ∈ caps, CtrlInv pi pk d) ↔
      SameControl (pi.cfgdata c.off) (pj.cfg16 (c.off + 2)) (pk.cfg16 (c.off + 2)) := by
  constructor
  · intro hall
    refine ⟨fun hid => ?_, fun hid => ?_⟩
    · obtain ⟨hmsi, hreadonly⟩ := (hinv c hc).msi hid
      obtain ⟨hmsi', hreadonly'⟩ := (hall c hc).msi hid
      exact ⟨hmsi'.symm.trans (hstores.msi.trans hmsi), hreadonly'.trans hreadonly.symm⟩
    · obtain ⟨hmsix, hreadonly⟩ := (hinv c hc).msix hid
      obtain ⟨hmsix', hreadonly'⟩ := (hall c hc).msix hid
      exact ⟨hmsix'.symm.trans (hstores.msix.trans hmsix), hreadonly'.trans hreadonly.symm⟩
  · intro hsame d hd
    by_cases hd' : d = c
    · subst hd'
      refine ⟨fun hid => ?_, fun hid => ?_⟩
      · obtain ⟨hmsi, hreadonly⟩ := (hinv d hd).msi hid
        obtain ⟨hfields, hbits⟩ := hsame.msi hid
        exact ⟨(hstores.msi.trans hmsi).trans hfields.symm, hbits.trans hreadonly⟩
      · obtain ⟨hmsix, hreadonly⟩ := (hinv d hd).msix hid
        obtain ⟨hfields, hbits⟩ := hsame.msix hid
        exact ⟨(hstores.msix.trans hmsix).trans hfields.symm, hbits.trans hreadonly⟩
    · have hfour := h.four_le hd
      have hfour' := h.four_le hc
      have hapart := (h.packed.apart (fun c _ => c.off_le_stop) hd hc).resolve_left hd'
      refine (hinv d hd).of_same (fun _ => ?_) (fun _ => hstores.msi) fun _ => hstores.msix
      exact congr_arg₂ (· ++ ·) (hstores.others _ (by omega)) (hstores.others _ (by omega))

end Capwrite

/-! ## The other writes -/

/-- A write outside the region leaves the capabilities and the fields alone. -/
structure CapsUntouched (pj pk : PciDev) : Prop where
  bytes : ∀ i, capStartOffset ≤ i → i < pj.capNext → pk.cfgdata i = pj.cfgdata i
  status : pk.cfg16 pcirStatus = pj.cfg16 pcirStatus
  capend : pk.capend = pj.capend
  msi : pk.msi = pj.msi
  msix : pk.msix = pj.msix

namespace CapsUntouched

variable {T : PciMemTree} {reg : MmioHeap T} {pj pk : PciDev} {r : MmioHeap T × PciDev}
  {fuel coff bytes lo hi : Nat} {val : U32}

theorem of_frame (h : CfgFrame lo hi pj pk) (hcap : hi ≤ capStartOffset ∨ pj.capNext ≤ lo)
    (hstatus : pk.cfg16 pcirStatus = pj.cfg16 pcirStatus) : CapsUntouched pj pk where
  bytes := by
    intro i hlo hhi
    refine h.bytes i ?_
    omega
  status := hstatus
  capend := by rw [h.rest]
  msi := by rw [h.rest]
  msix := by rw [h.rest]

theorem of_bar (hbar : pcirBar 0 ≤ coff ∧ coff < pcirBar (pciBarmax + 1))
    (h : pciCfgwriteBar reg pj coff bytes val = .ok r) : CapsUntouched pj r.2 := by
  obtain ⟨hrest, hbytes⟩ := pciCfgwriteBar_rest h
  simp only [pcirBar, pciBarmax] at hbar
  refine ⟨?_, ?_, ?_, ?_, ?_⟩
  · intro i hlo _
    rw [capStartOffset] at hlo
    exact hbytes i (.inr (by omega))
  · rw [pcirStatus]
    exact congr_arg₂ (· ++ ·) (hbytes _ (.inl (by omega))) (hbytes _ (.inl (by omega)))
  · rw [hrest]
  · rw [hrest]
  · rw [hrest]

theorem of_cmdsts (halign : cfgAligned coff bytes = true)
    (hcmd : pcirCommand ≤ coff ∧ coff < pcirRevid)
    (h : pciEmulCmdstsWrite reg pj coff val bytes = .ok r) : CapsUntouched pj r.2 := by
  obtain ⟨pk, hwrite, h⟩ := Except.bind_eq_ok.1 h
  obtain ⟨reg', -, h⟩ := Except.bind_eq_ok.1 h
  obtain rfl := Except.ok.inj h
  have hstatus := cmdstsCfgwrite_status halign hcmd hwrite
  obtain ⟨old, -, hwrite⟩ := Except.bind_eq_ok.1 hwrite
  have hframe := cfgwrite_frame hwrite
  obtain ⟨hbytes, hmod⟩ := cfgAligned_iff.1 halign
  rw [cfgWidth_of_mem hbytes] at hframe
  have hle : coff + bytes ≤ capStartOffset := by
    simp only [pcirCommand, pcirRevid] at hcmd
    rw [capStartOffset]
    omega
  obtain ⟨h₁, h₂, h₃, h₄, h₅⟩ := of_frame hframe (.inl hle) hstatus
  exact ⟨h₁, h₂, h₃, h₄, h₅⟩

/-- Outside the region is before it or behind it. -/
theorem outside (hcap : pciEmulIscap pj coff = false) :
    coff < capStartOffset ∨ pj.capNext ≤ coff := by
  by_contra hin
  obtain ⟨hlo, hhi⟩ := not_or.1 hin
  have hfirst : ¬ pj.capFirst = true := by
    intro hfirst
    rw [PciDev.capNext, if_pos hfirst] at hhi
    exact hhi (Nat.le_of_not_lt hlo)
  rw [PciDev.capNext, if_neg hfirst] at hhi
  have hpresent : (pj.cfg16 pcirStatus &&& pcimStatusCappresent != 0) = true := by
    simpa [PciDev.capFirst] using hfirst
  have hle : coff ≤ pj.capend := by omega
  rw [pciEmulIscap, hpresent, decide_eq_true (Nat.le_of_not_lt hlo), decide_eq_true hle] at hcap
  cases hcap

/-- **One write** outside the region. -/
theorem of_cfgwriteDev (halign : cfgAligned coff bytes = true) (hcap : pciEmulIscap pj coff = false)
    (h : pciCfgwriteDev fuel reg pj coff bytes val = .ok r) : CapsUntouched pj r.2 := by
  rw [pciCfgwriteDev] at h
  split at h
  next hbar => exact of_bar hbar h
  rw [if_neg (by simp [hcap])] at h
  split at h
  next hcmd => exact of_cmdsts halign hcmd h
  next hcmd =>
    obtain ⟨pk, hwrite, h⟩ := Except.bind_eq_ok.1 h
    obtain rfl := Except.ok.inj h
    have hframe := cfgwrite_frame hwrite
    obtain ⟨hbytes, hmod⟩ := cfgAligned_iff.1 halign
    rw [cfgWidth_of_mem hbytes] at hframe
    simp only [pcirCommand, pcirRevid] at hcmd
    refine of_frame hframe ?_ (hframe.cfg16 ?_)
    · -- an aligned write below the region ends below it
      rcases outside hcap with hlt | hge
      · refine .inl ?_
        rw [capStartOffset] at hlt ⊢
        obtain rfl | rfl | rfl := hbytes <;> omega
      · exact .inr hge
    · rw [pcirStatus]
      obtain rfl | rfl | rfl := hbytes <;> omega

end CapsUntouched

/-! ## Runs -/

/-- The pointers that a guest finds by following the list from `PCIR_CAP_PTR`. -/
def capPtrs (pi : PciDev) : List Nat :=
  (follow 0 pi.nextPtr 48 (pi.cfgdata pcirCapPtr)).map BitVec.toNat

/-- The MSI fields agree with the message control register of the capability at `p`, whose
read-only bits are those it has in `pi`. -/
structure MsiMirror (pi pj : PciDev) (p : Nat) : Prop where
  readonly : pj.cfg16 (p + 2) &&& ~~~(pcimMsictrlMmeMask ||| pcimMsictrlMsiEnable) =
    pi.cfg16 (p + 2) &&& ~~~(pcimMsictrlMmeMask ||| pcimMsictrlMsiEnable)
  enabled : pj.msi.enabled = true ↔ pj.cfg16 (p + 2) &&& pcimMsictrlMsiEnable ≠ 0
  maxmsgnum : pj.msi.maxmsgnum =
    if pj.msi.enabled then 2 ^ ((pj.cfg16 (p + 2) &&& pcimMsictrlMmeMask) >>> 4).toNat else 0

/-- The MSI-X fields agree with theirs. -/
structure MsixMirror (pi pj : PciDev) (p : Nat) : Prop where
  readonly : pj.cfg16 (p + 2) &&& ~~~(pcimMsixctrlMsixEnable ||| pcimMsixctrlFunctionMask) =
    pi.cfg16 (p + 2) &&& ~~~(pcimMsixctrlMsixEnable ||| pcimMsixctrlFunctionMask)
  enabled : pj.msix.enabled = true ↔ pj.cfg16 (p + 2) &&& pcimMsixctrlMsixEnable ≠ 0
  functionMask : pj.msix.functionMask = true ↔ pj.cfg16 (p + 2) &&& pcimMsixctrlFunctionMask ≠ 0

/-- The fields of a device agree with its capabilities, as `pi` has them. -/
structure ControlMirrors (pi pj : PciDev) : Prop where
  msi : ∀ p ∈ capPtrs pi, pi.cfgdata p = pciyMsi → MsiMirror pi pj p
  msix : ∀ p ∈ capPtrs pi, pi.cfgdata p = pciyMsix → MsixMirror pi pj p

section Runs

variable {T : PciMemTree} {pi pj : PciDev} {caps : List Capability} {fuel : Nat} {a : PciAddr}
  {s s' : PciBus T}

/-- A guest write through `pci_cfgrw`, to any device. -/
def CfgStep (fuel : Nat) (s : PciBus T) (l : PciAddr × CfgWrite) (s' : PciBus T) : Prop :=
  pciCfgwrite fuel s l.1 l.2.offset l.2.bytes l.2.val = .ok s'

/-- The write is not of one byte to a message control register of the device at `a`. -/
def NoCtrlByte (a : PciAddr) (pi : PciDev) (_ : PciBus T) (l : PciAddr × CfgWrite) : Prop :=
  l.1 = a → ∀ p ∈ capPtrs pi, ¬ CtrlByte pi p l.2.offset l.2.bytes

theorem CtrlInv.msiMirror {c : Capability} (h : CtrlInv pi pj c) (hid : pi.cfgdata c.off = pciyMsi) :
    MsiMirror pi pj c.off := by
  obtain ⟨hmsi, hreadonly⟩ := h.msi hid
  refine ⟨hreadonly, ?_, ?_⟩
  · rw [hmsi, msiOf]
    split
    next hen => simpa using hen
    next hen => simpa using hen
  · rw [hmsi, msiOf]
    split
    · simp [Nat.one_shiftLeft]
    · simp

theorem CtrlInv.msixMirror {c : Capability} (h : CtrlInv pi pj c)
    (hid : pi.cfgdata c.off = pciyMsix) : MsixMirror pi pj c.off := by
  obtain ⟨hmsix, hreadonly⟩ := h.msix hid
  refine ⟨hreadonly, ?_, ?_⟩
  · rw [hmsix]
    simp [msixOf]
  · rw [hmsix]
    simp [msixOf]

/-- The other way round: the mirrors say what the fields are. -/
theorem MsiMirror.ctrl {p : Nat} (h : MsiMirror pi pj p) : pj.msi = msiOf (pj.cfg16 (p + 2)) := by
  rcases hmsi : pj.msi with ⟨enabled, maxmsgnum⟩
  have hen := h.enabled
  have hmax := h.maxmsgnum
  rw [hmsi] at hen hmax
  dsimp only at hen hmax
  rw [← bne_iff_ne] at hen
  rw [hmax, msiOf, Bool.eq_iff_iff.2 hen]
  split
  · next hbit => rw [hbit, Nat.one_shiftLeft]
  · next hbit => rw [Bool.eq_false_iff.2 hbit]

theorem MsixMirror.ctrl {p : Nat} (h : MsixMirror pi pj p) :
    pj.msix = msixOf (pj.cfg16 (p + 2)) := by
  rcases hmsix : pj.msix with ⟨enabled, functionMask⟩
  have hen := h.enabled
  have hmask := h.functionMask
  rw [hmsix] at hen hmask
  dsimp only at hen hmask
  rw [← bne_iff_ne] at hen hmask
  rw [msixOf, Bool.eq_iff_iff.2 hen, Bool.eq_iff_iff.2 hmask]

theorem CapList.capPtrs_eq (h : CapList pi caps) : capPtrs pi = caps.map Capability.off := by
  rw [capPtrs, h.visits h.length_le, List.map_map]
  refine List.map_congr_left fun c hc => ?_
  exact h.toNat_ptr hc

/-- A write outside the region. -/
theorem CapList.untouched_ctrl {pk : PciDev} (h : CapList pi caps) (hk : CapsKept caps pi pj)
    (hctrl : ∀ c ∈ caps, CtrlInv pi pj c) (hun : CapsUntouched pj pk) :
    CapsKept caps pi pk ∧ ∀ c ∈ caps, CtrlInv pi pk c := by
  have hbytes : ∀ c ∈ caps, ∀ i, c.Has i → pk.cfgdata i = pj.cfgdata i := by
    intro c hc i hi
    obtain ⟨hlo, hhi⟩ := h.between hc
    refine hun.bytes i (hlo.trans hi.1) ?_
    rw [hk.capNext]
    exact hi.2.trans_le hhi
  refine ⟨⟨?_, hun.capend.trans hk.capend, ?_⟩, ?_⟩
  · exact (PciDev.capFirst_congr hun.status).trans hk.first
  · intro c hc
    have hfour := h.four_le hc
    rw [hbytes c hc c.off ⟨by omega, by omega⟩, hbytes c hc (c.off + 1) ⟨by omega, by omega⟩]
    exact hk.heads c hc
  · intro c hc
    have hfour := h.four_le hc
    refine (hctrl c hc).of_same (fun _ => ?_) (fun _ => hun.msi) fun _ => hun.msix
    exact congr_arg₂ (· ++ ·) (hbytes c hc _ ⟨by omega, by omega⟩)
      (hbytes c hc _ ⟨by omega, by omega⟩)

/-- What the guest finds of a device that still has its capabilities. -/
theorem CapList.mirrors_iff (h : CapList pi caps) :
    ControlMirrors pi pj ↔ ∀ c ∈ caps, CtrlInv pi pj c := by
  have hmem : ∀ p, p ∈ capPtrs pi ↔ ∃ c ∈ caps, c.off = p := by
    intro p
    rw [h.capPtrs_eq]
    exact List.mem_map
  constructor
  · intro hmirrors c hc
    have hp := (hmem c.off).2 ⟨c, hc, rfl⟩
    refine ⟨fun hid => ?_, fun hid => ?_⟩
    · have hmirror := hmirrors.msi c.off hp hid
      exact ⟨hmirror.ctrl, hmirror.readonly⟩
    · have hmirror := hmirrors.msix c.off hp hid
      exact ⟨hmirror.ctrl, hmirror.readonly⟩
  · intro hctrl
    refine ⟨fun p hp hid => ?_, fun p hp hid => ?_⟩
    · obtain ⟨c, hc, rfl⟩ := (hmem p).1 hp
      exact (hctrl c hc).msiMirror hid
    · obtain ⟨c, hc, rfl⟩ := (hmem p).1 hp
      exact (hctrl c hc).msixMirror hid

/-- **Any write** but those of a byte to a message control register. -/
theorem CapList.step_ctrl (h : CapList pi caps) (honce : CtrlOnce pi caps)
    (hfuel : caps.length ≤ fuel) {l : PciAddr × CfgWrite}
    (hinv : ∃ pj, s.devi a = some pj ∧ CapsKept caps pi pj ∧ ∀ c ∈ caps, CtrlInv pi pj c)
    (hstep : CfgStep fuel s l s') (hok : NoCtrlByte a pi s l) :
    ∃ pj, s'.devi a = some pj ∧ CapsKept caps pi pj ∧ ∀ c ∈ caps, CtrlInv pi pj c := by
  obtain ⟨b, offset, bytes, val⟩ := l
  obtain ⟨pj, hdevi, hk, hctrl⟩ := hinv
  obtain rfl | ⟨pj', r, hdevi', halign, -, hwrite, rfl⟩ := pciCfgwrite_cases hstep
  · exact ⟨pj, hdevi, hk, hctrl⟩
  by_cases hb : b = a
  · subst hb
    obtain rfl : pj' = pj := Option.some.inj (hdevi'.symm.trans hdevi)
    refine ⟨r.2, by simp, ?_⟩
    cases hcap : pciEmulIscap pj' offset with
    | true =>
      have hcap' : pciEmulIscap pi offset = true := (hk.iscap offset).symm.trans hcap
      obtain ⟨c, hc, hi⟩ := h.exists_has hcap'
      have hbar : ¬(pcirBar 0 ≤ offset ∧ offset < pcirBar (pciBarmax + 1)) := by
        rintro ⟨-, hlt⟩
        exact absurd (((h.between hc).1.trans hi.1).trans_lt hlt) (by decide)
      rw [pciCfgwriteDev, if_neg hbar, if_pos hcap] at hwrite
      obtain ⟨pk, hcapwrite, hwrite⟩ := Except.bind_eq_ok.1 hwrite
      obtain rfl := Except.ok.inj hwrite
      have hbyte : ¬ CtrlByte pi c.off offset bytes := by
        refine hok rfl c.off ?_
        rw [h.capPtrs_eq]
        exact List.mem_map_of_mem hc
      refine ⟨h.kept_of_body hk hc ?_, ?_⟩
      · exact (h.capwrite_body hk hc hi halign val hfuel).of_ok hcapwrite
      · exact h.capwrite_ctrl honce hk hctrl hc hi halign hfuel hbyte hcapwrite
    | false => exact h.untouched_ctrl hk hctrl (.of_cfgwriteDev halign hcap hwrite)
  · refine ⟨pj, ?_, hk, hctrl⟩
    have hne : a ≠ b := Ne.symm hb
    rw [PciBus.setDevi_of_ne _ _ hne]
    exact hdevi

/-- **A write of a byte** to a message control register of the device. -/
theorem CapList.step_byte (h : CapList pi caps) (hfuel : caps.length ≤ fuel) {c : Capability}
    (hdevi : s.devi a = some pj) (hk : CapsKept caps pi pj) (hc : c ∈ caps) {offset bytes : Nat}
    {val : U32} (hbyte : CtrlByte pi c.off offset bytes)
    (hstep : CfgStep fuel s (a, ⟨offset, bytes, val⟩) s') :
    ∃ pk, s'.devi a = some pk ∧ StoresByte pj pk offset val := by
  have hoff := hbyte.2.2
  obtain rfl : bytes = 1 := hbyte.2.1
  have hfour := h.four_le hc
  obtain ⟨hlo, hhi⟩ := h.between hc
  have hwithin := h.within
  have hcap : pciEmulIscap pj offset = true := by
    have hfirst : pi.capFirst = false :=
      Bool.eq_false_iff.2 fun hnone => List.not_mem_nil (h.first.1 hnone ▸ hc)
    have hnext : pi.capNext = pi.capend + 1 := by rw [PciDev.capNext, hfirst]; rfl
    have hpresent : (pi.cfg16 pcirStatus &&& pcimStatusCappresent != 0) = true := by
      rw [PciDev.capFirst] at hfirst
      rw [bne, hfirst]
      rfl
    rw [hk.iscap, pciEmulIscap, hpresent, decide_eq_true (by omega), decide_eq_true (by omega)]
    rfl
  have hbar : ¬(pcirBar 0 ≤ offset ∧ offset < pcirBar (pciBarmax + 1)) := by
    rintro ⟨-, hlt⟩
    exact absurd ((hlo.trans (by omega)).trans_lt hlt) (by decide)
  have hin : (cfgAligned offset 1 && decide (offset ≤ pciRegmax)) = true := by
    have hle : offset ≤ pciRegmax := by omega
    simp [cfgAligned, hle]
  rw [CfgStep, pciCfgwrite] at hstep
  simp only [hdevi, hin, if_true] at hstep
  obtain ⟨r, hwrite, hstep⟩ := Except.bind_eq_ok.1 hstep
  obtain rfl := Except.ok.inj hstep
  rw [pciCfgwriteDev, if_neg hbar, if_pos hcap] at hwrite
  obtain ⟨pk, hcapwrite, hwrite⟩ := Except.bind_eq_ok.1 hwrite
  obtain rfl := Except.ok.inj hwrite
  exact ⟨pk, by simp, h.capwrite_byte hk hc hfuel hbyte hcapwrite⟩

end Runs

/-! ## The start -/

theorem accepted_sublist (datas : List (List U8)) (oks : List Bool) :
    (accepted datas oks).Sublist datas := by
  induction datas generalizing oks with
  | nil => simp [accepted]
  | cons d datas ih =>
    cases oks with
    | nil => simp [accepted]
    | cons ok oks =>
      have htail := ih oks
      rw [accepted] at htail ⊢
      cases ok
      · simpa using htail.cons d
      · simpa using htail

section Start

variable {pi pi' : PciDev} {datas : List (List U8)} {oks : List Bool} {caps : List Capability}
  {c : Capability}

/-- The id of a capability is the first of its bytes. -/
theorem CapList.data_zero (h : CapList pi caps) (hc : c ∈ caps) :
    c.data[0]? = some (pi.cfgdata c.off) := by
  have hlen : 0 < c.data.length := (h.two_le c hc).trans_lt' (by decide)
  have hget := List.getElem?_eq_getElem hlen
  rw [hget]
  exact congrArg some (h.bytes c hc 0 _ (by decide) hget).symm

theorem CapList.dataCtrl_eq (h : CapList pi caps) (hc : c ∈ caps) (hlen : 4 ≤ c.data.length) :
    pi.cfg16 (c.off + 2) = dataCtrl c.data := by
  have hbyte : ∀ i, i ≠ 1 → i < 4 → pi.cfgdata (c.off + i) = c.data.getD i 0 := by
    intro i hi hlt
    have hget := List.getElem?_eq_getElem (hlt.trans_le hlen)
    rw [List.getD_eq_getElem?_getD, hget]
    exact h.bytes c hc i _ hi hget
  exact congr_arg₂ (· ++ ·) (hbyte 3 (by decide) (by decide)) (hbyte 2 (by decide) (by decide))

/-- The fields of a fresh device agree with capabilities that leave messages off. -/
theorem MsiInit.ctrl (hinit : MsiInit pi datas) (h : CapList pi' caps)
    (hcaps : caps.map Capability.data = accepted datas oks) (hmsi : pi'.msi = pi.msi)
    (hmsix : pi'.msix = pi.msix) : CtrlOnce pi' caps ∧ ∀ c ∈ caps, CtrlInv pi' pi' c := by
  have hsub := accepted_sublist datas oks
  rw [← hcaps] at hsub
  refine ⟨?_, fun c hc => ⟨fun hid => ⟨?_, rfl⟩, fun hid => ⟨?_, rfl⟩⟩⟩
  · have honce : caps.Pairwise fun c d => pi'.cfgdata c.off = pi'.cfgdata d.off →
        pi'.cfgdata c.off = pciyMsi ∨ pi'.cfgdata c.off = pciyMsix → c = d := by
      refine (List.pairwise_map.1 (hinit.once.sublist hsub)).imp_of_mem ?_
      intro c d hc hd hne heq hid
      rw [h.data_zero hc, h.data_zero hd, heq] at hne
      rw [heq] at hid
      obtain ⟨hmsi, hmsix⟩ := hne rfl
      exact (hid.elim (fun hid => hmsi (congrArg some hid)) fun hid =>
        hmsix (congrArg some hid)).elim
    intro c hc d hd
    refine List.Pairwise.forall_of_forall_of_flip (fun _ _ _ _ => rfl) honce ?_ hc hd
    refine honce.imp ?_
    intro c d hcd heq hid
    exact (hcd heq.symm (heq ▸ hid)).symm
  · obtain ⟨hlen, hen⟩ := (hinit.quiet c.data (hsub.subset (List.mem_map_of_mem hc))).msi
      ((h.data_zero hc).trans (congrArg some hid))
    rw [hmsi, hinit.msi, h.dataCtrl_eq hc hlen, msiOf, hen]
    rfl
  · obtain ⟨hlen, hen⟩ := (hinit.quiet c.data (hsub.subset (List.mem_map_of_mem hc))).msix
      ((h.data_zero hc).trans (congrArg some hid))
    have hbits : ∀ bit : U16, msixRwmask &&& bit = bit → dataCtrl c.data &&& bit = 0 := by
      intro bit hbit
      rw [← hbit, ← BitVec.and_assoc, hen]
      simp
    rw [hmsix, hinit.msix, h.dataCtrl_eq hc hlen, msixOf, hbits _ (by decide), hbits _ (by decide)]
    rfl

end Start

/-- **The control registers and the fields agree**, after every run of guest writes of which
none is of one byte to such a register. Such a byte is then stored as it is, and the fields stay
as they were: so register and fields agree after it only where the register shows the same as
before. -/
theorem msi_control_mirrors {pi pi' : PciDev} {datas : List (List U8)} {oks : List Bool}
    (hinit : MsiInit pi datas) (hcalls : addCapabilities pi datas = .ok (pi', oks))
    {T : PciMemTree} {fuel : Nat} {a : PciAddr} {s s' : PciBus T} (hfuel : 48 ≤ fuel)
    (hdevi : s.devi a = some pi')
    (hrun : Reaches (Guarded (CfgStep fuel) (NoCtrlByte a pi')) (· = s) s') :
    ∃ pj, s'.devi a = some pj ∧ ControlMirrors pi' pj ∧
      ∀ p ∈ capPtrs pi', ∀ offset bytes val t, CtrlByte pi' p offset bytes →
        CfgStep fuel s' (a, ⟨offset, bytes, val⟩) t →
          ∃ pk, t.devi a = some pk ∧ StoresByte pj pk offset val ∧
            (ControlMirrors pi' pk ↔
              SameControl (pi'.cfgdata p) (pj.cfg16 (p + 2)) (pk.cfg16 (p + 2))) := by
  obtain ⟨pi'', oks', caps, hcalls', hcaps, h, hmsi, hmsix⟩ :=
    (CapList.of_fresh hinit.fresh).addCapabilities_returns datas hinit.two_le
  obtain ⟨rfl, rfl⟩ := Prod.mk.inj (Except.ok.inj (hcalls.symm.trans hcalls'))
  rw [List.nil_append] at h
  have hlen := h.length_le.trans hfuel
  obtain ⟨honce, hctrl⟩ := hinit.ctrl h hcaps hmsi hmsix
  obtain ⟨pj, hpj, hk, hctrl⟩ := hrun.invariant
    (I := fun s => ∃ pj, s.devi a = some pj ∧ CapsKept caps pi' pj ∧ ∀ c ∈ caps, CtrlInv pi' pj c)
    (by
      rintro s rfl
      exact ⟨pi', hdevi, ⟨rfl, rfl, fun _ _ => ⟨rfl, rfl⟩⟩, hctrl⟩)
    fun s l t hinv hstep => h.step_ctrl honce hlen hinv hstep.1 hstep.2
  refine ⟨pj, hpj, h.mirrors_iff.2 hctrl, ?_⟩
  intro p hp offset bytes val t hbyte hstep
  rw [h.capPtrs_eq] at hp
  obtain ⟨c, hc, rfl⟩ := List.mem_map.1 hp
  obtain ⟨pk, hpk, hstores⟩ := h.step_byte hlen hpj hk hc hbyte hstep
  exact ⟨pk, hpk, hstores, h.mirrors_iff.trans (hstores.ctrl_iff h hctrl hc hbyte.2.2)⟩

/-! ### A device with both -/

/-- An MSI capability for four messages, and an MSI-X capability with a table of four. -/
def msiData : List (List U8) :=
  [pciPopulateMsicap 2 0, outcome (pciPopulateMsixcap 4 0 4096) []]

def msiOutcome : PciDev × List Bool :=
  outcome (addCapabilities (pciEmulDevinst e1000Addr) msiData) (pciEmulDevinst e1000Addr, [])

def msiDev : PciDev := msiOutcome.1

def msiBus : PciBus OrderedTree.list :=
  { reg := ⟨initMem _, 0⟩, devi := Function.update (fun _ => none) e1000Addr (some msiDev) }

theorem msiBus_devi : msiBus.devi e1000Addr = some msiDev := by
  simp [msiBus]

theorem msiData_init : MsiInit (pciEmulDevinst e1000Addr) msiData where
  fresh := ⟨by decide, by decide⟩
  msi := rfl
  msix := rfl
  two_le := by decide
  quiet := by
    have hmsix : pciPopulateMsixcap 4 0 4096 = .ok (outcome (pciPopulateMsixcap 4 0 4096) []) :=
      eq_ok_outcome (by decide)
    simp only [msiData, List.mem_cons, List.not_mem_nil, or_false, forall_eq_or_imp, forall_eq]
    exact ⟨pciPopulateMsicap_quiet (by decide),
      pciPopulateMsixcap_quiet (by decide) (by decide) hmsix⟩
  once := by decide

theorem msiOutcome_calls :
    addCapabilities (pciEmulDevinst e1000Addr) msiData = .ok (msiDev, msiOutcome.2) := by
  have hreturns : addCapabilities (pciEmulDevinst e1000Addr) msiData = .ok msiOutcome :=
    eq_ok_outcome (by decide +kernel)
  exact hreturns

/-- After the guest has turned MSI on in a write of two bytes. -/
def msiBusEnabled : PciBus OrderedTree.list :=
  outcome (pciCfgwrite 48 msiBus e1000Addr 0x42 2 0xffff) msiBus

/-- And then off, in one of one byte. -/
def msiBusCleared : PciBus OrderedTree.list :=
  outcome (pciCfgwrite 48 msiBusEnabled e1000Addr 0x42 1 0) msiBusEnabled

/-- Register and field agree after the first write, and not after the second. -/
theorem msi_control_mirrors_enabled : ∃ pj pk, msiBusEnabled.devi e1000Addr = some pj ∧
    ControlMirrors msiDev pj ∧ msiBusCleared.devi e1000Addr = some pk ∧
      StoresByte pj pk 0x42 0 ∧ ¬ ControlMirrors msiDev pk := by
  have hwrite : pciCfgwrite 48 msiBus e1000Addr 0x42 2 0xffff = .ok msiBusEnabled :=
    eq_ok_outcome (by decide +kernel)
  have hclear : pciCfgwrite 48 msiBusEnabled e1000Addr 0x42 1 0 = .ok msiBusCleared :=
    eq_ok_outcome (by decide +kernel)
  have hreach : Reaches (Guarded (CfgStep 48) (NoCtrlByte e1000Addr msiDev)) (· = msiBus)
      msiBusEnabled := by
    refine @Reaches.next _ _ _ _ _ _ (e1000Addr, ⟨0x42, 2, 0xffff⟩) (.start rfl) ⟨hwrite, ?_⟩
    intro _ p _ hbyte
    exact absurd hbyte.2.1 (by decide)
  obtain ⟨pj, hpj, hmirrors, hbytes⟩ :=
    msi_control_mirrors msiData_init msiOutcome_calls (by decide) msiBus_devi hreach
  have hid : msiDev.cfgdata 0x40 = pciyMsi := by decide +kernel
  obtain ⟨pk, hpk, hstores, hiff⟩ := hbytes 0x40 (by decide +kernel) 0x42 1 0 msiBusCleared
    ⟨.inl hid, rfl, .inl rfl⟩ hclear
  refine ⟨pj, pk, hpj, hmirrors, hpk, hstores, fun hsame => ?_⟩
  have hon : ((msiBusEnabled.devi e1000Addr).map fun pj => (msiOf (pj.cfg16 0x42)).enabled) =
      some true := by decide +kernel
  have hoff : ((msiBusCleared.devi e1000Addr).map fun pk => (msiOf (pk.cfg16 0x42)).enabled) =
      some false := by decide +kernel
  rw [hpj] at hon
  rw [hpk] at hoff
  have hfields : (msiOf (pk.cfg16 0x42)).enabled = (msiOf (pj.cfg16 0x42)).enabled :=
    congrArg PciMsi.enabled ((hiff.1 hsame).msi hid).1
  exact absurd ((Option.some.inj hoff).symm.trans (hfields.trans (Option.some.inj hon)))
    Bool.false_ne_true

/-- A write of one byte turns MSI on in config space, and not in `pi_msi`. -/
theorem msi_byte_write_unmirrored :
    ¬ ∀ (pi pi' : PciDev) (datas : List (List U8)) (oks : List Bool), MsiInit pi datas →
      addCapabilities pi datas = .ok (pi', oks) →
      ∀ (fuel : Nat) (a : PciAddr) (s s' : PciBus OrderedTree.list), 48 ≤ fuel →
        s.devi a = some pi' → Reaches (CfgStep fuel) (· = s) s' →
        ∃ pj, s'.devi a = some pj ∧ ControlMirrors pi' pj := by
  intro h
  have hwrite : pciCfgwrite 48 msiBus e1000Addr 0x42 1 0x1 =
      .ok (outcome (pciCfgwrite 48 msiBus e1000Addr 0x42 1 0x1) msiBus) :=
    eq_ok_outcome (by decide +kernel)
  obtain ⟨pj, hpj, hmirror⟩ := h _ _ _ _ msiData_init msiOutcome_calls 48 e1000Addr msiBus _
    (by decide) msiBus_devi
    (@Reaches.next _ _ _ _ _ _ (e1000Addr, ⟨0x42, 1, 0x1⟩) (.start rfl) hwrite)
  have hdev : (((outcome (pciCfgwrite 48 msiBus e1000Addr 0x42 1 0x1) msiBus).devi
      e1000Addr).map fun pj => (pj.msi.enabled, pj.cfg16 0x42 &&& pcimMsictrlMsiEnable)) =
      some (false, 1) := by decide +kernel
  rw [hpj] at hdev
  obtain ⟨hoff, hon⟩ := Prod.mk.inj (Option.some.inj hdev)
  have hen := (hmirror.msi 0x40 (by decide +kernel) (by decide +kernel)).enabled.2 (by
    rw [hon]
    decide)
  rw [hoff] at hen
  cases hen

end DeviceModel
