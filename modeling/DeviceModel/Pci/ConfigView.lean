import DeviceModel.Library.MaskedRegs
import DeviceModel.Library.WordBytes
import DeviceModel.Pci.BarRegs
import DeviceModel.Pci.MsiMirror

/-!
# What a guest sees of config space

Config space is a file of bytes with read-only bits. An access of any width reads or writes the
bytes it covers; what a byte holds is what the last write left in it, apart from the bits
that `pci_emul_cmdsts_write` and `pci_emul_hdrtype_fixup` keep, and from the bytes that
belong to the BARs and to the capabilities.
-/

namespace DeviceModel

variable {T : PciMemTree}

/-! ## Bytes -/

/-- The byte of config space that the guest sees at `i`. -/
def PciBus.configByte (s : PciBus T) (a : PciAddr) (i : Nat) : U8 :=
  match s.devi a with
  | none => 0xff
  | some pi =>
    if i ≤ pciRegmax then
      if i = pcirHdrtype then
        maskedPut 0x80 (pi.cfgdata i) (some (if pciEmulIsMfdev s a.bus a.slot then 0x80 else 0))
      else pi.cfgdata i
    else if i ≤ pciRegmax + 4 then 0 else 0xff

/-- The bits of a byte that the guest can write. The BARs and the capabilities have rules of
their own. -/
def PciBus.configMask (s : PciBus T) (a : PciAddr) (i : Nat) : Option U8 :=
  match s.devi a with
  | none => some 0
  | some pi =>
    if pciRegmax < i then some 0
    else if pcirBar 0 ≤ i ∧ i < pcirBar (pciBarmax + 1) then none
    else if pciEmulIscap pi (i / 4 * 4) then none
    else if pcirCommand ≤ i ∧ i < pcirRevid then some (~~~ wordByte 0xFFFFF880#32 (i - pcirCommand))
    else if i = pcirHdrtype then some 0x7f
    else some 0xff

/-- What a write puts into a byte. -/
def CfgWrite.byteAt (w : CfgWrite) (i : Nat) : Option U8 :=
  if cfgAligned w.offset w.bytes ∧ w.offset ≤ i ∧ i < w.offset + w.bytes then
    some (wordByte w.val (i - w.offset))
  else none

/-- And into a byte of one function. -/
def byteWrite (a : PciAddr) (i : Nat) (l : PciAddr × CfgWrite) : Option U8 :=
  if l.1 = a then l.2.byteAt i else none

section Bytes

variable {x : U32} {k : Nat}

/-- The bytes of a word that is put together. -/
theorem wordByte_cfg32 (pi : PciDev) (offset : Nat) (hk : k < 4) :
    wordByte (pi.cfg32 offset) k = pi.cfgdata (offset + k) := by
  have hcases : k = 0 ∨ k = 1 ∨ k = 2 ∨ k = 3 := by omega
  refine BitVec.eq_of_getLsbD_eq fun i hi => ?_
  rw [getLsbD_wordByte, PciDev.cfg32, PciDev.cfg16, PciDev.cfg16, BitVec.getLsbD_append,
    BitVec.getLsbD_append, BitVec.getLsbD_append]
  obtain rfl | rfl | rfl | rfl := hcases
  · simp [hi, show i < 16 by omega]
  · simp [hi, show ¬ 8 + i < 8 by omega, show 8 + i < 16 by omega]
  · simp [hi, show ¬ 16 + i < 16 by omega]
  · simp [hi, show ¬ 24 + i < 16 by omega, show ¬ 24 + i - 16 < 8 by omega,
      show 24 + i - 16 - 8 = i by omega]

theorem wordByte_cfg16 (pi : PciDev) (offset : Nat) (hk : k < 2) :
    wordByte ((pi.cfg16 offset).setWidth 32) k = pi.cfgdata (offset + k) := by
  have hcases : k = 0 ∨ k = 1 := by omega
  refine BitVec.eq_of_getLsbD_eq fun i hi => ?_
  rw [getLsbD_wordByte, BitVec.getLsbD_setWidth, PciDev.cfg16, BitVec.getLsbD_append]
  obtain rfl | rfl := hcases
  · simp [hi, show i < 32 by omega]
  · simp [hi, show 8 + i < 32 by omega, show ¬ 8 + i < 8 by omega]

theorem wordByte_setWidth16 (hk : k < 2) : wordByte ((x.setWidth 16).setWidth 32) k = wordByte x k := by
  refine BitVec.eq_of_getLsbD_eq fun i hi => ?_
  rw [getLsbD_wordByte, getLsbD_wordByte, BitVec.getLsbD_setWidth, BitVec.getLsbD_setWidth]
  simp [show 8 * k + i < 16 by omega, show 8 * k + i < 32 by omega]

theorem wordByte_setWidth (b : U8) : wordByte (b.setWidth 32) 0 = b := by
  rw [wordByte, Nat.mul_zero, BitVec.ushiftRight_zero, BitVec.setWidth_setWidth_of_le _ (by decide),
    BitVec.setWidth_eq]

end Bytes

/-! ## The accessors -/

section Accessors

variable {pi pj : PciDev} {coff bytes i k : Nat} {val v : U32}

/-- `CFGWRITE` stores the bytes of the value. -/
theorem cfgwrite_byte (hbytes : bytes = 1 ∨ bytes = 2 ∨ bytes = 4)
    (h : cfgwrite pi coff val bytes = .ok pj) (hlo : coff ≤ i) (hhi : i < coff + bytes) :
    pj.cfgdata i = wordByte val (i - coff) := by
  obtain ⟨k, rfl⟩ : ∃ k, i = coff + k := ⟨i - coff, by omega⟩
  rw [Nat.add_sub_cancel_left]
  have hk : k < bytes := by omega
  obtain rfl | rfl | rfl := hbytes
  · obtain ⟨-, -, h⟩ := Except.bind_eq_ok.1 h
    obtain rfl := Except.ok.inj h
    obtain rfl : k = 0 := by omega
    simp [PciDev.set8, wordByte]
  · obtain ⟨-, -, h⟩ := Except.bind_eq_ok.1 h
    obtain rfl := Except.ok.inj h
    rw [← wordByte_cfg16 _ _ hk, PciDev.cfg16_set16, wordByte_setWidth16 hk]
  · obtain ⟨-, -, h⟩ := Except.bind_eq_ok.1 h
    obtain rfl := Except.ok.inj h
    rw [← wordByte_cfg32 _ _ hk, PciDev.cfg32_set32]

/-- `CFGREAD` returns the bytes that are there. -/
theorem cfgread_byte (hbytes : bytes = 1 ∨ bytes = 2 ∨ bytes = 4) (h : cfgread pi coff bytes = .ok v)
    (hk : k < bytes) : wordByte v k = pi.cfgdata (coff + k) := by
  obtain rfl | rfl | rfl := hbytes
  · obtain ⟨b, hb, rfl⟩ : ∃ b, pciGetCfgdata8 pi coff = .ok b ∧ b.setWidth 32 = v := by
      cases hb : pciGetCfgdata8 pi coff with
      | error e => simp [cfgread, hb, Except.map] at h
      | ok b => exact ⟨b, rfl, by simpa [cfgread, hb, Except.map] using h⟩
    obtain rfl : k = 0 := by omega
    rw [wordByte_setWidth, pciGetCfgdata8_eq hb]
    rfl
  · obtain ⟨b, hb, rfl⟩ : ∃ b, pciGetCfgdata16 pi coff = .ok b ∧ b.setWidth 32 = v := by
      cases hb : pciGetCfgdata16 pi coff with
      | error e => simp [cfgread, hb, Except.map] at h
      | ok b => exact ⟨b, rfl, by simpa [cfgread, hb, Except.map] using h⟩
    rw [pciGetCfgdata16_eq hb, wordByte_cfg16 pi coff hk]
  · have hget : pciGetCfgdata32 pi coff = .ok v := h
    obtain ⟨-, -, hget⟩ := Except.bind_eq_ok.1 hget
    obtain rfl := Except.ok.inj hget
    exact wordByte_cfg32 pi coff hk

end Accessors

/-! ## One write to a device -/

section Device

variable {reg : MmioHeap T} {pi pj : PciDev} {r : MmioHeap T × PciDev} {fuel coff bytes i : Nat}
  {val : U32}

/-- What a write leaves alone, and where the list of capabilities is. -/
structure DevFrame (lo hi : Nat) (pi pj : PciDev) : Prop where
  bytes : ∀ i, i < lo ∨ hi ≤ i → pj.cfgdata i = pi.cfgdata i
  status : pj.cfg16 pcirStatus = pi.cfg16 pcirStatus
  capend : pj.capend = pi.capend

theorem DevFrame.iscap {lo hi : Nat} (h : DevFrame lo hi pi pj) (i : Nat) :
    pciEmulIscap pj i = pciEmulIscap pi i := by
  rw [pciEmulIscap, pciEmulIscap, h.status, h.capend]

/-- `pci_emul_capwrite` writes the bytes that it is asked to, if any. -/
theorem pciEmulCapwrite_body (hbytes : bytes = 1 ∨ bytes = 2 ∨ bytes = 4)
    (h : pciEmulCapwrite fuel pi coff bytes val = .ok pj) : CapBody coff (coff + bytes) pi pj := by
  rw [pciEmulCapwrite] at h
  split at h
  · obtain rfl := Except.ok.inj h
    exact .refl _ _ _
  · obtain ⟨capoff, -, h⟩ := Except.bind_eq_ok.1 h
    obtain ⟨_, -, h⟩ := Except.bind_eq_ok.1 h
    split_ifs at h with hhead htrim
    · refine (capCfgwrite_body (by omega) ?_).of_ok h
      have hwidth : cfgWidth 2 = 2 := rfl
      omega
    · obtain rfl := Except.ok.inj h
      exact .refl _ _ _
    · refine (capCfgwrite_body (Nat.le_refl _) ?_).of_ok h
      rw [cfgWidth_of_mem hbytes]

/-- **The frame** of a config write. -/
theorem pciCfgwriteDev_frame (halign : cfgAligned coff bytes = true)
    (h : pciCfgwriteDev fuel reg pi coff bytes val = .ok r) : DevFrame coff (coff + bytes) pi r.2 := by
  obtain ⟨hbytes, hmod⟩ := cfgAligned_iff.1 halign
  by_cases hcap : pciEmulIscap pi coff = true
  · rw [pciCfgwriteDev] at h
    have hlo : capStartOffset ≤ coff := by
      simp only [pciEmulIscap, Bool.and_eq_true, decide_eq_true_eq] at hcap
      exact hcap.2.1
    rw [capStartOffset] at hlo
    have hbar : ¬ (pcirBar 0 ≤ coff ∧ coff < pcirBar (pciBarmax + 1)) := by
      simp only [pcirBar, pciBarmax]
      omega
    rw [if_neg hbar, if_pos hcap] at h
    obtain ⟨pj, hwrite, h⟩ := Except.bind_eq_ok.1 h
    obtain rfl := Except.ok.inj h
    have hbody := pciEmulCapwrite_body hbytes hwrite
    refine ⟨hbody.bytes, ?_, hbody.capend⟩
    rw [PciDev.cfg16, PciDev.cfg16, hbody.bytes _ (by rw [pcirStatus]; omega),
      hbody.bytes _ (by rw [pcirStatus]; omega)]
  · have huntouched := CapsUntouched.of_cfgwriteDev halign (by simpa using hcap) h
    refine ⟨?_, huntouched.status, huntouched.capend⟩
    rw [pciCfgwriteDev] at h
    split at h
    next hbar =>
      by_cases hfour : bytes ≠ 4 ∨ coff &&& 3 ≠ 0
      · rw [pciCfgwriteBar, if_pos hfour] at h
        obtain rfl := Except.ok.inj h
        exact fun _ _ => rfl
      · obtain rfl : bytes = 4 := by omega
        exact (pciCfgwriteBar_rest h).2
    split at h
    next hcmd =>
      obtain ⟨pj, hwrite, h⟩ := Except.bind_eq_ok.1 h
      obtain ⟨reg', -, h⟩ := Except.bind_eq_ok.1 h
      obtain rfl := Except.ok.inj h
      obtain ⟨old, -, hwrite⟩ := Except.bind_eq_ok.1 hwrite
      have hframe := cfgwrite_frame hwrite
      rw [cfgWidth_of_mem hbytes] at hframe
      exact hframe.bytes
    next hcmd =>
      obtain ⟨pj, hwrite, h⟩ := Except.bind_eq_ok.1 h
      obtain rfl := Except.ok.inj h
      have hframe := cfgwrite_frame hwrite
      rw [cfgWidth_of_mem hbytes] at hframe
      exact hframe.bytes

/-- The bytes of the command and status registers that are written. -/
theorem cmdstsCfgwrite_byte (halign : cfgAligned coff bytes = true)
    (hcmd : pcirCommand ≤ coff ∧ coff < pcirRevid) (h : cmdstsCfgwrite pi coff val bytes = .ok pj)
    (hlo : coff ≤ i) (hhi : i < coff + bytes) :
    pj.cfgdata i = maskedPut (~~~ wordByte 0xFFFFF880#32 (i - pcirCommand)) (pi.cfgdata i)
      (some (wordByte val (i - coff))) := by
  obtain ⟨hbytes, hmod⟩ := cfgAligned_iff.1 halign
  obtain ⟨old, hold, hwrite⟩ := Except.bind_eq_ok.1 h
  have hk : i - coff < 4 := by omega
  have hbyte := cfgread_byte hbytes hold (show i - coff < bytes by omega)
  rw [show coff + (i - coff) = i by omega] at hbyte
  simp only [pcirCommand, pcirRevid] at hcmd ⊢
  have hmask : wordByte (0xFFFFF880#32 >>> ((coff &&& 3) * 8)) (i - coff) = wordByte 0xFFFFF880#32 (i - 4) := by
    rw [and_three_eq_mod, wordByte_shift]
    congr 1
    omega
  rw [cfgwrite_byte hbytes hwrite hlo hhi, wordByte_or, wordByte_and, wordByte_and, wordByte_not (by omega), hbyte,
    hmask, maskedPut, BitVec.not_not]
  exact BitVec.or_comm _ _

/-- **The bytes that are written**, outside the BARs and the capabilities. -/
theorem pciCfgwriteDev_byte (halign : cfgAligned coff bytes = true)
    (hbar : ¬ (pcirBar 0 ≤ coff ∧ coff < pcirBar (pciBarmax + 1)))
    (hcap : pciEmulIscap pi coff = false) (h : pciCfgwriteDev fuel reg pi coff bytes val = .ok r)
    (hlo : coff ≤ i) (hhi : i < coff + bytes) :
    r.2.cfgdata i = maskedPut
      (if pcirCommand ≤ coff ∧ coff < pcirRevid then ~~~ wordByte 0xFFFFF880#32 (i - pcirCommand)
        else BitVec.allOnes 8) (pi.cfgdata i) (some (wordByte val (i - coff))) := by
  obtain ⟨hbytes, hmod⟩ := cfgAligned_iff.1 halign
  rw [pciCfgwriteDev, if_neg hbar, if_neg (by simp [hcap])] at h
  split at h
  next hcmd =>
    rw [if_pos hcmd]
    obtain ⟨pj, hwrite, h⟩ := Except.bind_eq_ok.1 h
    obtain ⟨reg', -, h⟩ := Except.bind_eq_ok.1 h
    obtain rfl := Except.ok.inj h
    have hbyte := cmdstsCfgwrite_byte halign hcmd hwrite hlo hhi
    exact hbyte
  next hcmd =>
    rw [if_neg hcmd, maskedPut_allOnes]
    obtain ⟨pj, hwrite, h⟩ := Except.bind_eq_ok.1 h
    obtain rfl := Except.ok.inj h
    exact cfgwrite_byte hbytes hwrite hlo hhi

end Device

/-! ## One write to the bus -/

section Bus

variable {s s' : PciBus T} {a b : PciAddr} {pi : PciDev} {r : MmioHeap T × PciDev} {fuel i : Nat}
  {w : CfgWrite} {m : U8}

/-- The bus after a write to the device at `b`. -/
def PciBus.put (s : PciBus T) (b : PciAddr) (r : MmioHeap T × PciDev) : PciBus T :=
  { s with reg := r.1 }.setDevi b r.2

theorem PciBus.put_devi_self : (s.put b r).devi b = some r.2 := PciBus.setDevi_same _ b r.2

theorem PciBus.put_devi_of_ne (h : a ≠ b) : (s.put b r).devi a = s.devi a :=
  PciBus.setDevi_of_ne _ r.2 h

/-- No device comes or goes. -/
theorem PciBus.put_mfdev (hd : s.devi b = some pi) (bus slot : Nat) :
    pciEmulIsMfdev (s.put b r) bus slot = pciEmulIsMfdev s bus slot := by
  rw [pciEmulIsMfdev, pciEmulIsMfdev]
  congr 2
  refine congrArg List.length (List.filter_congr fun f _ => ?_)
  by_cases hf : (⟨bus, slot, f⟩ : PciAddr) = b
  · rw [hf, PciBus.put_devi_self, hd]
    rfl
  · rw [PciBus.put_devi_of_ne hf]

/-- A write is passed over, or it is one to a device. -/
inductive CfgEffect (fuel : Nat) (s : PciBus T) (b : PciAddr) (w : CfgWrite) (s' : PciBus T) : Prop where
  | over : s' = s → s.devi b = none ∨ cfgAligned w.offset w.bytes = false ∨ pciRegmax < w.offset →
      CfgEffect fuel s b w s'
  | device (pi : PciDev) (r : MmioHeap T × PciDev) : s.devi b = some pi →
      cfgAligned w.offset w.bytes = true → w.offset ≤ pciRegmax →
      pciCfgwriteDev fuel s.reg pi w.offset w.bytes w.val = .ok r → s' = s.put b r →
      CfgEffect fuel s b w s'

theorem CfgStep.effect (h : CfgStep fuel s (b, w) s') : CfgEffect fuel s b w s' := by
  rw [CfgStep, pciCfgwrite] at h
  cases hd : s.devi b with
  | none =>
    simp only [hd] at h
    exact .over (Except.ok.inj h).symm (.inl hd)
  | some pi =>
    simp only [hd] at h
    split at h
    next hin =>
      simp only [Bool.and_eq_true, decide_eq_true_eq] at hin
      obtain ⟨r, hwrite, h⟩ := Except.bind_eq_ok.1 h
      exact .device pi r hd hin.1 hin.2 hwrite (Except.ok.inj h).symm
    next hout =>
      refine .over (Except.ok.inj h).symm (.inr ?_)
      simpa only [Bool.and_eq_true, decide_eq_true_eq, not_and_or, Bool.not_eq_true, Nat.not_le] using hout

/-- The read-only bits stay the same ones. -/
theorem CfgStep.mask (h : CfgStep fuel s (b, w) s') (a : PciAddr) (i : Nat) :
    s'.configMask a i = s.configMask a i := by
  obtain ⟨rfl, -⟩ | ⟨pi, r, hd, halign, -, hwrite, rfl⟩ := h.effect
  · rfl
  by_cases hab : a = b
  · subst hab
    simp only [PciBus.configMask, PciBus.put_devi_self, hd, (pciCfgwriteDev_frame halign hwrite).iscap]
  · simp only [PciBus.configMask, PciBus.put_devi_of_ne hab]

/-- The bytes of an access are in one double word. -/
theorem cfgAligned_word (halign : cfgAligned w.offset w.bytes = true) (hlo : w.offset ≤ i)
    (hhi : i < w.offset + w.bytes) : i / 4 * 4 ≤ w.offset ∧ i / 4 = w.offset / 4 := by
  obtain ⟨hbytes, hmod⟩ := cfgAligned_iff.1 halign
  obtain hb | hb | hb := hbytes <;> rw [hb] at hmod hhi <;> omega

/-- What a write to a device does to a byte that has a mask. -/
theorem PciBus.put_byte (hd : s.devi b = some pi) (halign : cfgAligned w.offset w.bytes = true)
    (hwrite : pciCfgwriteDev fuel s.reg pi w.offset w.bytes w.val = .ok r)
    (hmask : s.configMask b i = some m) :
    (s.put b r).configByte b i = maskedPut m (s.configByte b i) (w.byteAt i) := by
  have hframe := pciCfgwriteDev_frame halign hwrite
  simp only [PciBus.configMask, hd] at hmask
  simp only [PciBus.configByte, PciBus.put_devi_self, hd, PciBus.put_mfdev hd]
  by_cases hi : pciRegmax < i
  · rw [if_pos hi] at hmask
    obtain rfl := Option.some.inj hmask
    rw [if_neg (Nat.not_le.2 hi), if_neg (Nat.not_le.2 hi), maskedPut_zero]
  rw [if_neg hi] at hmask
  rw [if_pos (Nat.not_lt.1 hi), if_pos (Nat.not_lt.1 hi)]
  by_cases hin : w.offset ≤ i ∧ i < w.offset + w.bytes
  swap
  · have hnone : w.byteAt i = none := if_neg fun hcover => hin hcover.2
    rw [hnone, hframe.bytes i (by omega)]
    rfl
  obtain ⟨hlo, hhi⟩ := hin
  obtain ⟨hword, hsame⟩ := cfgAligned_word halign hlo hhi
  have hsome : w.byteAt i = some (wordByte w.val (i - w.offset)) := if_pos ⟨halign, hlo, hhi⟩
  rw [hsome]
  split at hmask
  next => cases hmask
  next hbar =>
  split at hmask
  next => cases hmask
  next hcap =>
  -- the access is outside the BARs and the capabilities where the byte is
  have hbar' : ¬ (pcirBar 0 ≤ w.offset ∧ w.offset < pcirBar (pciBarmax + 1)) := by
    simp only [pcirBar, pciBarmax] at hbar ⊢
    omega
  have hcap' : pciEmulIscap pi w.offset = false := by
    by_contra hcap'
    refine hcap ?_
    simp only [Bool.not_eq_false, pciEmulIscap, Bool.and_eq_true, decide_eq_true_eq] at hcap' ⊢
    obtain ⟨hpresent, hstart, hend⟩ := hcap'
    rw [capStartOffset] at hstart ⊢
    exact ⟨hpresent, by omega, by omega⟩
  have hcmd : (pcirCommand ≤ w.offset ∧ w.offset < pcirRevid) ↔ pcirCommand ≤ i ∧ i < pcirRevid := by
    simp only [pcirCommand, pcirRevid]
    omega
  have hbyte := pciCfgwriteDev_byte halign hbar' hcap' hwrite hlo hhi
  rw [if_congr hcmd rfl rfl] at hbyte
  rw [hbyte]
  split at hmask
  next hin =>
    obtain rfl := Option.some.inj hmask
    have hne : i ≠ pcirHdrtype := by
      simp only [pcirCommand, pcirRevid] at hin
      rw [pcirHdrtype]
      omega
    rw [if_neg hne, if_neg hne, if_pos hin]
  next hout =>
  rw [if_neg hout, maskedPut_allOnes, Option.getD_some]
  split at hmask
  next heq =>
    obtain rfl := Option.some.inj hmask
    rw [if_pos heq, if_pos heq]
    exact (maskedPut_not 0x80#8 (pi.cfgdata i) _ (wordByte w.val (i - w.offset))).symm
  next hne =>
    obtain rfl := Option.some.inj hmask
    rw [if_neg hne, if_neg hne]
    exact (maskedPut_allOnes (pi.cfgdata i) (some (wordByte w.val (i - w.offset)))).symm

/-- **One write.** A byte takes the bits of its mask from the writes that cover it. -/
theorem CfgStep.byte {l : PciAddr × CfgWrite} (h : CfgStep fuel s l s')
    (hmask : s.configMask a i = some m) :
    s'.configByte a i = maskedPut m (s.configByte a i) (byteWrite a i l) := by
  obtain ⟨b, w⟩ := l
  rw [byteWrite]
  by_cases hab : b = a
  · subst hab
    rw [if_pos rfl]
    obtain ⟨rfl, hover⟩ | ⟨pi, r, hd, halign, -, hwrite, rfl⟩ := h.effect
    · rw [CfgWrite.byteAt]
      split
      next hin =>
        -- a write that covers a byte is passed over where there is nothing to write
        have hzero : m = 0 := by
          rw [PciBus.configMask] at hmask
          obtain hnone | hunaligned | hlarge := hover
          · simp only [hnone] at hmask
            exact (Option.some.inj hmask).symm
          · rw [hunaligned] at hin
            exact absurd hin.1 Bool.false_ne_true
          · cases hd : s'.devi b with
            | none =>
              simp only [hd] at hmask
              exact (Option.some.inj hmask).symm
            | some pi =>
              have hi : pciRegmax < i := Nat.lt_of_lt_of_le hlarge hin.2.1
              simp only [hd, if_pos hi] at hmask
              exact (Option.some.inj hmask).symm
        rw [hzero, maskedPut_zero]
      next => rfl
    · exact PciBus.put_byte hd halign hwrite hmask
  · rw [if_neg hab]
    obtain ⟨rfl, -⟩ | ⟨pi, r, hd, -, -, -, rfl⟩ := h.effect
    · rfl
    · have hne : a ≠ b := fun h => hab h.symm
      simp only [PciBus.configByte, PciBus.put_devi_of_ne hne, PciBus.put_mfdev hd]
      rfl

end Bus

/-! ## Reads -/

section Reads

variable {s : PciBus T} {a : PciAddr} {off bytes i k : Nat} {v : U32} {pi : PciDev}

/-- `pci_emul_hdrtype_fixup` changes one bit of one byte. -/
theorem pciEmulHdrtypeFixup_byte (halign : cfgAligned off bytes = true) (hk : k < bytes) :
    wordByte (pciEmulHdrtypeFixup s a off bytes v) k =
      if off + k = pcirHdrtype then
        maskedPut 0x80 (wordByte v k) (some (if pciEmulIsMfdev s a.bus a.slot then 0x80 else 0))
      else wordByte v k := by
  obtain ⟨hbytes, hmod⟩ := cfgAligned_iff.1 halign
  rw [pciEmulHdrtypeFixup]
  split
  swap
  next hout => rw [if_neg (by omega)]
  next hin =>
  -- the accesses that cover the byte
  have hcases : (bytes = 4 ∧ off = 12) ∨ (bytes = 2 ∧ off = 14) ∨ (bytes = 1 ∧ off = 14) := by
    simp only [pcirHdrtype] at hin
    obtain rfl | rfl | rfl := hbytes <;> omega
  have hk4 : k < 4 := by omega
  have hput : ∀ x : U32, wordByte (if pciEmulIsMfdev s a.bus a.slot then v &&& ~~~x ||| x else v &&& ~~~x) k =
      (wordByte v k &&& ~~~ wordByte x k) |||
        ((if pciEmulIsMfdev s a.bus a.slot then 0xff#8 else 0#8) &&& wordByte x k) := by
    intro x
    cases pciEmulIsMfdev s a.bus a.slot with
    | true =>
      have hall : (0xff#8 &&& wordByte x k) = wordByte x k := BitVec.allOnes_and
      rw [if_pos rfl, if_pos rfl, wordByte_or, wordByte_and, wordByte_not (by omega), hall]
    | false =>
      have hzero : (0#8 &&& wordByte x k) = 0#8 := BitVec.zero_and
      rw [if_neg (by decide), if_neg (by decide), wordByte_and, wordByte_not (by omega), hzero, BitVec.or_zero]
  dsimp only
  rw [hput]
  have hmask : wordByte (if bytes = 4 then 0x80#32 <<< 16 else 0x80#32) k =
      if off + k = pcirHdrtype then 0x80#8 else 0#8 := by
    rw [pcirHdrtype]
    obtain ⟨rfl, rfl⟩ | ⟨rfl, rfl⟩ | ⟨rfl, rfl⟩ := hcases
    · have hcases : k = 0 ∨ k = 1 ∨ k = 2 ∨ k = 3 := by omega
      obtain rfl | rfl | rfl | rfl := hcases <;> rfl
    · have hcases : k = 0 ∨ k = 1 := by omega
      obtain rfl | rfl := hcases <;> rfl
    · obtain rfl : k = 0 := by omega
      rfl
  rw [hmask]
  by_cases heq : off + k = pcirHdrtype
  · rw [if_pos heq, if_pos heq, maskedPut]
    congr 1
    cases pciEmulIsMfdev s a.bus a.slot <;> rfl
  · rw [if_neg heq, if_neg heq, BitVec.and_zero, BitVec.or_zero]
    exact BitVec.and_allOnes

/-- **An aligned read** returns the bytes it covers. -/
theorem pciCfgread_bytes (s : PciBus T) (a : PciAddr) (halign : cfgAligned off bytes = true) :
    ∃ v, pciCfgread s a off bytes = .ok v ∧ ∀ k, k < bytes → wordByte v k = s.configByte a (off + k) := by
  obtain ⟨hbytes, hmod⟩ := cfgAligned_iff.1 halign
  have hones : ∀ k, k < bytes → wordByte 0xffffffff#32 k = 0xff#8 := by
    intro k hk
    have hcases : k = 0 ∨ k = 1 ∨ k = 2 ∨ k = 3 := by omega
    obtain rfl | rfl | rfl | rfl := hcases <;> rfl
  cases hd : s.devi a with
  | none =>
    refine ⟨0xffffffff#32, by simp only [pciCfgread, hd], fun k hk => ?_⟩
    simp only [PciBus.configByte, hd]
    exact hones k hk
  | some pi =>
    simp only [pciCfgread, PciBus.configByte, hd, if_pos halign]
    by_cases hout : pciRegmax < off
    · refine ⟨_, if_pos hout, fun k hk => ?_⟩
      rw [if_neg (show ¬ off + k ≤ pciRegmax by omega)]
      have hend : off ≤ pciRegmax + 4 ↔ off + k ≤ pciRegmax + 4 := by
        simp only [pciRegmax] at hout ⊢
        obtain rfl | rfl | rfl := hbytes <;> omega
      by_cases hin : off ≤ pciRegmax + 4
      · rw [if_pos hin, if_pos (hend.1 hin)]
        exact BitVec.eq_of_toNat_eq (by simp [wordByte])
      · rw [if_neg hin, if_neg (fun h => hin (hend.2 h))]
        exact hones k hk
    · obtain ⟨v, hv⟩ := cfgread_returns pi halign (Nat.not_lt.1 hout)
      refine ⟨pciEmulHdrtypeFixup s a off bytes v, ?_, fun k hk => ?_⟩
      · rw [if_neg hout, Except.bind_ok hv]
      · have hin : off + k ≤ pciRegmax := by
          simp only [pciRegmax] at hout ⊢
          obtain rfl | rfl | rfl := hbytes <;> omega
        rw [pciEmulHdrtypeFixup_byte halign hk, cfgread_byte hbytes hv hk, if_pos hin]

end Reads

/-! ## Runs -/

/-- **Config space is a file of bytes with read-only bits.** After any writes of the guest, of any
width to any function, each byte holds what the last write that covers it left there, apart from the
bits it does not write; and an aligned read of any width returns the bytes it covers. -/
theorem config_space_last_write {s s' : PciBus T} {fuel : Nat} {ls : List (PciAddr × CfgWrite)}
    (hrun : Run (CfgStep fuel) s ls s') :
    (∀ a i m, s.configMask a i = some m →
      s'.configByte a i = maskedPut m (s.configByte a i) (lastWrite (byteWrite a i) ls)) ∧
    ∀ a off bytes, cfgAligned off bytes = true → ∃ v, pciCfgread s' a off bytes = .ok v ∧
      ∀ k, k < bytes → wordByte v k = s'.configByte a (off + k) := by
  refine ⟨fun a i m hmask => ?_, fun a off bytes halign => pciCfgread_bytes s' a halign⟩
  have hstep : ∀ (t : PciBus T) l u, t.configMask a i = some m → CfgStep fuel t l u →
      u.configMask a i = some m ∧
        u.configByte a i = maskedPut m (t.configByte a i) (byteWrite a i l) :=
    fun t l u ht hwrite => ⟨(hwrite.mask a i).trans ht, hwrite.byte ht⟩
  exact (hrun.masked hstep hmask).2

/-- The guest writes ones to the command register, and then a byte of it again. -/
def commandWrites : List (PciAddr × CfgWrite) :=
  [(e1000Addr, ⟨pcirCommand, 2, 0xffff⟩), (e1000Addr, ⟨pcirCommand, 1, 0x06⟩)]

def msiBusCommanded : PciBus OrderedTree.list :=
  outcome (pciCfgwrite 48 msiBus e1000Addr pcirCommand 2 0xffff) msiBus

def msiBusAgain : PciBus OrderedTree.list :=
  outcome (pciCfgwrite 48 msiBusCommanded e1000Addr pcirCommand 1 0x06) msiBus

theorem config_space_last_write_command :
    msiBusAgain.configByte e1000Addr pcirCommand =
        maskedPut 0x7f (msiBus.configByte e1000Addr pcirCommand) (some 0x06) ∧
      msiBusAgain.configByte e1000Addr (pcirCommand + 1) =
        maskedPut 0x07 (msiBus.configByte e1000Addr (pcirCommand + 1)) (some 0xff) := by
  have hfirst : pciCfgwrite 48 msiBus e1000Addr pcirCommand 2 0xffff = .ok msiBusCommanded :=
    eq_ok_outcome (by decide +kernel)
  have hagain : pciCfgwrite 48 msiBusCommanded e1000Addr pcirCommand 1 0x06 = .ok msiBusAgain :=
    eq_ok_outcome (by decide +kernel)
  have hrun : Run (CfgStep 48) msiBus commandWrites msiBusAgain :=
    .snoc (.snoc (.nil _) hfirst) hagain
  have hbytes := (config_space_last_write hrun).1
  exact ⟨hbytes e1000Addr pcirCommand 0x7f (by decide +kernel),
    hbytes e1000Addr (pcirCommand + 1) 0x07 (by decide +kernel)⟩

end DeviceModel
