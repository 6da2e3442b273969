import DeviceModel.Library.Runs
import DeviceModel.Pci.Startup

/-!
# The MMIO registry mirrors the BARs, in runs

The registry changes only in config writes. What holds in every run is half of the
mirror, `PciBus.Within`: every registered range is one that is decoded now. The other
half fails where the guest lets ranges overlap: `register_mem` then passes the range
over in silence or refuses it, and an assertion fails now or at the next change of
the same BAR. The mirror is whole as long as what the devices decode after each
write lies apart, and a write that breaks this breaks the mirror
(`registry_mirrors_bars`).
-/

namespace DeviceModel

variable {T : PciMemTree}

/-! ## Steps -/

/-- What can happen to the devices and to the registry. -/
inductive PciLabel : Type where
  /-- the guest writes to config space -/
  | cfgwrite (a : PciAddr) (coff bytes : Nat) (val : U32)
  /-- an access goes to `access_memory`, which may move the hint -/
  | access (paddr : U64)
  /-- a device changes its interrupt line -/
  | device (a : PciAddr)

/-- The steps that return. -/
inductive PciStep : PciBus T → PciLabel → PciBus T → Prop where
  | cfgwrite {s s' : PciBus T} {a : PciAddr} {coff bytes : Nat} {val : U32} (fuel : Nat) :
      pciCfgwrite (fuel + 1) s a coff bytes val = .ok s' → PciStep s (.cfgwrite a coff bytes val) s'
  | access {s : PciBus T} (paddr : U64) :
      PciStep s (.access paddr)
        { s with reg := { s.reg with mmio := (accessMemory s.reg.mmio paddr id).1 } }
  | device {s : PciBus T} {a : PciAddr} {pi : PciDev} (d : PciDevinst) : s.devi a = some pi →
      PciStep s (.device a) (s.setDevi a (pi.setDevinst d))

/-- The bus that `bhyve_pci_init` leaves. -/
def PciInitial (s : PciBus T) : Prop := bhyvePciInit T = .ok s

theorem PciInitial.started {s : PciBus T} (h : PciInitial s) : s.Started := by
  obtain ⟨s', hs', hstarted⟩ := bhyvePciInit_returns T
  obtain rfl := Except.ok.inj (hs'.symm.trans h)
  exact hstarted

/-- Nothing is registered but what is decoded. -/
structure PciBus.Within (s : PciBus T) : Prop where
  wf : s.Wf
  sound : s.reg.Sound
  ranges : s.reg.ranges ⊆ s.decoded

/-- What is registered is what is decoded. -/
structure PciBus.Mirror (s : PciBus T) : Prop where
  wf : s.Wf
  sound : s.reg.Sound
  ranges : s.reg.ranges = s.decoded

theorem PciBus.Started.mirror {s : PciBus T} (h : s.Started) : s.Mirror := ⟨h.wf, h.sound, h.ranges⟩

theorem PciBus.Mirror.within {s : PciBus T} (h : s.Mirror) : s.Within :=
  ⟨h.wf, h.sound, h.ranges.subset⟩

/-! ### The steps that are not config writes -/

section Frame

variable {s : PciBus T}

theorem access_ranges {reg : MmioHeap T} (h : reg.Sound) (paddr : U64) :
    MmioHeap.Sound { reg with mmio := (accessMemory reg.mmio paddr id).1 } ∧
      (accessMemory reg.mmio paddr id).1.ranges = reg.ranges := by
  obtain ⟨hsound, hroot, hfallback⟩ := h.mmio.access paddr id
  refine ⟨⟨hsound, hfallback.trans h.fallback⟩, ?_⟩
  rw [MmioHeap.ranges, Mmio.ranges, Mmio.ranges, hroot]

theorem decoded_setDevinst (pi : PciDev) (d : PciDevinst) :
    (pi.setDevinst d).decoded = pi.decoded := rfl

theorem PciBus.Wf.setDevinst (h : s.Wf) {a : PciAddr} {pi : PciDev} (hpi : s.devi a = some pi)
    (d : PciDevinst) : (s.setDevi a (pi.setDevinst d)).Wf := by
  refine h.setDevi hpi rfl (fun _ => rfl) ?_
  exact (h.dev a pi hpi).of_bytes rfl rfl rfl rfl rfl

theorem PciBus.decoded_setDevinst {a : PciAddr} {pi : PciDev} (hpi : s.devi a = some pi)
    (d : PciDevinst) : (s.setDevi a (pi.setDevinst d)).decoded = s.decoded := by
  rw [s.decoded_setDevi, DeviceModel.decoded_setDevinst, PciBus.decoded_eq hpi]

end Frame

/-! ### Config writes -/

/-- The bus after a config write, as far as the ranges that it decodes go. -/
def PciBus.after (s : PciBus T) (a : PciAddr) (coff bytes : Nat) (val : U32) : PciBus T :=
  match s.devi a with
  | none => s
  | some pi =>
    if cfgAligned coff bytes && coff ≤ pciRegmax then s.setDevi a (pi.after coff bytes val) else s

/-- What is decoded after a config write lies apart. -/
def PciBus.WriteSafe (s : PciBus T) (a : PciAddr) (coff bytes : Nat) (val : U32) : Prop :=
  (s.after a coff bytes val).decoded.PairwiseDisjoint MemRange.addresses

/-- A config write is passed over, or is of one of the three kinds. -/
theorem pciCfgwrite_kind {s : PciBus T} (h : s.Wf) (fuel : Nat) (a : PciAddr) (coff bytes : Nat)
    (val : U32) :
    (pciCfgwrite (fuel + 1) s a coff bytes val = .ok s ∧ s.after a coff bytes val = s) ∨
    ∃ pi, s.devi a = some pi ∧ pi.Wf ∧ s.after a coff bytes val = s.setDevi a (pi.after coff bytes val) ∧
      WriteKind T pi (pi.after coff bytes val)
        (fun reg => pciCfgwriteDev (fuel + 1) reg pi coff bytes val) ∧
      pciCfgwrite (fuel + 1) s a coff bytes val =
        (do let r ← pciCfgwriteDev (fuel + 1) s.reg pi coff bytes val
            .ok ({ s with reg := r.1 }.setDevi a r.2)) := by
  rw [pciCfgwrite, PciBus.after]
  cases hpi : s.devi a with
  | none => exact .inl ⟨rfl, rfl⟩
  | some pi =>
    dsimp only
    split
    next hin =>
      simp only [Bool.and_eq_true, decide_eq_true_eq] at hin
      have hwf := h.dev a pi hpi
      exact .inr ⟨pi, rfl, hwf, rfl, pciCfgwriteDev_kinds T hwf fuel hin.1 hin.2, rfl⟩
    next => exact .inl ⟨rfl, rfl⟩

/-- The device after a write is still the same device. -/
theorem WriteKind.wf_setDevi {s : PciBus T} {reg reg' : MmioHeap T} {a : PciAddr}
    {pi pi' after : PciDev} {f : MmioHeap T → Except Stop (MmioHeap T × PciDev)}
    (hk : WriteKind T pi after f) (h : s.Wf) (hpi : s.devi a = some pi)
    (hr : f reg = .ok (reg', pi')) : (s.setDevi a pi').Wf := by
  obtain ⟨hsame, hwf⟩ := hk.sameDecode hr
  refine h.setDevi hpi (hsame.bdf.trans hk.bdf) (fun i => (hsame.type i).trans ?_) hwf
  exact hk.type i

/-- **Half of the mirror, for one write.** -/
theorem PciBus.Within.cfgwrite {s s' : PciBus T} (h : s.Within) {fuel : Nat} {a : PciAddr}
    {coff bytes : Nat} {val : U32} (hr : pciCfgwrite (fuel + 1) s a coff bytes val = .ok s') :
    s'.Within := by
  obtain ⟨hskip, -⟩ | ⟨pi, hpi, hwf, -, hk, heq⟩ := pciCfgwrite_kind h.wf fuel a coff bytes val
  · obtain rfl := Except.ok.inj (hskip.symm.trans hr)
    exact h
  · rw [heq] at hr
    obtain ⟨⟨reg', pi'⟩, hdev, hr⟩ := Except.bind_eq_ok.1 hr
    obtain rfl := Except.ok.inj hr
    have hsub := h.ranges
    rw [PciBus.decoded_eq hpi] at hsub
    obtain ⟨hsound, hsub'⟩ := hk.within hwf h.sound hsub hdev
    refine ⟨hk.wf_setDevi (h.wf.of_devi rfl) hpi hdev, hsound, ?_⟩
    rw [PciBus.decoded_setDevi]
    exact hsub'

/-- What is decoded after a write that returns. -/
theorem pciCfgwrite_decoded {s s' : PciBus T} (h : s.Wf) {fuel : Nat} {a : PciAddr}
    {coff bytes : Nat} {val : U32} (hr : pciCfgwrite (fuel + 1) s a coff bytes val = .ok s') :
    s'.decoded = (s.after a coff bytes val).decoded := by
  obtain ⟨hskip, hafter⟩ | ⟨pi, hpi, -, hafter, hk, heq⟩ := pciCfgwrite_kind h fuel a coff bytes val
  · obtain rfl := Except.ok.inj (hskip.symm.trans hr)
    rw [hafter]
  · rw [heq] at hr
    obtain ⟨⟨reg', pi'⟩, hdev, hr⟩ := Except.bind_eq_ok.1 hr
    obtain rfl := Except.ok.inj hr
    rw [hafter, PciBus.decoded_setDevi, PciBus.decoded_setDevi, (hk.sameDecode hdev).1.decoded]
    rfl

/-- **The whole mirror, for one write**: it is kept exactly where the ranges lie apart. -/
theorem PciBus.Mirror.cfgwrite {s : PciBus T} (h : s.Mirror) (fuel : Nat) (a : PciAddr)
    (coff bytes : Nat) (val : U32) :
    (∃ s', pciCfgwrite (fuel + 1) s a coff bytes val = .ok s' ∧ s'.Mirror) ↔
      s.WriteSafe a coff bytes val := by
  rw [PciBus.WriteSafe]
  obtain ⟨hskip, hafter⟩ | ⟨pi, hpi, hwf, hafter, hk, heq⟩ :=
    pciCfgwrite_kind h.wf fuel a coff bytes val
  · rw [hafter, ← h.ranges]
    exact ⟨fun _ => h.sound.mmio.ranges_disjoint, fun _ => ⟨s, hskip, h⟩⟩
  · have hranges := h.ranges
    rw [PciBus.decoded_eq hpi] at hranges
    have hforeign : Foreign (s.decodedBut a) pi.bdf := h.wf.bdf a pi hpi ▸ h.wf.foreign a
    rw [hafter, PciBus.decoded_setDevi, ← hk.mirror hwf h.sound hforeign hranges, heq]
    constructor
    · rintro ⟨s', hr, hmirror⟩
      obtain ⟨⟨reg', pi'⟩, hdev, hr⟩ := Except.bind_eq_ok.1 hr
      obtain rfl := Except.ok.inj hr
      refine ⟨reg', pi', hdev, hmirror.sound, ?_⟩
      exact hmirror.ranges.trans (PciBus.decoded_setDevi _ a pi')
    · rintro ⟨reg', pi', hdev, hsound, hranges'⟩
      refine ⟨_, Except.bind_ok hdev, hk.wf_setDevi (h.wf.of_devi rfl) hpi hdev, hsound, ?_⟩
      rw [PciBus.decoded_setDevi]
      exact hranges'

/-! ## Runs -/

section Runs

variable {s t : PciBus T} {l : PciLabel}

/-- One step keeps half of the mirror. -/
theorem PciBus.Within.step (h : s.Within) (hstep : PciStep s l t) : t.Within := by
  cases hstep with
  | cfgwrite fuel hr => exact h.cfgwrite hr
  | access paddr =>
    obtain ⟨hsound, hranges⟩ := access_ranges h.sound paddr
    exact ⟨h.wf.of_devi rfl, hsound, hranges.subset.trans h.ranges⟩
  | device d hpi =>
    refine ⟨h.wf.setDevinst hpi d, h.sound, ?_⟩
    rw [PciBus.decoded_setDevinst hpi d]
    exact h.ranges

/-- The condition on the guest's config writes. -/
def PciLabel.Safe (s : PciBus T) : PciLabel → Prop
  | .cfgwrite a coff bytes val => s.WriteSafe a coff bytes val
  | .access _ | .device _ => True

/-- One step that meets the condition keeps the mirror. -/
theorem PciBus.Mirror.step (h : s.Mirror) (hstep : PciStep s l t) (hsafe : l.Safe s) :
    t.Mirror := by
  cases hstep with
  | @cfgwrite _ a coff bytes val fuel hr =>
    obtain ⟨t', hr', hmirror⟩ := (h.cfgwrite fuel a coff bytes val).2 hsafe
    obtain rfl := Except.ok.inj (hr'.symm.trans hr)
    exact hmirror
  | access paddr =>
    obtain ⟨hsound, hranges⟩ := access_ranges h.sound paddr
    exact ⟨h.wf.of_devi rfl, hsound, hranges.trans h.ranges⟩
  | device d hpi =>
    refine ⟨h.wf.setDevinst hpi d, h.sound, ?_⟩
    rw [PciBus.decoded_setDevinst hpi d]
    exact h.ranges

theorem Reaches.pci_mirror (h : Reaches (Guarded PciStep fun s l => l.Safe s) PciInitial s) :
    s.Mirror :=
  h.invariant (fun _ hinit => hinit.started.mirror) fun _ _ _ hs hstep => hs.step hstep.1 hstep.2

/-- The registry mirrors the BARs, entry by entry. -/
structure PciBus.Mirrors (s : PciBus T) : Prop where
  /-- one entry for ECFG -/
  ecfg : ∃! e, e ∈ T.elems s.reg.mmio.root ∧ e.mrParam = ecfgRange
  /-- one entry for each memory BAR of a device that has `PCIM_CMD_MEMEN` set -/
  bar : ∀ a pi i, s.devi a = some pi → memen pi = true → i ≤ pciBarmax →
    (pi.bar i).type.isMem = true →
      ∃ e ∈ T.elems s.reg.mmio.root, e.mrParam.base = (pi.bar i).addr ∧
        e.mrParam.size = (pi.bar i).size ∧ e.mrParam.handler = .emulMem a i ∧
        ∀ e' ∈ T.elems s.reg.mmio.root, e'.mrParam.handler = .emulMem a i → e' = e
  /-- and no other -/
  other : ∀ e ∈ T.elems s.reg.mmio.root, e.mrParam = ecfgRange ∨
    ∃ a pi i, s.devi a = some pi ∧ memen pi = true ∧ i ≤ pciBarmax ∧
      (pi.bar i).type.isMem = true ∧ e.mrParam.handler = .emulMem a i

/-- Within what is decoded, a range is known by its handler. -/
theorem PciBus.Within.range_eq (h : s.Within) {r : PciMemRange} (hr : r ∈ s.reg.ranges)
    {a : PciAddr} {pi : PciDev} {i : Nat} (hpi : s.devi a = some pi)
    (hhandler : r.handler = .emulMem a i) : r = barRange pi i := by
  obtain rfl | ⟨b, pj, hpj, -, j, -, -, rfl⟩ := h.ranges hr
  · exact nomatch hhandler
  · obtain ⟨hbdf, rfl⟩ : pj.bdf = a ∧ j = i := by simpa [barRange] using hhandler
    obtain rfl : b = a := (h.wf.bdf b pj hpj).symm.trans hbdf
    obtain rfl := Option.some.inj (hpi.symm.trans hpj)
    rfl

theorem PciBus.Mirror.mirrors (h : s.Mirror) : s.Mirrors where
  ecfg := by
    refine h.sound.mmio.existsUnique_entry ?_
    have hmem : ecfgRange ∈ s.reg.ranges := h.ranges ▸ .inl rfl
    exact hmem
  bar a pi i hpi hen hi hmem := by
    have hr : barRange pi i ∈ s.reg.ranges := by
      rw [h.ranges]
      exact .inr ⟨a, pi, hpi, hen, i, hi, hmem, rfl⟩
    obtain ⟨e, ⟨he, heq⟩, huniq⟩ := h.sound.mmio.existsUnique_entry hr
    have hbdf := h.wf.bdf a pi hpi
    refine ⟨e, he, ?_, ?_, ?_, ?_⟩
    · rw [heq, barRange]
    · rw [heq, barRange]
    · rw [heq, barRange, hbdf]
    · intro e' he' hhandler
      exact huniq e' ⟨he', h.within.range_eq ⟨e', he', rfl⟩ hpi hhandler⟩
  other e he := by
    have hr : e.mrParam ∈ s.reg.ranges := ⟨e, he, rfl⟩
    rw [h.ranges] at hr
    obtain heq | ⟨a, pi, hpi, hen, i, hi, hmem, heq⟩ := hr
    · exact .inl heq
    · refine .inr ⟨a, pi, i, hpi, hen, hi, hmem, ?_⟩
      rw [heq, barRange, h.wf.bdf a pi hpi]

/-- What is not the mirror misses an entry. -/
theorem PciBus.Mirrors.mirror (h : s.Mirrors) (hwithin : s.Within) : s.Mirror := by
  refine ⟨hwithin.wf, hwithin.sound, hwithin.ranges.antisymm ?_⟩
  rintro r (rfl | ⟨a, pi, hpi, hen, i, hi, hmem, rfl⟩)
  · obtain ⟨e, ⟨he, heq⟩, -⟩ := h.ecfg
    exact ⟨e, he, heq⟩
  · obtain ⟨e, he, -, -, hhandler, -⟩ := h.bar a pi i hpi hen hi hmem
    have hr : e.mrParam ∈ s.reg.ranges := ⟨e, he, rfl⟩
    rw [← hwithin.range_eq hr hpi hhandler]
    exact hr

/-- **The registry mirrors the BARs** in every run in which what is decoded lies apart
after each config write; and there a config write returns and leaves the mirror
exactly if the same holds of it. -/
theorem registry_mirrors_bars (h : Reaches (Guarded PciStep fun s l => l.Safe s) PciInitial s) :
    s.Mirrors ∧ ∀ fuel a coff bytes val,
      (∃ s', pciCfgwrite (fuel + 1) s a coff bytes val = .ok s' ∧ s'.Mirrors) ↔
        s.WriteSafe a coff bytes val := by
  have hmirror := h.pci_mirror
  refine ⟨hmirror.mirrors, fun fuel a coff bytes val => ?_⟩
  rw [← hmirror.cfgwrite fuel]
  refine exists_congr fun s' => and_congr_right fun hr => ?_
  exact ⟨fun hs' => hs'.mirror (hmirror.within.cfgwrite hr), fun hs' => hs'.mirrors⟩

/-! ### Overlapping BARs -/

theorem pciListStart_initial : PciInitial pciListStart := pciListStart_init

/-- After the guest has moved the register BAR of the e1000 over its flash BAR. -/
def pciListOverlap : PciBus OrderedTree.list :=
  outcome (pciCfgwrite 1 pciListStart e1000Addr 0x10 4 0x60040000) pciListStart

theorem pciListOverlap_step :
    pciCfgwrite 1 pciListStart e1000Addr 0x10 4 0x60040000 = .ok pciListOverlap :=
  eq_ok_outcome (by decide +kernel)

/-- `register_mem` passes the range over: only the entry of the flash BAR is there. -/
theorem registry_mirrors_bars_overlap :
    ¬ ∀ s : PciBus OrderedTree.list, Reaches PciStep PciInitial s → ∀ a coff bytes val,
      ∃ s', pciCfgwrite 1 s a coff bytes val = .ok s' ∧ s'.Mirrors := by
  intro h
  obtain ⟨s', hr, hmirrors⟩ := h pciListStart (.start pciListStart_initial) e1000Addr 0x10 4 0x60040000
  obtain rfl := Except.ok.inj (pciListOverlap_step.symm.trans hr)
  have hdev : (pciListOverlap.devi e1000Addr).map (fun pi => (memen pi, (pi.bar 0).type.isMem)) =
      some (true, true) := by decide +kernel
  obtain ⟨pi, hpi, hbar⟩ := Option.map_eq_some_iff.1 hdev
  obtain ⟨hen, hmem⟩ := Prod.mk.inj hbar
  obtain ⟨e, he, -, -, hhandler, -⟩ := hmirrors.bar e1000Addr pi 0 hpi hen (by decide) hmem
  have hnone : ∀ e ∈ pciListOverlap.entries, e.mrParam.handler ≠ .emulMem e1000Addr 0 := by
    decide +kernel
  exact hnone e he hhandler

-- the next write to the same BAR fails the assertion of `unregister_mem`
example : (match pciCfgwrite 1 pciListOverlap e1000Addr 0x10 4 0x70000000 with
    | .ok _ => none
    | .error e => some e) =
      some (.assertion "mr->base == memp->base && mr->size == memp->size") := by
  decide +kernel

/-- A device that decodes no memory after a write is out of the others' way. -/
theorem PciBus.Mirror.writeSafe_of_off (h : s.Mirror) {a : PciAddr} {coff bytes : Nat} {val : U32}
    (hoff : (s.devi a).all (fun pi => !memen (pi.after coff bytes val)) = true) :
    s.WriteSafe a coff bytes val := by
  have hdisj : s.decoded.PairwiseDisjoint MemRange.addresses :=
    h.ranges ▸ h.sound.mmio.ranges_disjoint
  obtain ⟨-, hafter⟩ | ⟨pi, hpi, -, hafter, -⟩ := pciCfgwrite_kind h.wf 0 a coff bytes val
  · rwa [PciBus.WriteSafe, hafter]
  · rw [hpi, Option.all_some, Bool.not_eq_true'] at hoff
    rw [PciBus.decoded_eq hpi] at hdisj
    rw [PciBus.WriteSafe, hafter, PciBus.decoded_setDevi, PciDev.decoded_of_not_memen hoff,
      Set.union_empty]
    exact hdisj.subset Set.subset_union_left

/-- The guest turns memory decoding off for the e1000, and asks for the size of its first BAR. -/
def pciListOff : PciBus OrderedTree.list :=
  outcome (pciCfgwrite 1 pciListStart e1000Addr 4 2 0x0004) pciListStart
def pciListSized : PciBus OrderedTree.list :=
  outcome (pciCfgwrite 1 pciListOff e1000Addr 0x10 4 0xffffffff) pciListStart

theorem registry_mirrors_bars_sized : pciListSized.Mirrors ∧
    (pciListSized.devi e1000Addr).map (fun pi => pi.cfg32 (pcirBar 0)) = some 0xfffe0000 := by
  have hstart : Reaches (Guarded PciStep fun s l => l.Safe s) PciInitial pciListStart :=
    .start pciListStart_initial
  have hoff : Reaches (Guarded PciStep fun s l => l.Safe s) PciInitial pciListOff :=
    .next (l := .cfgwrite e1000Addr 4 2 0x0004) hstart
      ⟨.cfgwrite 0 (eq_ok_outcome (by decide +kernel)),
        hstart.pci_mirror.writeSafe_of_off (by decide +kernel)⟩
  have hsized : Reaches (Guarded PciStep fun s l => l.Safe s) PciInitial pciListSized :=
    .next (l := .cfgwrite e1000Addr 0x10 4 0xffffffff) hoff
      ⟨.cfgwrite 0 (eq_ok_outcome (by decide +kernel)),
        hoff.pci_mirror.writeSafe_of_off (by decide +kernel)⟩
  exact ⟨(registry_mirrors_bars hsized).1, by decide +kernel⟩

end Runs

end DeviceModel
