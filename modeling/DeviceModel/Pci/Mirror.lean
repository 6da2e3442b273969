import DeviceModel.Library.Runs
import DeviceModel.Pci.Init
import DeviceModel.Pci.Registry

/-!
# What a config write does to the registry

The registry is changed from two places, a BAR write and a command write, on a tree
that refuses a range that overlaps another or passes it over in silence. For one
device, with everything else that is registered in a set `O` of ranges:

* `WriteKind.within` — where a write returns, nothing of the device is registered
  afterwards but what it decodes then;
* `WriteKind.mirror` — all of that is registered, and the write returns, exactly where
  the ranges lie apart.
-/

namespace DeviceModel

variable {T : PciMemTree}

/-- The ranges of the memory BARs of a list. -/
def barRanges (pi : PciDev) (is : List Nat) : Set PciMemRange :=
  { r | ∃ i ∈ is, (pi.bar i).type.isMem = true ∧ r = barRange pi i }

theorem PciDev.decoded_of_memen {pi : PciDev} (h : memen pi = true) :
    pi.decoded = barRanges pi (List.range (pciBarmax + 1)) := by
  ext r
  simp only [PciDev.decoded, barRanges, h, true_and, Set.mem_ofPred_eq, List.mem_range,
    Nat.lt_succ_iff]

theorem PciDev.decoded_of_not_memen {pi : PciDev} (h : memen pi = false) : pi.decoded = ∅ := by
  ext r
  simp [PciDev.decoded, h]

/-- The BAR of a device that a range belongs to is in its handler. -/
theorem barRange_inj {pi pj : PciDev} {i j : Nat} (h : barRange pi i = barRange pj j) :
    pi.bdf = pj.bdf ∧ i = j := by
  have hhandler := congrArg MemRange.handler h
  simpa [barRange] using hhandler

/-- A BAR is registered as mutable. -/
theorem barRange_mutable (pi : PciDev) (i : Nat) :
    (barRange pi i).flags &&& memFImmutable = 0 := by
  have hflags : memFRW &&& memFImmutable = 0 := by decide
  exact hflags

/-! ## One registration -/

section Modify

variable {reg reg' : MmioHeap T} {pi : PciDev} {idx : Nat}

/-- The registered ranges. -/
def MmioHeap.ranges (reg : MmioHeap T) : Set PciMemRange := reg.mmio.ranges

/-- The registry is sound, and nothing is registered as a fallback. -/
structure MmioHeap.Sound (reg : MmioHeap T) : Prop where
  mmio : reg.mmio.Sound
  fallback : reg.mmio.fallback = T.init

theorem modifyBarRegistration_register (hmem : (pi.bar idx).type.isMem = true) :
    modifyBarRegistration reg pi idx true =
      (do assert "error == 0" (reg.register (barRange pi idx)).2.isNone
          .ok (reg.register (barRange pi idx)).1) := by
  rw [modifyBarRegistration]
  cases htype : (pi.bar idx).type <;> simp [htype, PcibarType.isMem] at hmem ⊢

theorem modifyBarRegistration_unregister (hmem : (pi.bar idx).type.isMem = true) :
    modifyBarRegistration reg pi idx false =
      (do let r ← unregisterMem reg.mmio (barRange pi idx)
          assert "error == 0" r.2.isNone
          .ok { reg with mmio := r.1 }) := by
  rw [modifyBarRegistration]
  cases htype : (pi.bar idx).type <;> simp [htype, PcibarType.isMem] at hmem ⊢

/-- Registering adds nothing but the range of the BAR. -/
theorem register_within (h : reg.Sound) (hal : (pi.bar idx).Aligned)
    (hmem : (pi.bar idx).type.isMem = true)
    (hr : modifyBarRegistration reg pi idx true = .ok reg') :
    reg'.Sound ∧ reg'.ranges ⊆ insert (barRange pi idx) reg.ranges := by
  rw [modifyBarRegistration_register hmem] at hr
  obtain ⟨_, hnone, hr⟩ := Except.bind_eq_ok.1 hr
  obtain rfl := Except.ok.inj hr
  rw [assert_eq_ok, Option.isNone_iff_eq_none] at hnone
  have heq : registerMem (some reg.brk) reg.mmio (barRange pi idx) =
      ((reg.register (barRange pi idx)).1.mmio, none) := Prod.ext rfl hnone
  obtain ⟨hsound, ⟨hranges, -⟩ | ⟨hsame, -⟩⟩ := h.mmio.registerMem_ok hal.proper heq
  · exact ⟨⟨hsound, h.fallback⟩, hranges.subset⟩
  · refine ⟨⟨hsound, h.fallback⟩, ?_⟩
    rw [MmioHeap.ranges, hsame]
    exact Set.subset_insert _ _

/-- A range that overlaps no other is registered. -/
theorem register_fresh (h : reg.Sound) (hal : (pi.bar idx).Aligned)
    (hmem : (pi.bar idx).type.isMem = true)
    (hdisj : ∀ r ∈ reg.ranges, Disjoint r.addresses (barRange pi idx).addresses) :
    ∃ reg', modifyBarRegistration reg pi idx true = .ok reg' ∧ reg'.Sound ∧
      reg'.ranges = insert (barRange pi idx) reg.ranges := by
  obtain ⟨m', heq, hsound, hranges⟩ := h.mmio.registerMem_fresh reg.brk hal.proper hdisj
  have hfallback : m'.fallback = T.init := by
    obtain rfl := (Prod.mk.inj heq).1
    exact h.fallback
  refine ⟨{ mmio := m', brk := reg.brk + 1 }, ?_, ⟨hsound, hfallback⟩, hranges⟩
  rw [modifyBarRegistration_register hmem, MmioHeap.register, heq]
  rfl

/-- After unregistering, the range of the BAR is not registered. -/
theorem unregister_within (h : reg.Sound) (hmem : (pi.bar idx).type.isMem = true)
    (hr : modifyBarRegistration reg pi idx false = .ok reg') :
    reg'.Sound ∧ reg'.ranges ⊆ reg.ranges \ {barRange pi idx} := by
  rw [modifyBarRegistration_unregister hmem] at hr
  obtain ⟨r, hun, hr⟩ := Except.bind_eq_ok.1 hr
  obtain ⟨_, hnone, hr⟩ := Except.bind_eq_ok.1 hr
  obtain rfl := Except.ok.inj hr
  rw [assert_eq_ok, Option.isNone_iff_eq_none] at hnone
  have heq : unregisterMem reg.mmio (barRange pi idx) = .ok (r.1, none) := by
    rw [hun, ← hnone]
  obtain ⟨hsound, hranges⟩ := h.mmio.unregisterMem_ok heq
  exact ⟨⟨hsound, (h.mmio.unregisterMem_fallback heq).trans h.fallback⟩, hranges⟩

/-- A registered range of a BAR can be unregistered. -/
theorem unregister_mem (h : reg.Sound) (hmem : (pi.bar idx).type.isMem = true)
    (hr : barRange pi idx ∈ reg.ranges) :
    ∃ reg', modifyBarRegistration reg pi idx false = .ok reg' ∧ reg'.Sound ∧
      reg'.ranges = reg.ranges \ {barRange pi idx} := by
  obtain ⟨m', heq, hsound, hranges⟩ := h.mmio.unregisterMem_mem hr (barRange_mutable pi idx)
  have hfallback := (h.mmio.unregisterMem_fallback heq).trans h.fallback
  refine ⟨{ reg with mmio := m' }, ?_, ⟨hsound, hfallback⟩, hranges⟩
  rw [modifyBarRegistration_unregister hmem, heq]
  rfl

/-- The registrations of i/o BARs do nothing. -/
theorem cmdstsBar_of_not_mem {changed : U16} (hmem : (pi.bar idx).type.isMem = false) :
    cmdstsBar pi changed reg idx = .ok reg := by
  rw [cmdstsBar]
  cases htype : (pi.bar idx).type <;>
    simp [htype, PcibarType.isMem, registerBar, unregisterBar, modifyBarRegistration] at hmem ⊢

theorem cmdstsBar_of_mem {changed : U16} (hmem : (pi.bar idx).type.isMem = true) :
    cmdstsBar pi changed reg idx =
      if changed &&& pcimCmdMemen != 0 then modifyBarRegistration reg pi idx (memen pi)
      else .ok reg := by
  rw [cmdstsBar]
  cases htype : (pi.bar idx).type <;> cases memen pi <;>
    simp [htype, PcibarType.isMem, registerBar, unregisterBar] at hmem ⊢

end Modify

/-! ## All BARs of a device -/

section Bars

variable {reg reg' : MmioHeap T} {pi : PciDev} {changed : U16}

theorem barRanges_nil : barRanges pi [] = ∅ := by
  ext r
  simp [barRanges]

theorem barRanges_cons_of_mem {i : Nat} {is : List Nat} (h : (pi.bar i).type.isMem = true) :
    barRanges pi (i :: is) = insert (barRange pi i) (barRanges pi is) := by
  ext r
  simp only [barRanges, List.mem_cons, Set.mem_ofPred_eq, Set.mem_insert_iff]
  constructor
  · rintro ⟨j, rfl | hj, hmem, rfl⟩
    · exact .inl rfl
    · exact .inr ⟨j, hj, hmem, rfl⟩
  · rintro (rfl | ⟨j, hj, hmem, rfl⟩)
    · exact ⟨i, .inl rfl, h, rfl⟩
    · exact ⟨j, .inr hj, hmem, rfl⟩

theorem barRanges_cons_of_not_mem {i : Nat} {is : List Nat}
    (h : (pi.bar i).type.isMem = false) : barRanges pi (i :: is) = barRanges pi is := by
  ext r
  simp only [barRanges, List.mem_cons, Set.mem_ofPred_eq]
  constructor
  · rintro ⟨j, rfl | hj, hmem, rfl⟩
    · simp [h] at hmem
    · exact ⟨j, hj, hmem, rfl⟩
  · rintro ⟨j, hj, hmem, rfl⟩
    exact ⟨j, .inr hj, hmem, rfl⟩

/-- The range of a BAR is not among those of other BARs. -/
theorem barRange_notMem {i : Nat} {is : List Nat} (h : i ∉ is) :
    barRange pi i ∉ barRanges pi is := by
  rintro ⟨j, hj, -, heq⟩
  obtain ⟨-, rfl⟩ := barRange_inj heq
  exact h hj

/-- The loop passes over an i/o BAR. -/
theorem cmdstsBars_cons_of_not_mem {i : Nat} {is : List Nat}
    (h : (pi.bar i).type.isMem = false) :
    cmdstsBars pi changed (i :: is) reg = cmdstsBars pi changed is reg := by
  rw [cmdstsBars, cmdstsBar_of_not_mem h]
  rfl

/-- With `PCIM_CMD_MEMEN` changed, it gives a memory BAR the registration that the bit says. -/
theorem cmdstsBars_cons_of_mem {i : Nat} {is : List Nat} (h : (pi.bar i).type.isMem = true)
    (hc : (changed &&& pcimCmdMemen != 0) = true) :
    cmdstsBars pi changed (i :: is) reg =
      modifyBarRegistration reg pi i (memen pi) >>= cmdstsBars pi changed is := by
  rw [cmdstsBars, cmdstsBar_of_mem h, hc, if_pos rfl]

/-- A command write that leaves `PCIM_CMD_MEMEN` as it was. -/
theorem cmdstsBars_unchanged (hc : (changed &&& pcimCmdMemen != 0) = false) :
    ∀ (is : List Nat) (reg : MmioHeap T), cmdstsBars pi changed is reg = .ok reg := by
  intro is
  induction is with
  | nil => intro reg; rfl
  | cons i is ih =>
    intro reg
    have hbar : cmdstsBar pi changed reg i = .ok reg := by
      cases hmem : (pi.bar i).type.isMem with
      | false => exact cmdstsBar_of_not_mem hmem
      | true => rw [cmdstsBar_of_mem hmem, hc, if_neg Bool.false_ne_true]
    rw [cmdstsBars, hbar]
    exact ih reg

/-- Turning memory decoding on, where it returns. -/
theorem cmdstsBars_register_within
    (hal : ∀ i, (pi.bar i).type.isMem = true → (pi.bar i).Aligned)
    (hc : (changed &&& pcimCmdMemen != 0) = true)
    (hen : memen pi = true) : ∀ (is : List Nat) {reg reg' : MmioHeap T}, reg.Sound →
      cmdstsBars pi changed is reg = .ok reg' →
        reg'.Sound ∧ reg'.ranges ⊆ reg.ranges ∪ barRanges pi is := by
  intro is
  induction is with
  | nil =>
    intro reg reg' h hr
    obtain rfl := Except.ok.inj hr
    exact ⟨h, Set.subset_union_left⟩
  | cons i is ih =>
    intro reg reg' h hr
    cases hmem : (pi.bar i).type.isMem with
    | false =>
      rw [cmdstsBars_cons_of_not_mem hmem] at hr
      rw [barRanges_cons_of_not_mem hmem]
      exact ih h hr
    | true =>
      rw [cmdstsBars_cons_of_mem hmem hc, hen] at hr
      obtain ⟨reg₁, hbar, hr⟩ := Except.bind_eq_ok.1 hr
      obtain ⟨h₁, hsub⟩ := register_within h (hal i hmem) hmem hbar
      obtain ⟨h', hsub'⟩ := ih h₁ hr
      rw [barRanges_cons_of_mem hmem, Set.union_insert, ← Set.insert_union]
      exact ⟨h', hsub'.trans (Set.union_subset_union_left _ hsub)⟩

/-- Turning it off, where it returns. -/
theorem cmdstsBars_unregister_within (hc : (changed &&& pcimCmdMemen != 0) = true)
    (hen : memen pi = false) : ∀ (is : List Nat) {reg reg' : MmioHeap T}, reg.Sound →
      cmdstsBars pi changed is reg = .ok reg' →
        reg'.Sound ∧ reg'.ranges ⊆ reg.ranges \ barRanges pi is := by
  intro is
  induction is with
  | nil =>
    intro reg reg' h hr
    obtain rfl := Except.ok.inj hr
    exact ⟨h, fun r hr => ⟨hr, fun ⟨_, hj, _⟩ => (nomatch hj)⟩⟩
  | cons i is ih =>
    intro reg reg' h hr
    cases hmem : (pi.bar i).type.isMem with
    | false =>
      rw [cmdstsBars_cons_of_not_mem hmem] at hr
      rw [barRanges_cons_of_not_mem hmem]
      exact ih h hr
    | true =>
      rw [cmdstsBars_cons_of_mem hmem hc, hen] at hr
      obtain ⟨reg₁, hbar, hr⟩ := Except.bind_eq_ok.1 hr
      obtain ⟨h₁, hsub⟩ := unregister_within h hmem hbar
      obtain ⟨h', hsub'⟩ := ih h₁ hr
      rw [barRanges_cons_of_mem hmem]
      refine ⟨h', fun r hr => ?_⟩
      obtain ⟨hr₁, hnot⟩ := hsub' hr
      obtain ⟨hr₀, hne⟩ := hsub hr₁
      exact ⟨hr₀, fun hins => hins.elim hne hnot⟩

/-- Turning memory decoding on registers the BARs, if nothing overlaps. -/
theorem cmdstsBars_register_fresh
    (hal : ∀ i, (pi.bar i).type.isMem = true → (pi.bar i).Aligned)
    (hc : (changed &&& pcimCmdMemen != 0) = true)
    (hen : memen pi = true) : ∀ (is : List Nat) (reg : MmioHeap T), reg.Sound → is.Nodup →
      (∀ i ∈ is, barRange pi i ∉ reg.ranges) →
      (reg.ranges ∪ barRanges pi is).PairwiseDisjoint MemRange.addresses →
        ∃ reg', cmdstsBars pi changed is reg = .ok reg' ∧ reg'.Sound ∧
          reg'.ranges = reg.ranges ∪ barRanges pi is := by
  intro is
  induction is with
  | nil =>
    intro reg h _ _ _
    exact ⟨reg, rfl, h, by rw [barRanges_nil, Set.union_empty]⟩
  | cons i is ih =>
    intro reg h hnodup hnew hdisj
    obtain ⟨hi, hnodup⟩ := List.nodup_cons.1 hnodup
    have hnew' : ∀ j ∈ is, barRange pi j ∉ reg.ranges :=
      fun j hj => hnew j (List.mem_cons_of_mem i hj)
    cases hmem : (pi.bar i).type.isMem with
    | false =>
      rw [barRanges_cons_of_not_mem hmem] at hdisj ⊢
      obtain ⟨reg', hr, h', hranges⟩ := ih reg h hnodup hnew' hdisj
      exact ⟨reg', (cmdstsBars_cons_of_not_mem hmem).trans hr, h', hranges⟩
    | true =>
      rw [barRanges_cons_of_mem hmem, Set.union_insert, ← Set.insert_union] at hdisj ⊢
      have hfresh : ∀ r ∈ reg.ranges, Disjoint r.addresses (barRange pi i).addresses := by
        intro r hr
        refine hdisj (.inl (.inr hr)) (.inl (.inl rfl)) fun heq => ?_
        exact hnew i List.mem_cons_self (heq ▸ hr)
      obtain ⟨reg₁, hbar, h₁, hranges₁⟩ := register_fresh h (hal i hmem) hmem hfresh
      have hnew₁ : ∀ j ∈ is, barRange pi j ∉ reg₁.ranges := by
        intro j hj
        rw [hranges₁]
        rintro (heq | hr)
        · obtain ⟨-, rfl⟩ := barRange_inj heq
          exact hi hj
        · exact hnew' j hj hr
      rw [← hranges₁] at hdisj ⊢
      obtain ⟨reg', hr, h', hranges⟩ := ih reg₁ h₁ hnodup hnew₁ hdisj
      refine ⟨reg', ?_, h', hranges⟩
      rw [cmdstsBars_cons_of_mem hmem hc, hen, hbar]
      exact hr

/-- Turning it off unregisters them. -/
theorem cmdstsBars_unregister_mem (hc : (changed &&& pcimCmdMemen != 0) = true)
    (hen : memen pi = false) : ∀ (is : List Nat) (reg : MmioHeap T), reg.Sound → is.Nodup →
      barRanges pi is ⊆ reg.ranges →
        ∃ reg', cmdstsBars pi changed is reg = .ok reg' ∧ reg'.Sound ∧
          reg'.ranges = reg.ranges \ barRanges pi is := by
  intro is
  induction is with
  | nil =>
    intro reg h _ _
    exact ⟨reg, rfl, h, by rw [barRanges_nil, Set.sdiff_empty]⟩
  | cons i is ih =>
    intro reg h hnodup hsub
    obtain ⟨hi, hnodup⟩ := List.nodup_cons.1 hnodup
    cases hmem : (pi.bar i).type.isMem with
    | false =>
      rw [barRanges_cons_of_not_mem hmem] at hsub ⊢
      obtain ⟨reg', hr, h', hranges⟩ := ih reg h hnodup hsub
      exact ⟨reg', (cmdstsBars_cons_of_not_mem hmem).trans hr, h', hranges⟩
    | true =>
      rw [barRanges_cons_of_mem hmem] at hsub ⊢
      obtain ⟨reg₁, hbar, h₁, hranges₁⟩ := unregister_mem h hmem (hsub (.inl rfl))
      have hsub₁ : barRanges pi is ⊆ reg₁.ranges := by
        intro r hr
        rw [hranges₁]
        exact ⟨hsub (.inr hr), fun heq => barRange_notMem hi (heq ▸ hr)⟩
      obtain ⟨reg', hr, h', hranges⟩ := ih reg₁ h₁ hnodup hsub₁
      refine ⟨reg', ?_, h', ?_⟩
      · rw [cmdstsBars_cons_of_mem hmem hc, hen, hbar]
        exact hr
      · rw [hranges, hranges₁, Set.sdiff_sdiff, Set.singleton_union]

end Bars

/-! ## One device among others -/

section Device

variable {reg reg' : MmioHeap T} {pi pi' after : PciDev} {O : Set PciMemRange}
  {f : MmioHeap T → Except Stop (MmioHeap T × PciDev)}

/-- A set of ranges that has none of a device's BARs in it. -/
def Foreign (O : Set PciMemRange) (bdf : PciAddr) : Prop :=
  ∀ pi i, pi.bdf = bdf → barRange pi i ∉ O

/-- The decoded ranges after one memory BAR has moved. -/
theorem decoded_setBarAddr_subset {idx : Nat} {addr : U64} :
    (pi.setBarAddr idx addr).decoded ⊆
      insert (barRange (pi.setBarAddr idx addr) idx) (pi.decoded \ {barRange pi idx}) := by
  rintro r ⟨hen, i, hi, hmem, rfl⟩
  by_cases hne : i = idx
  · exact .inl (by rw [hne])
  · have hsame : barRange (pi.setBarAddr idx addr) i = barRange pi i := by
      rw [barRange, barRange, pi.setBarAddr_bar_of_ne addr hne]
      rfl
    rw [pi.setBarAddr_type] at hmem
    refine .inr ⟨⟨hen, i, hi, hmem, hsame⟩, fun heq => hne ?_⟩
    rw [hsame] at heq
    exact (barRange_inj heq).2

theorem decoded_setBarAddr {idx : Nat} (addr : U64) (hidx : idx ≤ pciBarmax)
    (hmem : (pi.bar idx).type.isMem = true) (hen : memen pi = true) :
    (pi.setBarAddr idx addr).decoded =
      insert (barRange (pi.setBarAddr idx addr) idx) (pi.decoded \ {barRange pi idx}) := by
  refine Set.Subset.antisymm decoded_setBarAddr_subset ?_
  rintro r (rfl | ⟨⟨-, i, hi, hmemi, rfl⟩, hne⟩)
  · exact ⟨hen, idx, hidx, by rw [pi.setBarAddr_type, hmem], rfl⟩
  · have hii : i ≠ idx := fun heq => hne (by rw [heq]; rfl)
    refine ⟨hen, i, hi, by rw [pi.setBarAddr_type, hmemi], ?_⟩
    rw [barRange, barRange, pi.setBarAddr_bar_of_ne addr hii]
    rfl

/-- What the device decodes after a write is `PciDev.after`. -/
theorem WriteKind.sameDecode (hk : WriteKind T pi after f) (hr : f reg = .ok (reg', pi')) :
    SameDecode after pi' ∧ pi'.Wf := by
  cases hk with
  | keep pj hafter hpj hwf hf =>
    obtain rfl := (Prod.mk.inj (Except.ok.inj ((hf reg).symm.trans hr))).2
    exact ⟨hafter.symm.trans hpj, hwf⟩
  | move idx addr pj hidx hmem hafter hpj hwf hf =>
    obtain ⟨_, _, hr⟩ := Except.bind_eq_ok.1 ((hf reg).symm.trans hr)
    obtain ⟨_, _, hr⟩ := Except.bind_eq_ok.1 hr
    obtain rfl := (Prod.mk.inj (Except.ok.inj hr)).2
    exact ⟨hpj, hwf⟩
  | command pj changed hbdf hbar hpj hwf hchanged hf =>
    obtain ⟨_, _, hr⟩ := Except.bind_eq_ok.1 ((hf reg).symm.trans hr)
    obtain rfl := (Prod.mk.inj (Except.ok.inj hr)).2
    exact ⟨hpj, hwf⟩

theorem WriteKind.bdf (hk : WriteKind T pi after f) : after.bdf = pi.bdf := by
  cases hk with
  | keep pj hafter hpj hwf hf => exact hafter.bdf
  | move idx addr pj hidx hmem hafter hpj hwf hf => rw [hafter]; rfl
  | command pj changed hbdf hbar hpj hwf hchanged hf => exact hbdf

theorem WriteKind.type (hk : WriteKind T pi after f) (i : Nat) :
    (after.bar i).type = (pi.bar i).type := by
  cases hk with
  | keep pj hafter hpj hwf hf => exact hafter.type i
  | move idx addr pj hidx hmem hafter hpj hwf hf => rw [hafter, pi.setBarAddr_type]
  | command pj changed hbdf hbar hpj hwf hchanged hf => rw [hbar]

/-- The BARs that a device with the same BARs has. -/
theorem barRanges_congr {is : List Nat} (hbdf : after.bdf = pi.bdf) (hbar : after.bar = pi.bar) :
    barRanges after is = barRanges pi is := by
  simp only [barRanges, barRange, hbdf, hbar]

/-- **Half of the mirror.** A config write registers nothing but what the device
decodes after it, and leaves nothing registered that it decoded before. -/
theorem WriteKind.within (hk : WriteKind T pi after f) (hwf : pi.Wf) (h : reg.Sound)
    (hsub : reg.ranges ⊆ O ∪ pi.decoded) (hr : f reg = .ok (reg', pi')) :
    reg'.Sound ∧ reg'.ranges ⊆ O ∪ pi'.decoded := by
  obtain ⟨hsame, hwf'⟩ := hk.sameDecode hr
  rw [hsame.decoded]
  cases hk with
  | keep pj hafter hpj hwf hf =>
    obtain rfl := (Prod.mk.inj (Except.ok.inj ((hf reg).symm.trans hr))).1
    rw [hafter.decoded]
    exact ⟨h, hsub⟩
  | move idx addr pj hidx hmem hafter hpj _ hf =>
    have hbar : ∀ i, (after.bar i).type.isMem = true → (after.bar i).Aligned := by
      intro i hi
      rw [← hsame.bar i hi]
      exact hwf'.aligned i (by rw [hsame.type i, hi])
    subst hafter
    obtain ⟨reg₁, hun, hr⟩ := Except.bind_eq_ok.1 ((hf reg).symm.trans hr)
    obtain ⟨reg₂, hre, hr⟩ := Except.bind_eq_ok.1 hr
    obtain rfl := (Prod.mk.inj (Except.ok.inj hr)).1
    cases hen : memen pi with
    | false =>
      rw [modifyIfDecoding, hen, if_neg Bool.false_ne_true] at hun hre
      obtain rfl := Except.ok.inj hun
      obtain rfl := Except.ok.inj hre
      have hempty : (pi.setBarAddr idx addr).decoded = ∅ := PciDev.decoded_of_not_memen hen
      rw [PciDev.decoded_of_not_memen hen] at hsub
      rw [hempty]
      exact ⟨h, hsub⟩
    | true =>
      rw [modifyIfDecoding, hen, if_pos rfl] at hun hre
      have hmem' : ((pi.setBarAddr idx addr).bar idx).type.isMem = true := by
        rw [pi.setBarAddr_type, hmem]
      obtain ⟨h₁, hsub₁⟩ := unregister_within h hmem hun
      obtain ⟨h₂, hsub₂⟩ := register_within h₁ (hbar idx hmem') hmem' hre
      refine ⟨h₂, hsub₂.trans ?_⟩
      rw [decoded_setBarAddr addr hidx hmem hen]
      rintro r (rfl | hr)
      · exact .inr (.inl rfl)
      · obtain ⟨hr, hne⟩ := hsub₁ hr
        obtain hO | hdec := hsub hr
        · exact .inl hO
        · exact .inr (.inr ⟨hdec, hne⟩)
  | command pj changed hbdf hbar hpj _ hchanged hf =>
    obtain ⟨reg₁, hbars, hr⟩ := Except.bind_eq_ok.1 ((hf reg).symm.trans hr)
    obtain rfl := (Prod.mk.inj (Except.ok.inj hr)).1
    have hal : ∀ i, (after.bar i).type.isMem = true → (after.bar i).Aligned := by
      rw [hbar]
      exact hwf.aligned
    cases hen : memen pi <;> cases hen' : memen after <;> rw [hen, hen'] at hchanged
    · rw [cmdstsBars_unchanged hchanged] at hbars
      obtain rfl := Except.ok.inj hbars
      rw [PciDev.decoded_of_not_memen hen] at hsub
      rw [PciDev.decoded_of_not_memen hen']
      exact ⟨h, hsub⟩
    · obtain ⟨h₁, hsub₁⟩ := cmdstsBars_register_within hal hchanged hen' _ h hbars
      rw [PciDev.decoded_of_not_memen hen, Set.union_empty] at hsub
      rw [PciDev.decoded_of_memen hen']
      exact ⟨h₁, hsub₁.trans (Set.union_subset_union_left _ hsub)⟩
    · obtain ⟨h₁, hsub₁⟩ := cmdstsBars_unregister_within hchanged hen' _ h hbars
      rw [PciDev.decoded_of_memen hen, ← barRanges_congr hbdf hbar] at hsub
      rw [PciDev.decoded_of_not_memen hen', Set.union_empty]
      refine ⟨h₁, fun r hr => ?_⟩
      obtain ⟨hr, hnot⟩ := hsub₁ hr
      exact (hsub hr).resolve_right hnot
    · rw [cmdstsBars_unchanged hchanged] at hbars
      obtain rfl := Except.ok.inj hbars
      rw [PciDev.decoded_of_memen hen] at hsub
      rw [PciDev.decoded_of_memen hen', barRanges_congr hbdf hbar]
      exact ⟨h, hsub⟩

/-- Where the ranges lie apart, moving a BAR moves its range. -/
theorem modifyIfDecoding_move {idx : Nat} {addr : U64}
    (hwf' : (pi.setBarAddr idx addr).Wf) (h : reg.Sound) (hO : Foreign O pi.bdf)
    (hreg : reg.ranges = O ∪ pi.decoded) (hidx : idx ≤ pciBarmax)
    (hmem : (pi.bar idx).type.isMem = true)
    (hdisj : (O ∪ (pi.setBarAddr idx addr).decoded).PairwiseDisjoint MemRange.addresses) :
    ∃ reg₁ reg₂, modifyIfDecoding (memen pi) reg pi idx false = .ok reg₁ ∧
      modifyIfDecoding (memen pi) reg₁ (pi.setBarAddr idx addr) idx true = .ok reg₂ ∧
      reg₂.Sound ∧ reg₂.ranges = O ∪ (pi.setBarAddr idx addr).decoded := by
  cases hen : memen pi with
  | false =>
    have hempty : (pi.setBarAddr idx addr).decoded = ∅ := PciDev.decoded_of_not_memen hen
    rw [PciDev.decoded_of_not_memen hen] at hreg
    rw [hempty]
    exact ⟨reg, reg, rfl, rfl, h, hreg⟩
  | true =>
    have hmem' : ((pi.setBarAddr idx addr).bar idx).type.isMem = true := by
      rw [pi.setBarAddr_type, hmem]
    have hdec := decoded_setBarAddr addr hidx hmem hen
    have hold : barRange pi idx ∈ reg.ranges := by
      rw [hreg]
      exact .inr ⟨hen, idx, hidx, hmem, rfl⟩
    obtain ⟨reg₁, hun, h₁, hranges₁⟩ := unregister_mem h hmem hold
    -- what is left is foreign or another BAR of the device, and lies apart from the new range
    have hleft : reg₁.ranges = O ∪ (pi.decoded \ {barRange pi idx}) := by
      have hnot : barRange pi idx ∉ O := hO pi idx rfl
      rw [hranges₁, hreg, Set.union_sdiff_distrib, Set.sdiff_singleton_eq_self hnot]
    rw [hdec] at hdisj ⊢
    have hfresh : ∀ r ∈ reg₁.ranges,
        Disjoint r.addresses (barRange (pi.setBarAddr idx addr) idx).addresses := by
      rw [hleft]
      rintro r (hr | ⟨hr, hne⟩)
      · refine hdisj (.inl hr) (.inr (.inl rfl)) fun heq => ?_
        exact hO (pi.setBarAddr idx addr) idx rfl (heq ▸ hr)
      · refine hdisj (.inr (.inr ⟨hr, hne⟩)) (.inr (.inl rfl)) fun heq => ?_
        obtain ⟨-, i, -, -, rfl⟩ := hr
        obtain ⟨-, rfl⟩ := barRange_inj heq
        exact hne rfl
    obtain ⟨reg₂, hre, h₂, hranges₂⟩ := register_fresh h₁ (hwf'.aligned idx hmem') hmem' hfresh
    refine ⟨reg₁, reg₂, hun, hre, h₂, ?_⟩
    rw [hranges₂, hleft, Set.union_insert]

/-- **The mirror is kept exactly where the ranges lie apart.** -/
theorem WriteKind.mirror (hk : WriteKind T pi after f) (hwf : pi.Wf) (h : reg.Sound)
    (hO : Foreign O pi.bdf) (hreg : reg.ranges = O ∪ pi.decoded) :
    (∃ reg' pi', f reg = .ok (reg', pi') ∧ reg'.Sound ∧ reg'.ranges = O ∪ pi'.decoded) ↔
      (O ∪ after.decoded).PairwiseDisjoint MemRange.addresses := by
  constructor
  · rintro ⟨reg', pi', hr, h', hreg'⟩
    rw [← (hk.sameDecode hr).1.decoded, ← hreg']
    exact h'.mmio.ranges_disjoint
  intro hdisj
  cases hk with
  | keep pj hafter hpj _ hf =>
    refine ⟨reg, pj, hf reg, h, ?_⟩
    rw [hpj.decoded, hreg]
  | move idx addr pj hidx hmem hafter hpj hwfj hf =>
    subst hafter
    have hwf' : (pi.setBarAddr idx addr).Wf := by
      refine hwf.setBarAddr fun _ => ?_
      have hmem' : ((pi.setBarAddr idx addr).bar idx).type.isMem = true := by
        rw [pi.setBarAddr_type, hmem]
      have hal := (hwfj.aligned idx (by rw [hpj.type idx, hmem'])).2
      rwa [hpj.bar idx hmem', pi.setBarAddr_bar_self] at hal
    obtain ⟨reg₁, reg₂, hun, hre, h₂, hranges⟩ :=
      modifyIfDecoding_move hwf' h hO hreg hidx hmem hdisj
    refine ⟨reg₂, pj, ?_, h₂, by rw [hpj.decoded, hranges]⟩
    rw [hf, hun]
    refine (Except.bind_ok rfl).trans ?_
    rw [hre]
    rfl
  | command pj changed hbdf hbar hpj _ hchanged hf =>
    have hal : ∀ i, (after.bar i).type.isMem = true → (after.bar i).Aligned := by
      rw [hbar]
      exact hwf.aligned
    suffices hbars : ∃ reg', cmdstsBars after changed (List.range (pciBarmax + 1)) reg = .ok reg' ∧
        reg'.Sound ∧ reg'.ranges = O ∪ after.decoded by
      obtain ⟨reg', hbars, h', hranges⟩ := hbars
      refine ⟨reg', pj, ?_, h', by rw [hpj.decoded, hranges]⟩
      rw [hf, hbars]
      rfl
    cases hen : memen pi <;> cases hen' : memen after <;> rw [hen, hen'] at hchanged
    · refine ⟨reg, cmdstsBars_unchanged hchanged _ reg, h, ?_⟩
      rw [hreg, PciDev.decoded_of_not_memen hen, PciDev.decoded_of_not_memen hen']
    · rw [PciDev.decoded_of_not_memen hen, Set.union_empty] at hreg
      rw [PciDev.decoded_of_memen hen', ← hreg] at hdisj ⊢
      refine cmdstsBars_register_fresh hal hchanged hen' _ reg h List.nodup_range ?_ hdisj
      intro i _
      rw [hreg]
      exact hO after i hbdf
    · rw [PciDev.decoded_of_memen hen, ← barRanges_congr hbdf hbar] at hreg
      obtain ⟨reg', hbars, h', hranges⟩ := cmdstsBars_unregister_mem hchanged hen' _ reg h
        List.nodup_range (hreg ▸ Set.subset_union_right)
      refine ⟨reg', hbars, h', ?_⟩
      have hdisjoint : Disjoint O (barRanges after (List.range (pciBarmax + 1))) := by
        refine Set.disjoint_left.2 ?_
        rintro r hr ⟨i, -, -, rfl⟩
        exact hO after i hbdf hr
      rw [hranges, hreg, PciDev.decoded_of_not_memen hen', Set.union_empty,
        Set.union_sdiff_right, hdisjoint.sdiff_eq_left]
    · refine ⟨reg, cmdstsBars_unchanged hchanged _ reg, h, ?_⟩
      rw [hreg, PciDev.decoded_of_memen hen, PciDev.decoded_of_memen hen',
        barRanges_congr hbdf hbar]

end Device

end DeviceModel
