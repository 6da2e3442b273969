import DeviceModel.Ahci.Ports

/-!
# The two levels of interrupt status

With MSI disabled `PxIS`, `IS`, the flag `lintr` and the state of the line agree at any
time. `ahci_port_intr` returns early where `IS` has the port's bit, and that is sound
because the flag then agrees with `IS` already.
-/

namespace DeviceModel

/-! ## The line -/

namespace AhciSoftc

/-- The flag says what the line does. -/
def Flagged (sc : AhciSoftc) : Prop := sc.lintr = true ↔ sc.ascPi.lintr.state ≠ .idle

/-- A property of the softc that the functions of a port keep. -/
structure Kept (K : AhciSoftc → Prop) : Prop where
  raises : ∀ {sc sc' : AhciSoftc}, sc.Flagged → K sc → sc.Raises sc' → K sc'
  mtx : ∀ {sc : AhciSoftc} (mtx : PthreadMutex), K sc → K { sc with mtx := mtx }

/-- And that a write to the controller's own registers keeps. -/
structure HostKept (K : AhciSoftc → Prop) : Prop extends Kept K where
  lower : ∀ {sc : AhciSoftc}, K sc → K sc.lower
  regs : ∀ {sc : AhciSoftc} (ghc is : U32), K sc → K { sc with ghc := ghc, is := is }

theorem hostKept_true : HostKept fun _ => True :=
  ⟨⟨fun _ _ _ => trivial, fun _ _ => trivial⟩, fun _ => trivial, fun _ _ _ => trivial⟩

variable {sc : AhciSoftc}

theorem lower_flagged (h : sc.Flagged) : sc.lower.Flagged ∧ sc.lower.lintr = false := by
  rw [AhciSoftc.lower]
  split
  · exact ⟨⟨fun hf => (nomatch hf), fun hne => absurd (pciLintrDeassert_state _) hne⟩, rfl⟩
  · next hl => exact ⟨h, Bool.eq_false_iff.2 hl⟩

theorem lower_maxmsgnum (sc : AhciSoftc) :
    pciMsiMaxmsgnum sc.lower.ascPi = pciMsiMaxmsgnum sc.ascPi := by
  rw [AhciSoftc.lower]
  split
  · rw [pciMsiMaxmsgnum, pciMsiMaxmsgnum, pciLintrDeassert_msi]
  · rfl

theorem lower_regs (sc : AhciSoftc) :
    sc.lower.is = sc.is ∧ sc.lower.ghc = sc.ghc ∧ sc.lower.mtx = sc.mtx := by
  rw [AhciSoftc.lower]
  split <;> exact ⟨rfl, rfl, rfl⟩

/-- Lowering the line where `IS` is empty or `IE` is clear. -/
theorem lower_line (h : sc.Flagged) (hnone : sc.is = 0 ∨ sc.ghc &&& ahciGhcIE = 0) :
    sc.lower.Line := by
  obtain ⟨hflag, hlow⟩ := lower_flagged h
  obtain ⟨his, hghc, -⟩ := lower_regs sc
  refine ⟨hflag, ?_⟩
  rw [hlow, his, hghc]
  constructor
  · exact fun hf => (nomatch hf)
  · rintro ⟨hie, hne⟩
    rcases hnone with hz | hz
    · exact absurd hz hne
    · exact absurd hz hie

/-- A write to configuration space that leaves MSI disabled. -/
theorem config_line (h : sc.Line) {command : BitVec 16} {msi : PciMsi} {msix : Bool}
    (hmsi : msi.enabled = false) :
    Line { sc with
      ascPi := pciLintrUpdate { sc.ascPi with
        command := command, msi := msi, msixEnabled := msix } } ∧
    pciMsiMaxmsgnum (pciLintrUpdate { sc.ascPi with
      command := command, msi := msi, msixEnabled := msix }) = 0 := by
  refine ⟨⟨h.line.trans (not_congr ?_), h.global⟩, ?_⟩
  · exact (pciLintrUpdate_idle
      { sc.ascPi with command := command, msi := msi, msixEnabled := msix }).symm
  · rw [pciMsiMaxmsgnum, pciLintrUpdate_msi]
    simp only [hmsi]
    rfl

end AhciSoftc

/-- The bit of a port with an enabled interrupt is computed. -/
theorem ahciPortsIsOf_bit {n : Nat} (ports : Nat → AhciPort) {i : Nat} (hi : i < n)
    (hn : n ≤ ahciMaxPorts) (h : (ports i).is &&& (ports i).ie ≠ 0) :
    (ahciPortsIsOf n ports).getLsbD i = true := by
  have hbit : (1#32 <<< i).getLsbD i = true := by
    have hslot := getLsbD_slotBit ⟨i, Nat.lt_of_lt_of_le hi hn⟩ ⟨i, Nat.lt_of_lt_of_le hi hn⟩
    rwa [decide_eq_true rfl] at hslot
  have hfold : ∀ (js : List Nat) (x : U32), x.getLsbD i = true ∨ i ∈ js →
      (js.foldl (fun is j => if (ports j).is &&& (ports j).ie ≠ 0 then is ||| 1#32 <<< j else is)
        x).getLsbD i = true := by
    intro js
    induction js with
    | nil =>
      rintro x (hx | hx)
      · exact hx
      · exact absurd hx List.not_mem_nil
    | cons j js ih =>
      intro x hx
      refine ih _ ?_
      rcases hx with hx | hx
      · left
        dsimp only
        split
        · rw [BitVec.getLsbD_or, hx, Bool.true_or]
        · exact hx
      · rcases List.mem_cons.1 hx with rfl | hx
        · left
          dsimp only
          rw [if_pos h, BitVec.getLsbD_or, hbit, Bool.or_true]
        · exact .inr hx
  exact hfold _ _ (.inr (List.mem_range.2 hi))

theorem portBit_ne_zero {x : U32} {i : Nat} (hi : i < ahciMaxPorts) (h : x.getLsbD i = true) :
    x &&& 1#32 <<< i ≠ 0 := by
  have hbit := or_portBit_ne_zero x hi
  have hsame : x ||| 1#32 <<< i = x := by
    refine slots_ext fun t => ?_
    have hslot := getLsbD_or_slotBit x ⟨i, hi⟩ t
    rw [slotBit] at hslot
    rw [hslot]
    by_cases ht : t = ⟨i, hi⟩
    · rw [ht, h, Bool.true_or]
    · rw [decide_eq_false ht, Bool.or_false]
  rwa [hsame] at hbit

section

variable {K : AhciSoftc → Prop} {n : Nat} {sc : AhciSoftc} {ports : Nat → AhciPort} {mask : U32}

/-- **`ahci_generate_intr`** makes the line follow `IS`, and `IS` the ports. -/
theorem ahciGenerateIntrOf_line (hmsi : pciMsiMaxmsgnum sc.ascPi = 0) (h : sc.Flagged) :
    (ahciGenerateIntrOf n sc ports mask).Line ∧
      (ahciGenerateIntrOf n sc ports mask).is = sc.is ||| ahciPortsIsOf n ports ∧
      pciMsiMaxmsgnum (ahciGenerateIntrOf n sc ports mask).ascPi = 0 := by
  rw [ahciGenerateIntrOf]
  split
  · next hnone =>
    exact ⟨AhciSoftc.lower_line h hnone, (AhciSoftc.lower_regs _).1,
      (AhciSoftc.lower_maxmsgnum _).trans hmsi⟩
  · next hsome =>
    rw [not_or] at hsome
    simp only [hmsi, if_true]
    exact ⟨AhciSoftc.raise_line h hsome.2 hsome.1, AhciSoftc.raise_is _,
      (AhciSoftc.raise_raises sc (ahciPortsIsOf n ports)).maxmsgnum.trans hmsi⟩

theorem ahciGenerateIntrOf_kept (hK : AhciSoftc.HostKept K)
    (hmsi : pciMsiMaxmsgnum sc.ascPi = 0) (h : sc.Flagged) (hk : K sc) :
    K (ahciGenerateIntrOf n sc ports mask) := by
  rw [ahciGenerateIntrOf]
  split
  · exact hK.lower (hK.regs sc.ghc _ hk)
  · simp only [hmsi, if_true]
    exact hK.raises h hk (AhciSoftc.raise_raises sc _)

end

/-! ## The port -/

/-- The levels agree for port `n`, MSI is disabled, and `K` holds of the softc. -/
structure Signals (n : Nat) (K : AhciSoftc → Prop) (c : PortCtx) : Prop where
  number : c.p.port = n
  msi : pciMsiMaxmsgnum c.sc.ascPi = 0
  level : c.sc.Level c.p.port c.p.ie c.p.is
  kept : K c.sc

namespace Signals

variable {n : Nat} {K : AhciSoftc → Prop} {c d : PortCtx}

theorem posts (hK : AhciSoftc.Kept K) (h : Signals n K c) (hport : d.p.port = c.p.port)
    (hie : d.p.ie = c.p.ie) (hp : c.sc.Posts c.p.port c.p.ie c.p.is d.sc d.p.is) : Signals n K d := by
  refine ⟨hport.trans h.number, hp.raises.maxmsgnum.trans h.msi, ?_, hK.raises h.level.line h.kept hp.raises⟩
  rw [hport, hie]
  exact hp.level h.msi h.level

theorem reports (hK : AhciSoftc.Kept K) (h : Signals n K c) (hr : Reports c d) : Signals n K d :=
  h.posts hK hr.port hr.ie hr.posts

theorem finished (h : Signals n K c) (slot : Slot) : Signals n K (ahciFinished c slot) := by
  rw [ahciFinished, ahciCheckStopped]
  split <;> exact ⟨h.number, h.msi, h.level, h.kept⟩

theorem issue (hK : AhciSoftc.Kept K) (h : Signals n K c) (slot : Slot)
    (fill : BlockifReq → Except Stop (AhciIoreq × BlockifReq)) (ncq : Bool) (op : Blockop) :
    IfReturns (Signals n K) (ahciIssue c slot fill ncq op) := by
  rw [ifReturns_iff]
  intro t ht
  obtain ⟨a, free, aior, breq, breq', -, -, hi⟩ := ahciIssue_issued ht
  exact h.posts hK hi.frame.port hi.frame.ie hi.posts

end Signals

section

variable {n : Nat} {K : AhciSoftc → Prop} {c : PortCtx} {slot : Slot} {cfis : U64}

theorem EndsWith.signals (hK : AhciSoftc.Kept K) {e : CmdEnd} {r : Except Stop PortCtx}
    (he : EndsWith c slot cfis e r) (h : Signals n K c) : IfReturns (Signals n K) r := by
  cases he with
  | fails ha | succeeds ha => exact h.reports hK ha.reports
  | trims ht => exact (h.reports hK ht.reports).finished slot
  | issues _ _ | aborts _ _ => exact h.issue hK slot _ _ _
  | readsNothing ha _ _ => exact (h.reports hK ha.reports).issue hK slot _ _ _

theorem Resumes.signals (hK : AhciSoftc.Kept K) {e : CallbackEnd}
    {r : Except Stop (PortCtx × Bool)} (he : Resumes c slot cfis e r) (h : Signals n K c) :
    IfReturns (fun r => Signals n K r.1) r := by
  cases he with
  | ends tfd hr hlog => exact (h.reports hK hr).finished slot
  | trims ht => exact (h.reports hK ht.reports).finished slot
  | overruns => exact trivial
  | issues _ => exact (h.issue hK slot _ _ _).bind fun t ht => ht
  | readsNothing ha _ => exact ((h.reports hK ha.reports).issue hK slot _ _ _).bind fun t ht => ht

/-- What the rules for invariants of the port ask for. -/
theorem signals_rules (hK : AhciSoftc.Kept K) : PortRules (Signals n K) where
  mem := fun _ h => ⟨h.number, h.msi, h.level, h.kept⟩
  regs := fun _ _ _ _ _ _ _ _ _ _ _ _ _ _ h => ⟨h.number, h.msi, h.level, h.kept⟩
  intr := by
    intro c is ie h
    have hraises := ahciPortIntr_raises c.sc { c.p with is := is, ie := ie }
    exact ⟨h.number, hraises.maxmsgnum.trans h.msi, ahciPortIntr_level h.msi h.level.toLine h.level.isPort,
      hK.raises h.level.line h.kept hraises⟩
  reset := fun _ h => h.reports hK (ahciPortReset_reports _).1
  visit := by
    intro busy c htracked h hvisits
    have hset : Signals n K { c with p := c.p.setCmdCcs } := ⟨h.number, h.msi, h.level, h.kept⟩
    have hends := ahciVisit_ends hvisits htracked.opened
    generalize ahciVisit c = r at hends ⊢
    generalize slotEnd _ _ = e at hends
    cases hends with
    | ignores => exact hset
    | control hr _ _ _ _ => exact hset.reports hK hr
    | command he => exact he.signals hK ⟨h.number, h.msi, h.level, h.kept⟩
  cancel := by
    intro c a as _ h _
    rw [ifReturns_iff]
    intro t ht
    obtain ⟨⟨blk, err⟩, -, ht⟩ := Except.bind_eq_ok.1 ht
    simp only [] at ht
    split at ht
    · cases ht
      exact ⟨h.number, h.msi, h.level, h.kept⟩
    · cases ht
      simp only [ahciReap, PortCtx.record]
      split <;> exact ⟨h.number, h.msi, h.level, h.kept⟩

theorem Signals.softc (hK : AhciSoftc.Kept K) (h : Signals n K c) (mtx : PthreadMutex) :
    Signals n K { c with sc := { c.sc with mtx := mtx } } :=
  ⟨h.number, h.msi, ⟨⟨h.level.line, h.level.global⟩, h.level.isPort, h.level.port⟩,
    hK.mtx mtx h.kept⟩

/-- **What `ahci_reset` does for a port**, once `IS` and the line are clear. -/
theorem ahciResetPort_signals (hK : AhciSoftc.Kept K) (hnumber : c.p.port = n)
    (hn : n < ahciMaxPorts) (hmsi : pciMsiMaxmsgnum c.sc.ascPi = 0) (hline : c.sc.Line)
    (hk : K c.sc) : Signals n K (ahciResetPort c) := by
  have hzero : (0 : U32) &&& 0 = 0 := by decide
  rw [← hnumber] at hn
  rw [ahciResetPort]
  exact Signals.reports hK (c := { c with p := { c.p with ie := 0, is := 0, cmd := _, sctl := 0 } })
    ⟨hnumber, hmsi, ⟨hline, hn, fun hne => absurd hzero hne⟩, hk⟩ (ahciPortReset_reports _).1

/-- **A request is served.** -/
theorem blockifServe_signals (hK : AhciSoftc.Kept K) (htracked : Tracked [] c)
    (h : Signals n K c) (fuel : Nat) (M : Nat → Mem) :
    IfReturns (fun t? => ∀ t, t? = some t → Signals n K t)
      (blockifServe (ahciClient fuel M) c) := by
  cases hpend : c.blk.bc.bcPendq with
  | nil =>
    rw [blockifServe_nil htracked.queue htracked.busyq hpend]
    exact fun t ht => (nomatch ht)
  | cons be q =>
    have hreap := htracked.reap hpend
    have hlock : Signals n K (serveEntry c be q).lockMtx :=
      Signals.softc hK (c := serveEntry c be q) ⟨h.number, h.msi, h.level, h.kept⟩ _
    have hctx : Signals n K (callbackCtx (serveEntry c be q).lockMtx be.beReq (serveErr c be)) := by
      rw [callbackCtx, ahciSetPrdbc]
      split <;> exact ⟨hlock.number, hlock.msi, hlock.level, hlock.kept⟩
    have hbody := (ahciIoreqBody_resumes (serveEntry c be q).lockMtx be.beReq (serveErr c be)).signals
      hK hctx
    rw [blockifServe_cons htracked.queue htracked.busyq hpend]
    refine ((signals_rules hK).callback _ hreap (Nat.le_refl 1) hbody fuel M).bind fun t ht => ?_
    obtain ⟨u, hu, rfl⟩ := ht
    rintro v ⟨⟩
    have hu' : Signals n K u.unlockMtx := hu.softc hK _
    exact ⟨hu'.number, hu'.msi, hu'.level, hu'.kept⟩

end

/-! ## The controller -/

/-- Requests are tracked, and the levels agree for port 0. -/
structure Ahci.SignalsDev (K : AhciSoftc → Prop) (s : Ahci) : Prop where
  tracked : s.TrackedDev
  signals : Signals 0 K (s.ctx 0)

section

variable {K : AhciSoftc → Prop} {s : Ahci}

/-- A port other than port 0 is reset. -/
theorem signals_resetPort_ne (hs : s.TrackedDev) (h : Signals 0 K (s.ctx 0)) {i : Nat} (hi : i ≠ 0) :
    Signals 0 K ((s.put i (ahciResetPort (s.ctx i))).ctx 0) := by
  obtain ⟨-, -, m, p, heq⟩ := ahciResetPort_closed (c := s.ctx i) (hs.closed i hi)
  rw [heq, Ahci.ctx_put_ne s _ hi.symm]
  exact ⟨h.number, h.msi, h.level, h.kept⟩

theorem trackedDev_resetPort (hs : s.TrackedDev) (i : Nat) :
    (s.put i (ahciResetPort (s.ctx i))).TrackedDev := by
  by_cases hi : i = 0
  · rw [hi]
    exact hs.put (ahciResetPort_tracked hs.tracked)
  · exact hs.put_closed hi (ahciResetPort_closed (hs.closed i hi))

/-- **`ahci_reset`** lowers the line, and clears `IS` and `PxIS`. -/
theorem ahciReset_signals (hK : AhciSoftc.HostKept K) (hs : s.TrackedDev)
    (hnumber : (s.port 0).port = 0) (hmsi : pciMsiMaxmsgnum s.sc.ascPi = 0) (hflag : s.sc.Flagged)
    (hk : K s.sc) : Signals 0 K ((ahciReset s).ctx 0) := by
  have hsc : ∀ is : List Nat, 0 ∉ is → ∀ s : Ahci, s.TrackedDev → Signals 0 K (s.ctx 0) →
      Signals 0 K ((is.foldl (fun s i => s.put i (ahciResetPort (s.ctx i))) s).ctx 0) := by
    intro is
    induction is with
    | nil => exact fun _ s _ h => h
    | cons i is ih =>
      intro hmem s hs h
      rw [List.mem_cons, not_or] at hmem
      exact ih hmem.2 _ (trackedDev_resetPort hs i) (signals_resetPort_ne hs h (Ne.symm hmem.1))
  have hrange : List.range ahciPorts = 0 :: [1, 2, 3, 4, 5] := rfl
  have hdev : Ahci.TrackedDev
      { s with sc := AhciSoftc.lower { s.sc with ghc := ahciGhcAE, is := 0 } } := hs.softc _
  have hline : (AhciSoftc.lower { s.sc with ghc := ahciGhcAE, is := 0 }).Line :=
    AhciSoftc.lower_line hflag (.inl rfl)
  rw [ahciReset, hrange, List.foldl_cons]
  refine hsc _ (by decide) _ (trackedDev_resetPort hdev 0) ?_
  rw [Ahci.ctx_put]
  exact ahciResetPort_signals hK.toKept hnumber (by decide) ((AhciSoftc.lower_maxmsgnum _).trans hmsi)
    hline (hK.lower (hK.regs ahciGhcAE 0 hk))

/-- **A write to the registers of the controller.** -/
theorem pciAhciHostWrite_signals (hK : AhciSoftc.HostKept K) (h : s.SignalsDev K)
    (offset value : U64) : Signals 0 K ((pciAhciHostWrite s offset value).ctx 0) := by
  have hport : (s.port 0).port = 0 := h.signals.number
  -- after `ahci_generate_intr`, whatever the write has done to `GHC` and `IS`
  have hgen : ∀ (ghc is : U32) (mask : U32), Signals 0 K (Ahci.ctx
      { s with sc := ahciGenerateIntr { s.sc with ghc := ghc, is := is } s.port mask } 0) := by
    intro ghc is mask
    have hk : K { s.sc with ghc := ghc, is := is } := hK.regs ghc is h.signals.kept
    obtain ⟨hline, his, hmsi⟩ := @ahciGenerateIntrOf_line ahciPorts
      { s.sc with ghc := ghc, is := is } s.port mask h.signals.msi h.signals.level.line
    rw [ahciGenerateIntrOf_ports] at hline his hmsi
    refine ⟨hport, hmsi, ⟨hline, h.signals.level.isPort, fun hne => ?_⟩,
      ahciGenerateIntrOf_kept hK h.signals.msi h.signals.level.line hk⟩
    have hbit : (is ||| ahciPortsIsOf ahciPorts s.port).getLsbD (s.port 0).port = true := by
      rw [BitVec.getLsbD_or, hport, ahciPortsIsOf_bit s.port (by decide) (by decide) hne, Bool.or_true]
    have hset := portBit_ne_zero h.signals.level.isPort hbit
    rw [← his] at hset
    exact hset
  rw [pciAhciHostWrite]
  split
  · split
    · exact ahciReset_signals hK h.tracked hport h.signals.msi h.signals.level.line h.signals.kept
    · exact hgen _ s.sc.is _
  · split
    · exact hgen s.sc.ghc _ _
    · exact h.signals

/-- **A register write.** -/
theorem pciAhciWrite_signals (hK : AhciSoftc.HostKept K) (h : s.SignalsDev K) (fuel : Nat)
    (M : Nat → Mem) (baridx : Nat) (offset value : U64) :
    IfReturns (fun t => Signals 0 K (t.ctx 0)) (pciAhciWrite fuel M s baridx offset value) := by
  have hlock : s.lockMtx.SignalsDev K := ⟨h.tracked.softc _, h.signals.softc hK.toKept _⟩
  rw [pciAhciWrite]
  refine Ensures.bind (Ensures.assert fun _ => trivial) fun _ _ => ?_
  refine Ensures.bind (Ensures.assert fun _ => trivial) fun _ _ => ?_
  exact ((signals_rules hK.toKept).writeBody hlock.tracked hlock.signals offset value
    (pciAhciHostWrite_signals hK hlock offset value) fuel M).bind fun t ht => ht.softc hK.toKept _

end

/-! ## Runs -/

section

variable {K : AhciSoftc → Prop} {s t : AhciSys} {l : AhciLabel}

/-- One event, but for a write to configuration space. -/
theorem AhciStep.signals (hK : AhciSoftc.HostKept K) (hs : s.dev.SignalsDev K) (h : AhciStep s l t)
    (hconfig : ∀ command msi msix, l = .config command msi msix →
      Signals 0 K ((s.dev.setConfig command msi msix).ctx 0)) : t.dev.SignalsDev K := by
  refine ⟨h.tracked hs.tracked, ?_⟩
  cases h with
  | write fuel M baridx offset value _ hw =>
    exact (pciAhciWrite_signals hK hs fuel M baridx offset value).of_ok hw
  | read baridx regoff size _ hr =>
    obtain ⟨_, -, hr⟩ := Except.bind_eq_ok.1 hr
    obtain ⟨_, -, hr⟩ := Except.bind_eq_ok.1 hr
    obtain ⟨_, -, hr⟩ := Except.bind_eq_ok.1 hr
    cases hr
    exact hs.signals.softc hK.toKept _
  | config command msi msix _ => exact hconfig command msi msix rfl
  | guest | enter | leave =>
    exact ⟨hs.signals.number, hs.signals.msi, hs.signals.level, hs.signals.kept⟩
  | serve fuel M _ hserve =>
    have hsignals := (blockifServe_signals hK.toKept hs.tracked.tracked hs.signals fuel M).of_ok hserve _ rfl
    rw [Ahci.ctx_put]
    exact hsignals

theorem AhciInitial.signals (hK : AhciSoftc.HostKept K) (h : AhciInitial s)
    (hk : ∀ ctx, K ⟨pciDevinstInit, ctx, pthreadMutexInit, 0, 0, false⟩) : s.dev.SignalsDev K := by
  refine ⟨h.tracked, ?_⟩
  obtain ⟨⟨ctx, base, atapi, ident, mem, stack, hdev⟩, -⟩ := h
  rw [hdev]
  refine ahciReset_signals hK (ahciOpened_tracked ctx base atapi ident mem stack) rfl rfl ?_ (hk ctx)
  exact ⟨fun hf => (nomatch hf), fun hne => absurd rfl hne⟩

end

/-- A write to configuration space that leaves MSI disabled. -/
theorem Signals.config {K : AhciSoftc → Prop} {s : Ahci} (h : Signals 0 K (s.ctx 0))
    {command : BitVec 16} {msi : PciMsi} {msix : Bool} (hmsi : msi.enabled = false)
    (hk : K (s.setConfig command msi msix).sc) :
    Signals 0 K ((s.setConfig command msi msix).ctx 0) := by
  obtain ⟨hline, hnone⟩ := AhciSoftc.config_line h.level.toLine hmsi
  exact ⟨h.number, hnone, ⟨hline, h.level.isPort, h.level.port⟩, hk⟩

/-- The event does not enable MSI. -/
def AhciLabel.MsiOff : AhciLabel → Prop
  | .config _ msi _ => msi.enabled = false
  | _ => True

theorem Reaches.signals {s : AhciSys}
    (h : Reaches (Guarded AhciStep fun _ l => l.MsiOff) AhciInitial s) :
    s.dev.SignalsDev fun _ => True := by
  refine h.invariant (fun _ hs => hs.signals AhciSoftc.hostKept_true fun _ => trivial) ?_
  rintro s l t hs ⟨hstep, hoff⟩
  refine hstep.signals AhciSoftc.hostKept_true hs ?_
  rintro command msi msix rfl
  exact hs.signals.config hoff trivial

/-- **The levels agree**, with one disk: with MSI disabled throughout, in every reachable state
the flag `lintr` says whether the line is requested, it is set exactly where `GHC` enables
interrupts and `IS` is not empty, and `IS` has the bit of every opened port with an enabled
interrupt. -/
theorem ahci_interrupt_levels {s : AhciSys}
    (h : Reaches (Guarded AhciStep fun _ l => l.MsiOff) AhciInitial s) :
    (s.dev.sc.lintr = true ↔ s.dev.sc.ascPi.lintr.state ≠ .idle) ∧
    (s.dev.sc.lintr = true ↔ s.dev.sc.ghc &&& ahciGhcIE ≠ 0 ∧ s.dev.sc.is ≠ 0) ∧
    ∀ i, (s.dev.port i).opened = true → (s.dev.port i).is &&& (s.dev.port i).ie ≠ 0 →
      s.dev.sc.is &&& 1#32 <<< i ≠ 0 := by
  have hs := h.signals
  refine ⟨hs.signals.level.line, hs.signals.level.global, ?_⟩
  intro i hopen hne
  by_cases hi : i = 0
  · rw [hi] at hne ⊢
    have hbit := hs.signals.level.port hne
    rwa [hs.signals.number] at hbit
  · rw [hs.tracked.closed i hi] at hopen
    cases hopen

end DeviceModel
