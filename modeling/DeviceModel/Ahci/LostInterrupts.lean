import DeviceModel.Ahci.Exec
import DeviceModel.Ahci.Interrupts

/-!
# The interrupt that is lost

The guest's interrupt controller has one bit for the line, which `pci_irq_assert` sets
and a claim clears. A handler claims, reads `IS`, reads and clears `PxIS`, and clears
`IS`. What completes between the last two finds the line raised, and sets no bit.
-/

namespace DeviceModel

/-! ## The guest's handler -/

/-- Where the handler is. -/
inductive AhciHandler : Type where
  | idle
  | claimed
  /-- `IS` has been read -/
  | readIs (v : U32)
  /-- `IS` and `PxIS` have been read -/
  | readPortIs (v w : U32)
  /-- `PxIS` has been cleared, or port 0 has no interrupt -/
  | cleared (v : U32)
  deriving DecidableEq, Repr

/-- The controller and the handler. -/
structure AhciIrq where
  sys : AhciSys
  handler : AhciHandler

/-- What can happen. -/
inductive AhciIrqLabel : Type where
  | dev (l : AhciLabel)
  | claim
  | readIs
  | readPortIs
  | skipPort
  | writePortIs
  | writeIs

/-- The event keeps MSI disabled and INTx permitted. -/
def AhciLabel.Permits : AhciLabel → Prop
  | .config command msi msix =>
    (msi.enabled || msix || (command &&& pcimCmdINTxDIS) != 0) = false
  | _ => True

namespace Ahci

/-- The guest claims the interrupt. -/
def claim (s : Ahci) : Ahci :=
  { s with sc := { s.sc with
      ascPi := { s.sc.ascPi with plic := { s.sc.ascPi.plic with pending := false } } } }

/-- The pending bit of the guest's interrupt controller. -/
def plicPending (s : Ahci) : Bool := s.sc.ascPi.plic.pending

end Ahci

/-- The registers of `BAR` 5 that the handler accesses: `IS`, and `PxIS` of port 0. -/
def ahciIsOffset : U64 := 0x08#64
def ahciPortIsOffset : U64 := 0x110#64

/-- One event. -/
inductive AhciIrqStep : AhciIrq → AhciIrqLabel → AhciIrq → Prop where
  | dev {s : AhciIrq} {l : AhciLabel} {t : AhciSys} : l.Permits → AhciStep s.sys l t →
      AhciIrqStep s (.dev l) { s with sys := t }
  | claim {s : AhciIrq} : s.handler = .idle → s.sys.dev.plicPending = true →
      AhciIrqStep s .claim ⟨{ s.sys with dev := s.sys.dev.claim }, .claimed⟩
  | readIs {s : AhciIrq} {d : Ahci} {v : U32} : s.handler = .claimed → s.sys.serving = false →
      pciAhciRead s.sys.dev 5 ahciIsOffset 4 = .ok (d, v) →
      AhciIrqStep s .readIs ⟨{ s.sys with dev := d }, .readIs v⟩
  | readPortIs {s : AhciIrq} {d : Ahci} {v w : U32} : s.handler = .readIs v →
      v &&& 1 ≠ 0 → s.sys.serving = false →
      pciAhciRead s.sys.dev 5 ahciPortIsOffset 4 = .ok (d, w) →
      AhciIrqStep s .readPortIs ⟨{ s.sys with dev := d }, .readPortIs v w⟩
  | skipPort {s : AhciIrq} {v : U32} : s.handler = .readIs v → v &&& 1 = 0 →
      AhciIrqStep s .skipPort { s with handler := .cleared v }
  | writePortIs {s : AhciIrq} {d : Ahci} {v w : U32} (fuel : Nat) (M : Nat → Mem) :
      s.handler = .readPortIs v w → s.sys.serving = false →
      pciAhciWrite fuel M s.sys.dev 5 ahciPortIsOffset (w.setWidth 64) = .ok d →
      AhciIrqStep s .writePortIs ⟨{ s.sys with dev := d }, .cleared v⟩
  | writeIs {s : AhciIrq} {d : Ahci} {v : U32} (fuel : Nat) (M : Nat → Mem) :
      s.handler = .cleared v → s.sys.serving = false →
      pciAhciWrite fuel M s.sys.dev 5 ahciIsOffset (v.setWidth 64) = .ok d →
      AhciIrqStep s .writeIs ⟨{ s.sys with dev := d }, .idle⟩

/-- After `pci_ahci_init`, with no handler running. -/
def AhciIrqInitial (s : AhciIrq) : Prop := AhciInitial s.sys ∧ s.handler = .idle

/-- What is in `IS` after the handler has written `v` to it. -/
def Ahci.isLeft (s : Ahci) (v : U32) : U32 := s.sc.is &&& ~~~v ||| ahciPortsIs s.port

/-- When the handler clears `IS`, either nothing is left in it, or interrupts are disabled, or
the pending bit has been set since the claim. -/
def AhciIrq.Acks (s : AhciIrq) : AhciIrqLabel → Prop
  | .writeIs => ∀ v, s.handler = .cleared v →
      s.sys.dev.isLeft v = 0 ∨ s.sys.dev.sc.ghc &&& ahciGhcIE = 0 ∨ s.sys.dev.plicPending = true
  | _ => True

/-- No handler runs, the line is raised, and the handler will not run again. -/
def AhciIrq.Lost (s : AhciIrq) : Prop :=
  s.handler = .idle ∧ s.sys.dev.sc.lintr = true ∧ s.sys.dev.plicPending = false

/-! ## What keeps the pending bit -/

/-- INTx is permitted and, if `wake` holds, a raised line has its bit pending. -/
def Wakes (wake : Prop) (sc : AhciSoftc) : Prop :=
  pciLintrPermitted sc.ascPi = true ∧ (wake → sc.lintr = true → sc.ascPi.plic.pending = true)

/-- Raising a line that is not raised sets the bit. -/
theorem raised_pending {sc : AhciSoftc} (hflag : sc.Flagged) (hlow : sc.lintr = false)
    (hperm : pciLintrPermitted sc.ascPi = true) :
    (pciLintrAssert sc.ascPi).plic.pending = true := by
  refine (pciLintrAssert_plic ?_ hperm).2
  by_contra hne
  have hl := hflag.2 hne
  rw [hlow] at hl
  cases hl

theorem wakes_kept (wake : Prop) : AhciSoftc.HostKept (Wakes wake) where
  raises := by
    intro sc sc' hflag hk hr
    cases hr with
    | keeps => exact hk
    | raises _ hlow =>
      exact ⟨(pciLintrAssert_permitted _).trans hk.1, fun _ _ => raised_pending hflag hlow hk.1⟩
  lower := by
    intro sc hk
    rw [AhciSoftc.lower]
    split
    · exact ⟨(pciLintrDeassert_permitted _).trans hk.1, fun _ hl => by cases hl⟩
    · exact hk
  mtx := fun _ hk => hk
  regs := fun _ _ hk => hk

theorem Ahci.SignalsDev.imp {K K' : AhciSoftc → Prop} {s : Ahci} (h : s.SignalsDev K)
    (himp : K s.sc → K' s.sc) : s.SignalsDev K' :=
  ⟨h.tracked, h.signals.number, h.signals.msi, h.signals.level, himp h.signals.kept⟩

/-! ## The last write of the handler -/

/-- What the write to `IS` does. -/
theorem pciAhciWrite_is {s t : Ahci} {fuel : Nat} {M : Nat → Mem} {v : U32}
    (h : pciAhciWrite fuel M s 5 ahciIsOffset (v.setWidth 64) = .ok t) :
    t = (Ahci.unlockMtx { s.lockMtx with
      sc := ahciGenerateIntr { s.lockMtx.sc with is := s.sc.is &&& ~~~v } s.port v }) := by
  have hhost : pciAhciWriteBody fuel M s.lockMtx ahciIsOffset (v.setWidth 64) =
      .ok (pciAhciHostWrite s.lockMtx ahciIsOffset (v.setWidth 64)) := by
    rw [pciAhciWriteBody, if_pos (by decide)]
  have hwidth : (v.setWidth 64 : U64).setWidth 32 = v := by
    rw [BitVec.setWidth_setWidth_of_le _ (by decide), BitVec.setWidth_eq]
  have hwrite : pciAhciHostWrite s.lockMtx ahciIsOffset (v.setWidth 64) =
      { s.lockMtx with
        sc := ahciGenerateIntr { s.lockMtx.sc with is := s.sc.is &&& ~~~v } s.port v } := by
    rw [pciAhciHostWrite, if_neg (by decide), if_pos (by decide), hwidth]
    rfl
  rw [pciAhciWrite] at h
  obtain ⟨_, -, h⟩ := Except.bind_eq_ok.1 h
  obtain ⟨_, -, h⟩ := Except.bind_eq_ok.1 h
  rw [hhost, hwrite] at h
  cases h
  rfl

/-- `IS` is empty where nothing enabled is left in it. -/
theorem isLeft_ne_zero {s : Ahci} {K : AhciSoftc → Prop} (h : s.SignalsDev K) {v : U32}
    (hleft : s.isLeft v ≠ 0) : s.sc.is ≠ 0 := by
  intro hz
  have hports : ahciPortsIs s.port = 0 := by
    have hone : (s.port 0).is &&& (s.port 0).ie = 0 := by
      by_contra hne
      have hbit := h.signals.level.port hne
      have hzero : s.sc.is &&& 1#32 <<< (s.port 0).port = 0 := by
        rw [hz]
        exact BitVec.zero_and
      exact hbit hzero
    have hnone : ∀ i, (s.port i).is &&& (s.port i).ie = 0 := by
      intro i
      by_cases hi : i = 0
      · rw [hi]
        exact hone
      · rw [h.tracked.silent i hi]
        exact BitVec.zero_and
    rw [ahciPortsIs]
    simp only [hnone, ne_eq, not_true_eq_false, if_false]
    rfl
  refine hleft ?_
  rw [Ahci.isLeft, hports, hz]
  simp

/-- **The write to `IS`** leaves the line raised exactly where something is left and interrupts
are enabled, and it never sets the pending bit. -/
theorem writeIs_spec {s t : Ahci} {K : AhciSoftc → Prop} (h : s.SignalsDev K) {fuel : Nat}
    {M : Nat → Mem} {v : U32}
    (hw : pciAhciWrite fuel M s 5 ahciIsOffset (v.setWidth 64) = .ok t) :
    (t.sc.lintr = true ↔ s.sc.ghc &&& ahciGhcIE ≠ 0 ∧ s.isLeft v ≠ 0) ∧
      (t.sc.lintr = true → t.plicPending = s.plicPending) := by
  have hmsi : pciMsiMaxmsgnum s.sc.ascPi = 0 := h.signals.msi
  have hflag : s.sc.Flagged := h.signals.level.line
  rw [pciAhciWrite_is hw]
  have hlintr : ∀ sc : AhciSoftc, sc = ahciGenerateIntr
      { s.lockMtx.sc with is := s.sc.is &&& ~~~v } s.port v →
      (sc.lintr = true ↔ s.sc.ghc &&& ahciGhcIE ≠ 0 ∧ s.isLeft v ≠ 0) ∧
        (sc.lintr = true → sc.ascPi.plic.pending = s.sc.ascPi.plic.pending) := by
    rintro sc rfl
    rw [ahciGenerateIntr]
    split
    · next hnone =>
      have hlow := (@AhciSoftc.lower_flagged
        { s.lockMtx.sc with is := s.sc.is &&& ~~~v ||| ahciPortsIs s.port } hflag).2
      rw [hlow]
      refine ⟨⟨fun hf => (by cases hf), ?_⟩, fun hf => by cases hf⟩
      rintro ⟨hie, hne⟩
      rcases hnone with hz | hz
      · exact absurd hz hne
      · exact absurd hz hie
    · next hsome =>
      rw [not_or] at hsome
      have hmsi' : pciMsiMaxmsgnum s.lockMtx.sc.ascPi = 0 := hmsi
      -- the line was raised before the write, so raising it does nothing
      have hraised : s.lockMtx.sc.lintr = true :=
        h.signals.level.global.2 ⟨hsome.2, isLeft_ne_zero h hsome.1⟩
      simp only [hmsi', if_true, AhciSoftc.raise, hraised]
      exact ⟨⟨fun _ => ⟨hsome.2, hsome.1⟩, fun _ => trivial⟩, fun _ => rfl⟩
  have hgen := hlintr _ rfl
  exact hgen

/-! ## Runs -/

section

variable {s t : AhciIrq} {l : AhciIrqLabel}

/-- While no handler runs, a raised line has its bit pending. -/
def AhciIrq.Awake (s : AhciIrq) : Prop := s.sys.dev.SignalsDev (Wakes (s.handler = .idle))

/-- A step of the controller, with the handler where it is. -/
theorem AhciStep.awake {wake : Prop} {s t : AhciSys} {l : AhciLabel}
    (hs : s.dev.SignalsDev (Wakes wake)) (hpermits : l.Permits) (h : AhciStep s l t) :
    t.dev.SignalsDev (Wakes wake) := by
  refine h.signals (wakes_kept wake) hs ?_
  rintro command msi msix rfl
  have hoff : (msi.enabled || msix || (command &&& pcimCmdINTxDIS) != 0) = false := hpermits
  have hmsi : msi.enabled = false := by
    rw [Bool.or_eq_false_iff, Bool.or_eq_false_iff] at hoff
    exact hoff.1.1
  refine hs.signals.config hmsi ⟨?_, fun hwake hl => ?_⟩
  · refine (pciLintrUpdate_permitted _).trans ?_
    rw [pciLintrPermitted]
    simp only [hoff, Bool.not_false]
  · exact pciLintrUpdate_plic_pending (hs.signals.kept.2 hwake hl)

/-- One event: the handler's write to `IS` decides. -/
theorem AhciIrqStep.awake (hs : s.Awake) (h : AhciIrqStep s l t) :
    (s.Acks l → t.Awake) ∧ (¬ s.Acks l → t.Lost) := by
  have hasleep : ∀ wake : Prop, ¬ wake → s.sys.dev.SignalsDev (Wakes wake) := by
    intro wake hno
    exact hs.imp fun hk => ⟨hk.1, fun hw => absurd hw hno⟩
  cases h with
  | dev hpermits hstep =>
    exact ⟨fun _ => AhciStep.awake hs hpermits hstep, fun hno => absurd trivial hno⟩
  | claim hidle hpending =>
    refine ⟨fun _ => ?_, fun hno => absurd trivial hno⟩
    have hsig := hs.signals
    exact ⟨hs.tracked.softc _, hsig.number, hsig.msi,
      ⟨⟨hsig.level.line, hsig.level.global⟩, hsig.level.isPort, hsig.level.port⟩, hsig.kept.1,
      fun hno => (nomatch hno)⟩
  | readIs hclaimed hidle hread =>
    exact ⟨fun _ => AhciStep.awake (hasleep _ fun hno => (nomatch hno)) (l := .read 5 _ 4) trivial
      (.read 5 _ 4 hidle hread), fun hno => absurd trivial hno⟩
  | readPortIs hat hport hidle hread =>
    exact ⟨fun _ => AhciStep.awake (hasleep _ fun hno => (nomatch hno)) (l := .read 5 _ 4) trivial
      (.read 5 _ 4 hidle hread), fun hno => absurd trivial hno⟩
  | skipPort hat hport =>
    exact ⟨fun _ => hasleep _ fun hno => (nomatch hno), fun hno => absurd trivial hno⟩
  | writePortIs fuel M hat hidle hwrite =>
    exact ⟨fun _ => AhciStep.awake (hasleep _ fun hno => (nomatch hno)) (l := .write M 5 _ _) trivial
      (.write fuel M 5 _ _ hidle hwrite), fun hno => absurd trivial hno⟩
  | @writeIs d v fuel M hat hidle hwrite =>
    obtain ⟨hlintr, hpending⟩ := writeIs_spec hs hwrite
    have hnext : d.SignalsDev (Wakes False) := by
      have hstep := AhciStep.awake (hasleep False id) (l := .write M 5 _ _) trivial
        (AhciStep.write fuel M 5 _ _ hidle hwrite)
      exact hstep
    constructor
    · intro hacks
      refine hnext.imp fun hk => ⟨hk.1, fun _ hl => ?_⟩
      obtain ⟨hie, hne⟩ := hlintr.1 hl
      rcases hacks v hat with hz | hz | hp
      · exact absurd hz hne
      · exact absurd hz hie
      · exact (hpending hl).trans hp
    · intro hno
      have hall : s.sys.dev.isLeft v ≠ 0 ∧ s.sys.dev.sc.ghc &&& ahciGhcIE ≠ 0 ∧
          ¬ s.sys.dev.plicPending = true := by
        rw [AhciIrq.Acks] at hno
        simp only [not_forall, not_or] at hno
        obtain ⟨v', hat', hne, hie, hp⟩ := hno
        rw [hat] at hat'
        cases hat'
        exact ⟨hne, hie, hp⟩
      have hl : d.sc.lintr = true := hlintr.2 ⟨hall.2.1, hall.1⟩
      exact ⟨rfl, hl, (hpending hl).trans (Bool.eq_false_iff.2 hall.2.2)⟩

/-- **No interrupt is lost** in a run whose handlers leave nothing behind: where no handler runs
and the line is raised, the bit is pending. A handler that does leave something behind loses the
interrupt. -/
theorem ahci_interrupt_pending
    (h : Reaches (Guarded AhciIrqStep AhciIrq.Acks) AhciIrqInitial s) :
    (s.handler = .idle → s.sys.dev.sc.lintr = true → s.sys.dev.plicPending = true) ∧
      ∀ l t, AhciIrqStep s l t → ¬ s.Acks l → t.Lost := by
  have hperm : pciLintrPermitted pciDevinstInit = true := by decide
  have hawake : s.Awake := by
    refine h.invariant (I := AhciIrq.Awake) ?_ fun s l t hs hstep => (hstep.1.awake hs).1 hstep.2
    rintro s ⟨hinit, -⟩
    exact hinit.signals (wakes_kept _) fun ctx => ⟨hperm, fun _ hl => (nomatch hl)⟩
  exact ⟨hawake.signals.kept.2, fun l t hstep => (hstep.awake hawake).2⟩

end

/-! ## A run that loses an interrupt -/

namespace AhciIrq

/-- The outcome of one event that is no write to configuration space. -/
def exec (fuel : Nat) (s : AhciIrq) : AhciIrqLabel → Option AhciIrq
  | .dev (.config _ _ _) => none
  | .dev l => (s.sys.exec fuel l).map fun t => { s with sys := t }
  | .claim =>
    if s.handler = .idle ∧ s.sys.dev.plicPending = true then
      some ⟨{ s.sys with dev := s.sys.dev.claim }, .claimed⟩
    else none
  | .readIs =>
    if s.handler = .claimed ∧ s.sys.serving = false then
      (pciAhciRead s.sys.dev 5 ahciIsOffset 4).toOption.map fun r =>
        ⟨{ s.sys with dev := r.1 }, .readIs r.2⟩
    else none
  | .readPortIs =>
    match s.handler with
    | .readIs v =>
      if v &&& 1 ≠ 0 ∧ s.sys.serving = false then
        (pciAhciRead s.sys.dev 5 ahciPortIsOffset 4).toOption.map fun r =>
          ⟨{ s.sys with dev := r.1 }, .readPortIs v r.2⟩
      else none
    | _ => none
  | .skipPort =>
    match s.handler with
    | .readIs v => if v &&& 1 = 0 then some { s with handler := .cleared v } else none
    | _ => none
  | .writePortIs =>
    match s.handler with
    | .readPortIs v w =>
      if s.sys.serving = false then
        (pciAhciWrite fuel (fun _ => s.sys.dev.blk.mem) s.sys.dev 5 ahciPortIsOffset
          (w.setWidth 64)).toOption.map fun d => ⟨{ s.sys with dev := d }, .cleared v⟩
      else none
    | _ => none
  | .writeIs =>
    match s.handler with
    | .cleared v =>
      if s.sys.serving = false then
        (pciAhciWrite fuel (fun _ => s.sys.dev.blk.mem) s.sys.dev 5 ahciIsOffset
          (v.setWidth 64)).toOption.map fun d => ⟨{ s.sys with dev := d }, .idle⟩
      else none
    | _ => none

/-- The outcome of a list of events. -/
def execAll (fuel : Nat) : List AhciIrqLabel → AhciIrq → Option AhciIrq
  | [], s => some s
  | l :: ls, s => (s.exec fuel l).bind (execAll fuel ls)

/-- What is computed is a step. -/
theorem exec_step {fuel : Nat} {s t : AhciIrq} {l : AhciIrqLabel} (h : s.exec fuel l = some t) :
    AhciIrqStep s l t := by
  cases l with
  | dev l =>
    cases l with
    | config => cases h
    | guest mem stack =>
      cases h
      exact .dev trivial (.guest mem stack)
    | write | read | enter | serve | leave =>
      obtain ⟨u, hu, rfl⟩ := Option.map_eq_some_iff.1 h
      exact .dev trivial (AhciSys.exec_step hu)
  | claim =>
    rw [exec] at h
    split at h
    · next hok =>
      cases h
      exact .claim hok.1 hok.2
    · cases h
  | readIs =>
    rw [exec] at h
    split at h
    · next hok =>
      obtain ⟨r, hr, rfl⟩ := Option.map_eq_some_iff.1 h
      exact .readIs hok.1 hok.2 (Except.toOption_eq_some.1 hr)
    · cases h
  | readPortIs =>
    rw [exec] at h
    split at h
    · next hat =>
      split at h
      · next hok =>
        obtain ⟨r, hr, rfl⟩ := Option.map_eq_some_iff.1 h
        exact .readPortIs hat hok.1 hok.2 (Except.toOption_eq_some.1 hr)
      · cases h
    · cases h
  | skipPort =>
    rw [exec] at h
    split at h
    · next hat =>
      split at h
      · next hok =>
        cases h
        exact .skipPort hat hok
      · cases h
    · cases h
  | writePortIs =>
    rw [exec] at h
    split at h
    · next hat =>
      split at h
      · next hidle =>
        obtain ⟨d, hd, rfl⟩ := Option.map_eq_some_iff.1 h
        exact .writePortIs fuel _ hat hidle (Except.toOption_eq_some.1 hd)
      · cases h
    · cases h
  | writeIs =>
    rw [exec] at h
    split at h
    · next hat =>
      split at h
      · next hidle =>
        obtain ⟨d, hd, rfl⟩ := Option.map_eq_some_iff.1 h
        exact .writeIs fuel _ hat hidle (Except.toOption_eq_some.1 hd)
      · cases h
    · cases h

theorem execAll_reaches {fuel : Nat} {ok : AhciIrq → AhciIrqLabel → Prop}
    {ls : List AhciIrqLabel} (hok : ∀ s, ∀ l ∈ ls, ok s l) :
    ∀ {s t : AhciIrq}, Reaches (Guarded AhciIrqStep ok) AhciIrqInitial s →
      s.execAll fuel ls = some t → Reaches (Guarded AhciIrqStep ok) AhciIrqInitial t :=
  Reaches.execAll (fun _ => rfl) (fun _ _ _ => rfl)
    fun s _ l hl hu => ⟨exec_step hu, hok s l hl⟩

end AhciIrq

/-- A flush completes. -/
def raisedRun : List AhciIrqLabel :=
  let M : Nat → Mem := fun _ => commandMem 0xe7
  (startPort M ++ completeOne M 0x1).map .dev

/-- The handler runs, and another flush completes between its last two writes. -/
def lostRun : List AhciIrqLabel :=
  raisedRun ++ [.claim, .readIs, .readPortIs, .writePortIs] ++
    (completeOne (fun _ => commandMem 0xe7) 0x2).map .dev ++ [.writeIs]

/-- Where a run from the start ends. -/
def irqEnd (ls : List AhciIrqLabel) : Option AhciIrq :=
  AhciIrq.execAll 3 ls ⟨ahciBlank false, .idle⟩

/-- The handler of this run leaves an interrupt behind that is never delivered. -/
theorem ahci_interrupt_lost : ∃ s, Reaches AhciIrqStep AhciIrqInitial s ∧ s.Lost := by
  have hlost : (irqEnd lostRun).any (fun s => decide (s.handler = .idle) && s.sys.dev.sc.lintr &&
      !s.sys.dev.plicPending) = true := by
    decide +kernel
  obtain ⟨s, hs, hend⟩ := (Option.any_eq_true _ _).1 hlost
  simp only [Bool.and_eq_true, decide_eq_true_eq, Bool.not_eq_true'] at hend
  have hreach := AhciIrq.execAll_reaches (fun _ _ _ => trivial)
    (Reaches.start ⟨ahciBlank_initial false, rfl⟩) hs
  exact ⟨s, hreach.of_guarded, hend.1.1, hend.1.2, hend.2⟩

/-- The interrupt of a command that has completed is pending. -/
theorem ahci_interrupt_pending_raised :
    ∃ s, irqEnd raisedRun = some s ∧ s.sys.dev.sc.lintr = true ∧ s.sys.dev.plicPending = true := by
  have hraised : (irqEnd raisedRun).any (fun s => decide (s.handler = .idle) &&
      s.sys.dev.sc.lintr) = true := by
    decide +kernel
  obtain ⟨s, hs, hend⟩ := (Option.any_eq_true _ _).1 hraised
  simp only [Bool.and_eq_true, decide_eq_true_eq] at hend
  have hok : ∀ s : AhciIrq, ∀ l ∈ raisedRun, s.Acks l := by
    intro s l hl
    obtain ⟨l, -, rfl⟩ := List.mem_map.1 hl
    exact trivial
  have hreach := AhciIrq.execAll_reaches hok (.start ⟨ahciBlank_initial false, rfl⟩) hs
  exact ⟨s, hs, hend.2, (ahci_interrupt_pending hreach).1 hend.1 hend.2⟩

end DeviceModel
