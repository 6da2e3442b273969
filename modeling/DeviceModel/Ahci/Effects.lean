import DeviceModel.Ahci.System

/-!
# What a command does to its port

Commands that are answered at once differ in the data they give and in nothing else:
they report to the guest (`Reports`), and their answer has one of two endings
(`Answers`). This file proves that of every frame and of every handler, so that an
invariant of the port is checked against the two relations and not against each
handler.
-/

namespace DeviceModel

/-! ## The line -/

namespace AhciSoftc

/-- Bits of `IS` are set, and the line may be raised. -/
inductive Raises (sc : AhciSoftc) : AhciSoftc → Prop where
  | keeps (bits : U32) : Raises sc { sc with is := sc.is ||| bits }
  | raises (bits : U32) : sc.lintr = false →
      Raises sc { sc with
        is := sc.is ||| bits, lintr := true, ascPi := pciLintrAssert sc.ascPi }

namespace Raises

variable {sc sc' sc'' : AhciSoftc}

theorem refl (sc : AhciSoftc) : sc.Raises sc := by
  have hkeeps := @Raises.keeps sc 0#32
  rwa [BitVec.or_zero] at hkeeps

theorem trans (h : sc.Raises sc') (h' : sc'.Raises sc'') : sc.Raises sc'' := by
  cases h with
  | keeps bits =>
    cases h' with
    | keeps bits' =>
      have hkeeps := @Raises.keeps sc (bits ||| bits')
      rwa [← BitVec.or_assoc] at hkeeps
    | raises bits' hl =>
      have hraises := @Raises.raises sc (bits ||| bits') hl
      rwa [← BitVec.or_assoc] at hraises
  | raises bits hl =>
    cases h' with
    | keeps bits' =>
      have hraises := @Raises.raises sc (bits ||| bits') hl
      rwa [← BitVec.or_assoc] at hraises
    | raises bits' hl' => cases hl'

theorem mtx (h : sc.Raises sc') : sc'.mtx = sc.mtx := by cases h <;> rfl

theorem vmctx (h : sc.Raises sc') : sc'.vmctx = sc.vmctx := by cases h <;> rfl

theorem is (h : sc.Raises sc') : ∃ bits, sc'.is = sc.is ||| bits := by
  cases h with
  | keeps bits | raises bits => exact ⟨bits, rfl⟩

end Raises

theorem raise_raises (sc : AhciSoftc) (bits : U32) :
    sc.Raises { sc with is := sc.is ||| bits }.raise := by
  rw [raise]
  split
  · exact .keeps bits
  · next h => exact .raises bits (Bool.eq_false_iff.2 h)

end AhciSoftc

theorem ahciPortIntr_raises (sc : AhciSoftc) (p : AhciPort) : sc.Raises (ahciPortIntr sc p) := by
  simp only [ahciPortIntr, pciGenerateMsi]
  repeat' split
  all_goals first
    | exact .refl sc
    | exact .keeps _
    | exact sc.raise_raises _

/-- The line is raised where `IS` and `GHC` say so. -/
structure AhciSoftc.Line (sc : AhciSoftc) : Prop where
  line : sc.lintr = true ↔ sc.ascPi.lintr.state ≠ .idle
  global : sc.lintr = true ↔ sc.ghc &&& ahciGhcIE ≠ 0 ∧ sc.is ≠ 0

/-- And `IS` has the bit of a port whose registers are `ie` and `is`, where it must. -/
structure AhciSoftc.Level (sc : AhciSoftc) (port : Nat) (ie is : U32) : Prop extends sc.Line where
  isPort : port < ahciMaxPorts
  port : is &&& ie ≠ 0 → sc.is &&& 1#32 <<< port ≠ 0

/-- What posting frames does to the softc and to `PxIS`. -/
structure AhciSoftc.Posts (sc : AhciSoftc) (port : Nat) (ie is : U32) (sc' : AhciSoftc) (is' : U32) :
    Prop where
  raises : sc.Raises sc'
  level : pciMsiMaxmsgnum sc.ascPi = 0 → sc.Level port ie is → sc'.Level port ie is'

namespace AhciSoftc

variable {sc sc' sc'' : AhciSoftc} {port : Nat} {ie is is' is'' : U32}

theorem Raises.maxmsgnum (h : sc.Raises sc') :
    pciMsiMaxmsgnum sc'.ascPi = pciMsiMaxmsgnum sc.ascPi := by
  cases h with
  | keeps => rfl
  | raises => rw [pciMsiMaxmsgnum, pciMsiMaxmsgnum, pciLintrAssert_msi]

namespace Posts

theorem refl (sc : AhciSoftc) (port : Nat) (ie is : U32) : sc.Posts port ie is sc is :=
  ⟨.refl sc, fun _ h => h⟩

theorem trans (h : sc.Posts port ie is sc' is') (h' : sc'.Posts port ie is' sc'' is'') :
    sc.Posts port ie is sc'' is'' :=
  ⟨h.raises.trans h'.raises, fun hmsi hl => h'.level (h.raises.maxmsgnum.trans hmsi) (h.level hmsi hl)⟩

theorem vmctx (h : sc.Posts port ie is sc' is') : sc'.vmctx = sc.vmctx := h.raises.vmctx

end Posts

/-- Raising the line where `IE` is set and `IS` is not empty. -/
theorem raise_line (hline : sc.lintr = true ↔ sc.ascPi.lintr.state ≠ .idle)
    (hie : sc.ghc &&& ahciGhcIE ≠ 0) (hne : sc.is ≠ 0) : sc.raise.Line := by
  rw [AhciSoftc.raise]
  split
  · next hl => exact ⟨hline, ⟨fun _ => ⟨hie, hne⟩, fun _ => hl⟩⟩
  · exact ⟨⟨fun _ => pciLintrAssert_state _, fun _ => rfl⟩, ⟨fun _ => ⟨hie, hne⟩, fun _ => rfl⟩⟩

theorem raise_is (sc : AhciSoftc) : sc.raise.is = sc.is := by
  rw [AhciSoftc.raise]
  split <;> rfl

end AhciSoftc

/-- A port's bit is in `IS` after it has been set. -/
theorem or_portBit_ne_zero (x : U32) {port : Nat} (h : port < ahciMaxPorts) :
    (x ||| 1#32 <<< port) &&& 1#32 <<< port ≠ 0 := by
  have hset : (1#32 <<< port).getLsbD port = true := by
    have hslot := getLsbD_slotBit ⟨port, h⟩ ⟨port, h⟩
    rwa [decide_eq_true rfl] at hslot
  intro hz
  have hbit : ((x ||| 1#32 <<< port) &&& 1#32 <<< port).getLsbD port = true := by
    rw [BitVec.getLsbD_and, BitVec.getLsbD_or, hset, Bool.or_true, Bool.and_true]
  rw [hz] at hbit
  simp at hbit

/-- `ahci_port_intr` makes `IS` and the line follow `PxIS`. -/
theorem ahciPortIntr_level {sc : AhciSoftc} {p : AhciPort} (hmsi : pciMsiMaxmsgnum sc.ascPi = 0)
    (h : sc.Line) (hport : p.port < ahciMaxPorts) : (ahciPortIntr sc p).Level p.port p.ie p.is := by
  rw [ahciPortIntr]
  split
  · next hno => exact ⟨h, hport, fun hyes => absurd hno hyes⟩
  · simp only [hmsi]
    rw [if_neg (by simp [ahciPorts])]
    split
    · next hset => exact ⟨h, hport, fun _ => hset⟩
    · have hbit := or_portBit_ne_zero sc.is hport
      split
      · next hie =>
        have hlow : sc.lintr = false := Bool.eq_false_iff.2 fun hl => (h.global.1 hl).1 hie
        exact ⟨⟨h.line, ⟨fun hl => absurd (hlow.symm.trans hl) Bool.false_ne_true,
          fun hg => absurd hie hg.1⟩⟩, hport, fun _ => hbit⟩
      · next hie =>
        have hne : sc.is ||| 1#32 <<< p.port ≠ 0 := by
          intro hz
          rw [hz] at hbit
          exact hbit BitVec.zero_and
        rw [if_neg (Nat.lt_irrefl 0)]
        refine ⟨AhciSoftc.raise_line h.line hie hne, hport, fun _ => ?_⟩
        rw [AhciSoftc.raise_is]
        exact hbit

theorem ahciPortIntr_posts (sc : AhciSoftc) (p : AhciPort) (is : U32) :
    sc.Posts p.port p.ie is (ahciPortIntr sc p) p.is :=
  ⟨ahciPortIntr_raises sc p, fun hmsi h => ahciPortIntr_level hmsi h.toLine h.isPort⟩

/-! ## Reports -/

/-- A port without what a report changes. -/
def AhciPort.blank (p : AhciPort) : AhciPort :=
  { p with dev := ⟨[], 0, 0, [], 0, 0⟩, is := 0, ci := 0, tfd := 0, sact := 0, waitforclear := false
           sig := 0, ssts := 0, serr := 0, reset := false }

/-- What a report leaves as it is, besides the softc. -/
def PortCtx.base (c : PortCtx) : AhciPort × BlockifCtxt × (Nat → BlockifReq) × (Nat → U8) :=
  (c.p.blank, c.blk.bc, c.blk.reqs, c.stack)

/-- `d` is `c` after something has been reported to the guest. -/
structure Reports (c d : PortCtx) : Prop where
  posts : c.sc.Posts c.p.port c.p.ie c.p.is d.sc d.p.is
  base : d.base = c.base

namespace Reports

variable {c d e : PortCtx}

theorem sc (h : Reports c d) : c.sc.Raises d.sc := h.posts.raises

theorem bc (h : Reports c d) : d.blk.bc = c.blk.bc := congrArg (·.2.1) h.base

theorem reqs (h : Reports c d) : d.blk.reqs = c.blk.reqs := congrArg (·.2.2.1) h.base

theorem stack (h : Reports c d) : d.stack = c.stack := congrArg (·.2.2.2) h.base

theorem opened (h : Reports c d) : d.p.opened = c.p.opened := congrArg (·.1.opened) h.base

theorem port (h : Reports c d) : d.p.port = c.p.port := congrArg (·.1.port) h.base

theorem ie (h : Reports c d) : d.p.ie = c.p.ie := congrArg (·.1.ie) h.base

theorem atapi (h : Reports c d) : d.p.atapi = c.p.atapi := congrArg (·.1.atapi) h.base

theorem cmd (h : Reports c d) : d.p.cmd = c.p.cmd := congrArg (·.1.cmd) h.base

theorem ccs (h : Reports c d) : d.p.ccs = c.p.ccs := congrArg (·.1.ccs) h.base

theorem pending (h : Reports c d) : d.p.pending = c.p.pending := congrArg (·.1.pending) h.base

theorem ioreq (h : Reports c d) : d.p.ioreq = c.p.ioreq := congrArg (·.1.ioreq) h.base

theorem iofhd (h : Reports c d) : d.p.iofhd = c.p.iofhd := congrArg (·.1.iofhd) h.base

theorem iobhd (h : Reports c d) : d.p.iobhd = c.p.iobhd := congrArg (·.1.iobhd) h.base

end Reports

/-! ## Frames -/

theorem ahciSetIs_spec (c : PortCtx) (irq : U32) :
    ∃ is sc, c.sc.Posts c.p.port c.p.ie c.p.is sc is ∧
      ahciSetIs c irq = { c with sc := sc, p := { c.p with is := is } } := by
  rw [ahciSetIs]
  split
  · exact ⟨_, _, ahciPortIntr_posts c.sc { c.p with is := c.p.is ||| irq } c.p.is, rfl⟩
  · exact ⟨_, _, .refl c.sc _ _ _, rfl⟩

theorem ahciWriteFis_spec (c : PortCtx) (ft : SataFisType) (fis : List U8) :
    ∃ is sc m, c.sc.Posts c.p.port c.p.ie c.p.is sc is ∧
      ahciWriteFis c ft fis = { c with
        sc := sc
        p := { c.p with
          is := is, waitforclear := c.p.waitforclear || (c.p.receives && fisError fis) }
        blk := { c.blk with mem := m } } := by
  rw [ahciWriteFis]
  cases hr : c.p.receives with
  | true =>
    obtain ⟨is, sc, hsc, heq⟩ := ahciSetIs_spec
      ({ c with p := { c.p with waitforclear := c.p.waitforclear || fisError fis } }.setMem
        (c.mem.writeBytes (c.p.rfis + ft.offset) (fis.take ft.len))) (fisIrq ft fis)
    exact ⟨is, sc, _, hsc, by rw [if_pos rfl, heq]; rfl⟩
  | false =>
    exact ⟨c.p.is, c.sc, c.mem, .refl c.sc _ _ _, by simp⟩

/-- `ahci_write_fis_piosetup` sets no bit of `PxIS`. -/
theorem ahciWriteFisPiosetup_eq (c : PortCtx) : ∃ m, ahciWriteFisPiosetup c = c.setMem m := by
  rw [ahciWriteFisPiosetup, ahciWriteFis]
  split
  · refine ⟨c.mem.writeBytes (c.p.rfis + SataFisType.pioSetup.offset)
      (((List.replicate 20 0).set 0 SataFisType.pioSetup.code).take SataFisType.pioSetup.len), ?_⟩
    have herr : fisError ((List.replicate 20 0).set 0 SataFisType.pioSetup.code) = false := by decide
    have hirq : fisIrq .pioSetup ((List.replicate 20 0).set 0 SataFisType.pioSetup.code) = 0 := by
      decide
    rw [hirq, ahciSetIs, if_neg (by simp), herr, Bool.or_false]
  · exact ⟨c.mem, rfl⟩

/-- The error bit of a status. -/
def tfdError (tfd : U32) : Bool := tfd &&& ataSError != 0

/-- The port is busy: `ahci_handle_port` stops here. -/
def tfdBusy (tfd : U32) : Bool := tfd &&& (ataSBusy ||| ataSDrq) != 0

theorem tfdError_eq (tfd : U32) : tfdError tfd = tfd.getLsbD 0 := by
  rw [tfdError, ataSError, BitVec.and_one_eq_setWidth_ofBool_getLsbD]
  cases tfd.getLsbD 0 <;> rfl

theorem fisError_status (a b e : U8) (tfd : U32) (l : List U8) :
    fisError ([a, b, tfd.setWidth 8, e] ++ l) = tfdError tfd := by
  have hbit : (tfd.setWidth 8 : U8).getLsbD 0 = tfd.getLsbD 0 := by simp
  rw [tfdError_eq, ← hbit]
  simp only [fisError, List.cons_append, List.getD_cons_succ, List.getD_cons_zero]
  rw [BitVec.and_one_eq_setWidth_ofBool_getLsbD]
  cases (tfd.setWidth 8 : U8).getLsbD 0 <;> rfl

/-- What `ahci_write_fis_d2h` does. -/
theorem ahciWriteFisD2h_spec (c : PortCtx) (slot : Slot) (cfis : U64) (tfd : U32) :
    ∃ is sc m dev, c.sc.Posts c.p.port c.p.ie c.p.is sc is ∧
      ahciWriteFisD2h c slot cfis tfd = { c with
        sc := sc
        p := { c.p with
          is := is
          dev := dev
          tfd := tfd
          ci := if tfdError tfd then c.p.ci else c.p.ci &&& ~~~slotBit slot
          waitforclear := c.p.waitforclear || (c.p.receives && tfdError tfd) }
        blk := { c.blk with mem := m }
        log := c.log ++ [.d2h slot tfd] } := by
  rw [ahciWriteFisD2h]
  simp only []
  rw [List.append_assoc]
  cases herr : tfdError tfd with
  | true =>
    rw [if_pos (bne_iff_ne.1 herr)]
    obtain ⟨is, sc, m, hsc, heq⟩ := ahciWriteFis_spec _ _ _
    rw [heq, fisError_status, herr]
    exact ⟨_, _, _, _, hsc, rfl⟩
  | false =>
    rw [if_neg (bne_eq_false_iff_eq.1 herr ▸ fun h => h rfl)]
    obtain ⟨is, sc, m, hsc, heq⟩ := ahciWriteFis_spec _ _ _
    rw [heq, fisError_status, herr]
    exact ⟨_, _, _, _, hsc, rfl⟩

theorem ahciWriteFisD2h_log (c : PortCtx) (slot : Slot) (cfis : U64) (tfd : U32) :
    (ahciWriteFisD2h c slot cfis tfd).log = c.log ++ [.d2h slot tfd] := by
  obtain ⟨is, sc, m, dev, -, heq⟩ := ahciWriteFisD2h_spec c slot cfis tfd
  rw [heq]

/-- `ahci_write_fis_d2h_ncq` sets no bit of `PxIS`. -/
theorem ahciWriteFisD2hNcq_spec (c : PortCtx) (slot : Slot) :
    ∃ m, ahciWriteFisD2hNcq c slot = { c with
      p := { c.p with tfd := ataOk, ci := c.p.ci &&& ~~~slotBit slot }
      blk := { c.blk with mem := m }
      log := c.log ++ [.d2hNcq slot] } := by
  rw [ahciWriteFisD2hNcq, ahciWriteFis]
  split
  · have herr : fisError ([SataFisType.regD2H.code, 0, ataOk.setWidth 8] ++ List.replicate 17 0) =
        false := by decide
    have hirq : fisIrq .regD2H
        ([SataFisType.regD2H.code, 0, ataOk.setWidth 8] ++ List.replicate 17 0) = 0 := by
      decide
    rw [hirq, ahciSetIs, if_neg (by simp), herr, Bool.or_false]
    exact ⟨_, rfl⟩
  · exact ⟨c.mem, rfl⟩

/-- What `ahci_write_fis_sdb` does. -/
theorem ahciWriteFisSdb_spec (c : PortCtx) (slot : Slot) (cfis : U64) (tfd : U32) :
    ∃ is sc m dev sact, c.sc.Posts c.p.port c.p.ie c.p.is sc is ∧
      ahciWriteFisSdb c slot cfis tfd = { c with
        sc := sc
        p := { c.p with
          is := is
          dev := dev
          tfd := c.p.tfd &&& ~~~0x77#32 ||| tfd &&& 0x77#32
          sact := sact
          waitforclear := c.p.waitforclear || (c.p.receives && tfdError tfd) }
        blk := { c.blk with mem := m }
        log := c.log ++ [.sdb slot tfd] } := by
  have hbit : tfdError (tfd &&& 0x77#32) = tfdError tfd := by
    rw [tfdError_eq, tfdError_eq, BitVec.getLsbD_and]
    simp
  have hstatus : ∀ a b e : U8, ∀ l, fisError (a :: b :: (tfd &&& 0x77#32).setWidth 8 :: e :: l) =
      tfdError tfd := fun a b e l => (fisError_status a b e _ l).trans hbit
  rw [ahciWriteFisSdb]
  simp only []
  cases herr : tfdError tfd with
  | true =>
    rw [herr] at hbit hstatus
    rw [if_pos (bne_iff_ne.1 hbit), if_pos (bne_iff_ne.1 hbit)]
    obtain ⟨is, sc, m, hsc, heq⟩ := ahciWriteFis_spec _ _ _
    rw [heq, hstatus]
    exact ⟨_, _, _, _, _, hsc, rfl⟩
  | false =>
    rw [herr] at hbit hstatus
    have hneg : ¬ tfd &&& 0x77#32 &&& ataSError ≠ 0 := fun h => h (bne_eq_false_iff_eq.1 hbit)
    rw [if_neg hneg, if_neg hneg]
    obtain ⟨is, sc, m, hsc, heq⟩ := ahciWriteFis_spec _ _ _
    rw [heq, hstatus]
    exact ⟨_, _, _, _, _, hsc, rfl⟩

theorem ahciWriteFisSdb_log (c : PortCtx) (slot : Slot) (cfis : U64) (tfd : U32) :
    (ahciWriteFisSdb c slot cfis tfd).log = c.log ++ [.sdb slot tfd] := by
  obtain ⟨is, sc, m, dev, sact, -, heq⟩ := ahciWriteFisSdb_spec c slot cfis tfd
  rw [heq]

/-- A reset of the port is reported. -/
theorem ahciPortReset_reports (c : PortCtx) :
    Reports c (ahciPortReset c) ∧ (ahciPortReset c).log = c.log ∧
      (ahciPortReset c).p.ci = c.p.ci ∧ (ahciPortReset c).p.waitforclear = c.p.waitforclear ∧
      (c.p.opened = true → tfdBusy (ahciPortReset c).p.tfd = false) := by
  simp only [ahciPortReset]
  split
  · next hclosed =>
    have hclosed' : (!c.p.opened) = true := hclosed
    refine ⟨⟨.refl c.sc _ _ _, rfl⟩, rfl, rfl, rfl, fun hopen => ?_⟩
    rw [hopen] at hclosed'
    cases hclosed'
  · rw [ahciWriteResetFisD2h, List.append_assoc, List.append_assoc]
    obtain ⟨is, sc, m, hsc, heq⟩ := ahciWriteFis_spec _ _ _
    have herr : ∀ l, fisError ([SataFisType.regD2H.code, 0, 0, 1, 1] ++ l) = false := fun l => by
      simp [fisError]
    rw [heq, herr, Bool.and_false, Bool.or_false]
    refine ⟨⟨hsc, rfl⟩, rfl, rfl, rfl, fun _ => ?_⟩
    simp only []
    split <;> decide

/-! ## Answers -/

/-- Memory, the fields that only commands use and the status change. -/
def Quiet (c d : PortCtx) : Prop :=
  ∃ m dev tfd, d = { c with blk := { c.blk with mem := m }, p := { c.p with dev := dev, tfd := tfd } }

namespace Quiet

variable {c d e : PortCtx}

theorem refl (c : PortCtx) : Quiet c c := ⟨c.mem, c.p.dev, c.p.tfd, rfl⟩

theorem trans (h : Quiet c d) (h' : Quiet d e) : Quiet c e := by
  obtain ⟨m, dev, tfd, rfl⟩ := h
  obtain ⟨m', dev', tfd', rfl⟩ := h'
  exact ⟨m', dev', tfd', rfl⟩

theorem setMem (c : PortCtx) (m : Mem) : Quiet c (c.setMem m) := ⟨m, c.p.dev, c.p.tfd, rfl⟩

theorem writePrdt (c : PortCtx) (slot : Slot) (cfis : U64) (buf : List U8) :
    Quiet c (writePrdt c slot cfis buf) :=
  setMem c _

theorem piosetup (c : PortCtx) : Quiet c (ahciWriteFisPiosetup c) := by
  obtain ⟨m, heq⟩ := ahciWriteFisPiosetup_eq c
  rw [heq]
  exact setMem c m

theorem ireason (c : PortCtx) (cfis : U64) : Quiet c (atapiIreason c cfis) := setMem c _

theorem sense (c : PortCtx) (asc : U8) : Quiet c (atapiSense c asc) := ⟨c.mem, _, c.p.tfd, rfl⟩

end Quiet

/-- `d` is `c` after the command in `slot` has been answered by `ahci_write_fis_d2h`,
with an error or without. -/
structure Answers (c d : PortCtx) (slot : Slot) (err : Bool) : Prop where
  reports : Reports c d
  log : ∃ tfd, d.log = c.log ++ [.d2h slot tfd] ∧ tfdError tfd = err
  ci : d.p.ci = if err then c.p.ci else c.p.ci &&& ~~~slotBit slot
  busy : tfdBusy d.p.tfd = false
  wait : d.p.waitforclear = (c.p.waitforclear || (c.p.receives && err))

namespace Answers

variable {c d : PortCtx} {slot : Slot} {cfis : U64}

/-- What precedes an answer may be quiet. -/
theorem of_quiet {err : Bool} {c₁ : PortCtx} (h : Quiet c c₁) (h' : Answers c₁ d slot err) :
    Answers c d slot err := by
  obtain ⟨m, dev, tfd, rfl⟩ := h
  exact ⟨⟨h'.reports.posts, h'.reports.base⟩, h'.log, h'.ci, h'.busy, h'.wait⟩

/-- Every status that is not busy is an answer. -/
theorem d2h (c : PortCtx) (slot : Slot) (cfis : U64) {tfd : U32} (h : tfdBusy tfd = false) :
    Answers c (ahciWriteFisD2h c slot cfis tfd) slot (tfdError tfd) := by
  obtain ⟨is, sc, m, dev, hsc, heq⟩ := ahciWriteFisD2h_spec c slot cfis tfd
  rw [heq]
  exact ⟨⟨hsc, rfl⟩, ⟨tfd, rfl, rfl⟩, rfl, h, rfl⟩

theorem ok (h : Quiet c d) : Answers c (ahciWriteFisD2h d slot cfis ataOk) slot false :=
  of_quiet h (d2h d slot cfis (by decide))

theorem aborted (h : Quiet c d) : Answers c (ahciWriteFisD2h d slot cfis ataAborted) slot true :=
  of_quiet h (d2h d slot cfis (by decide))

theorem refuse (c : PortCtx) (slot : Slot) (cfis : U64) (asc : U8) :
    Answers c (atapiRefuse c slot cfis asc) slot true :=
  of_quiet ((Quiet.sense c asc).trans (Quiet.ireason _ cfis)) (d2h _ slot cfis (by decide))

theorem answer (c : PortCtx) (slot : Slot) (cfis : U64) (buf : List U8) :
    Answers c (atapiAnswer c slot cfis buf) slot false :=
  ok ((Quiet.writePrdt c slot cfis buf).trans (Quiet.ireason _ cfis))

theorem done (c : PortCtx) (slot : Slot) (cfis : U64) :
    Answers c (atapiDone c slot cfis) slot false :=
  ok (Quiet.ireason c cfis)

/-- A handler that puts its data between the ireason and the answer. -/
theorem ireason_answer (c : PortCtx) (slot : Slot) (cfis : U64) (buf : List U8) :
    Answers c (ahciWriteFisD2h (writePrdt (atapiIreason c cfis) slot cfis buf) slot cfis ataOk) slot
      false :=
  ok ((Quiet.ireason c cfis).trans (Quiet.writePrdt _ slot cfis buf))

end Answers

end DeviceModel
