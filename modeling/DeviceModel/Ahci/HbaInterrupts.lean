import DeviceModel.Ahci.Interrupts
import DeviceModel.Ahci.PortRuns

/-!
# Interrupts of every port

The two levels of interrupt status agree for each opened port of a controller with any
number of disks. The ports share `IS` and the line: what a function of one port does to
`IS` is to set bits, so that it leaves the bits of the others where they are.
-/

namespace DeviceModel

/-! ## The bits of the other ports -/

/-- `IS` has the bits `bits` at least. -/
def AhciSoftc.HasBits (bits : U32) (sc : AhciSoftc) : Prop := ∃ more, sc.is = bits ||| more

theorem hasBits_self (sc : AhciSoftc) : sc.HasBits sc.is := ⟨0, BitVec.or_zero.symm⟩

/-- The functions of a port keep the bits of `IS`. -/
theorem hasBits_kept (bits : U32) : AhciSoftc.Kept (AhciSoftc.HasBits bits) where
  raises := by
    rintro sc sc' - ⟨more, hmore⟩ hr
    obtain ⟨new, hnew⟩ := hr.is
    refine ⟨more ||| new, ?_⟩
    rw [hnew, hmore, BitVec.or_assoc]
  mtx := fun _ hk => hk

theorem AhciSoftc.HasBits.ne_zero {x b : U32} {sc : AhciSoftc} (h : sc.HasBits x)
    (hx : x &&& b ≠ 0) : sc.is &&& b ≠ 0 := by
  obtain ⟨more, hmore⟩ := h
  intro hz
  refine hx (slots_ext fun t => ?_)
  have hbit := congrArg (·.getLsbD t) hz
  rw [hmore] at hbit
  simp only [BitVec.getLsbD_and, BitVec.getLsbD_or] at hbit ⊢
  have hzero : (0 : U32).getLsbD t = false := BitVec.getLsbD_zero
  rw [hzero] at hbit ⊢
  cases hxt : x.getLsbD t with
  | false => rw [Bool.false_and]
  | true => rwa [hxt, Bool.true_or] at hbit

/-! ## The controller -/

namespace AhciHba

/-- MSI is disabled, the line follows `IS`, and `IS` has the bits of the opened ports among
`ports`. -/
structure Signals (ports : Nat → Prop) (s : AhciHba) : Prop where
  msi : pciMsiMaxmsgnum s.sc.ascPi = 0
  line : s.sc.Line
  port : ∀ i, ports i → (s.port i).opened = true → (s.port i).is &&& (s.port i).ie ≠ 0 →
    s.sc.is &&& 1#32 <<< i ≠ 0

variable {ports : Nat → Prop} {s : AhciHba} {c : PortCtx} {i : Nat}

namespace Signals

theorem mono {ports' : Nat → Prop} (h : s.Signals ports)
    (hle : ∀ i, (s.port i).opened = true → ports' i → ports i) : s.Signals ports' :=
  ⟨h.msi, h.line, fun i hi hopen => h.port i (hle i hopen hi) hopen⟩

/-- What a function called on the port has. -/
theorem ctx (h : s.Signals ports) (hs : s.Ok) (hi : (s.port i).opened = true) (hport : ports i) :
    DeviceModel.Signals i (AhciSoftc.HasBits s.sc.is) (s.ctx i) := by
  obtain ⟨hlt, hok⟩ := hs.opened i hi
  have hnumber : (s.port i).port = i := hok.number
  refine ⟨hnumber, h.msi, ⟨h.line, ?_, fun hne => ?_⟩, hasBits_self s.sc⟩
  · rw [hok.number]
    exact Nat.lt_of_lt_of_le hlt hs.most
  · rw [hok.number]
    exact h.port i hport hi hne

/-- A call on an opened port. -/
theorem put (h : s.Signals ports) (hc : DeviceModel.Signals i (AhciSoftc.HasBits s.sc.is) c) :
    (s.put i c).Signals fun j => ports j ∨ j = i := by
  refine ⟨hc.msi, hc.level.toLine, fun j hj hopen hne => ?_⟩
  by_cases hij : j = i
  · rw [hij, put_port] at hne
    have hbit := hc.level.port hne
    rwa [hc.number, ← hij] at hbit
  · rw [(s.put_samePort c hij).port] at hopen hne
    exact hc.kept.ne_zero (h.port j (hj.resolve_right hij) hopen hne)

/-- A call on a port that is not opened. -/
theorem put_closed (h : s.Signals ports) (hc : Closed (s.ctx i) c) :
    (s.put i c).Signals fun j => ports j ∨ j = i := by
  obtain ⟨hclosed, -, m, p, rfl⟩ := hc
  refine ⟨h.msi, h.line, fun j hj hopen hne => ?_⟩
  by_cases hij : j = i
  · rw [hij, put_port] at hopen
    exact absurd (hclosed.symm.trans hopen) Bool.false_ne_true
  · rw [(s.put_samePort _ hij).port] at hopen hne
    exact h.port j (hj.resolve_right hij) hopen hne

/-- A change of what the ports share, other than `GHC`, `IS` and the line. -/
theorem shared (h : s.Signals ports) (mtx : PthreadMutex) (mem : Mem) (stack : Nat → U8) :
    Signals ports { s with sc := { s.sc with mtx := mtx }, mem := mem, stack := stack } :=
  ⟨h.msi, ⟨h.line.line, h.line.global⟩, h.port⟩

/-- What `ahci_reset` does for one port. -/
theorem resetPort (h : s.Signals ports) (hs : s.Ok) (i : Nat) :
    (s.put i (ahciResetPort (s.ctx i))).Ok ∧
      (s.put i (ahciResetPort (s.ctx i))).Signals fun j => ports j ∨ j = i := by
  cases hi : (s.port i).opened with
  | true =>
    obtain ⟨hlt, hok⟩ := hs.opened i hi
    refine ⟨hs.put hi hok.resetPort, h.put ?_⟩
    exact ahciResetPort_signals (hasBits_kept _) hok.number (Nat.lt_of_lt_of_le hlt hs.most)
      h.msi h.line (hasBits_self s.sc)
  | false =>
    have hclosed := ahciResetPort_closed (c := s.ctx i) hi
    exact ⟨hs.put_closed hi hclosed.closed, h.put_closed hclosed⟩

/-- The loop of `ahci_reset`: the ports that it has come to agree with `IS`. -/
theorem resetPorts (is : List Nat) : ∀ {ports : Nat → Prop} {s : AhciHba}, s.Signals ports → s.Ok →
    (is.foldl (fun s i => s.put i (ahciResetPort (s.ctx i))) s).Ok ∧
      (is.foldl (fun s i => s.put i (ahciResetPort (s.ctx i))) s).ports = s.ports ∧
      (is.foldl (fun s i => s.put i (ahciResetPort (s.ctx i))) s).Signals
        fun j => ports j ∨ j ∈ is := by
  induction is with
  | nil => exact fun h hs => ⟨hs, rfl, h.mono fun j _ hj => hj.resolve_right List.not_mem_nil⟩
  | cons i is ih =>
    intro ports s h hs
    obtain ⟨hok, hsig⟩ := h.resetPort hs i
    obtain ⟨hok', hports, hsig'⟩ := ih hsig hok
    refine ⟨hok', hports, hsig'.mono fun j _ hj => ?_⟩
    rw [List.mem_cons] at hj
    rwa [or_assoc]

/-- **`ahci_reset`** clears `IS` first, and then every port. -/
theorem ahciReset (hs : s.Ok) (hmsi : pciMsiMaxmsgnum s.sc.ascPi = 0) (hflag : s.sc.Flagged) :
    s.ahciReset.Signals fun _ => True := by
  have hstart : Signals (fun _ => False)
      { s with sc := AhciSoftc.lower { s.sc with ghc := ahciGhcAE, is := 0 } } :=
    ⟨(AhciSoftc.lower_maxmsgnum _).trans hmsi, AhciSoftc.lower_line hflag (.inl rfl),
      fun _ hno => hno.elim⟩
  obtain ⟨hok, hports, hsig⟩ := hstart.resetPorts (List.range s.ports) (hs.shared _ _ _)
  refine hsig.mono fun j hopen _ => .inr (List.mem_range.2 ?_)
  have hlt := (hok.opened j hopen).1
  rwa [hports] at hlt

/-- **A write to the registers of the controller.** -/
theorem pciAhciHostWrite (h : s.Signals fun _ => True) (hs : s.Ok) (offset value : U64) :
    (s.pciAhciHostWrite offset value).Signals fun _ => True := by
  -- after `ahci_generate_intr`, whatever the write has done to `GHC` and `IS`
  have hgen : ∀ (ghc is mask : U32), Signals (fun _ => True) { s with
      sc := ahciGenerateIntrOf s.ports { s.sc with ghc := ghc, is := is } s.port mask } := by
    intro ghc is mask
    obtain ⟨hline, his, hmsi⟩ := @ahciGenerateIntrOf_line s.ports
      { s.sc with ghc := ghc, is := is } s.port mask h.msi h.line.line
    refine ⟨hmsi, hline, fun i _ hopen hne => ?_⟩
    have hlt := (hs.opened i hopen).1
    have hbit : (is ||| ahciPortsIsOf s.ports s.port).getLsbD i = true := by
      rw [BitVec.getLsbD_or, ahciPortsIsOf_bit s.port hlt hs.most hne, Bool.or_true]
    have hset := portBit_ne_zero (Nat.lt_of_lt_of_le hlt hs.most) hbit
    rw [← his] at hset
    exact hset
  rw [AhciHba.pciAhciHostWrite]
  split
  · split
    · exact Signals.ahciReset hs h.msi h.line.line
    · exact hgen _ s.sc.is _
  · split
    · exact hgen s.sc.ghc _ _
    · exact h

/-- **A write to the registers of a port.** -/
theorem pciAhciPortWrite (h : s.Signals fun _ => True) (hs : s.Ok) (fuel : Nat) (M : Nat → Mem)
    (offset value : U64) :
    IfReturns (Signals fun _ => True) (s.pciAhciPortWrite fuel M offset value) := by
  rw [AhciHba.pciAhciPortWrite]
  cases hi : (s.port (ahciPortNo offset)).opened with
  | true =>
    have hwrite := (signals_rules (hasBits_kept _)).writeReg (hs.opened _ hi).2.tracked
      (h.ctx hs hi trivial) fuel M (ahciPortReg ((offset - ahciOffset) % ahciStep))
      (value.setWidth 32)
    exact hwrite.bind fun c hc => Ensures.ok ((h.put hc).mono fun _ _ _ => .inl trivial)
  | false =>
    have hclosed := ahciPortWriteReg_closed (c := s.ctx (ahciPortNo offset)) hi fuel M
      (ahciPortReg ((offset - ahciOffset) % ahciStep)) (value.setWidth 32)
    exact (hclosed.allow fun _ _ => trivial).bind fun c hc =>
      Ensures.ok ((h.put_closed hc).mono fun _ _ _ => .inl trivial)

/-- **A register write.** -/
theorem pciAhciWrite (h : s.Signals fun _ => True) (hs : s.Ok) (fuel : Nat) (M : Nat → Mem)
    (baridx : Nat) (offset value : U64) :
    IfReturns (Signals fun _ => True) (s.pciAhciWrite fuel M baridx offset value) := by
  have hlock : s.lockMtx.Signals fun _ => True := h.shared _ _ _
  have hok : s.lockMtx.Ok := hs.shared _ _ _
  rw [AhciHba.pciAhciWrite]
  refine Ensures.bind (Ensures.assert fun _ => trivial) fun _ _ => ?_
  refine Ensures.bind (Ensures.assert fun _ => trivial) fun _ _ => ?_
  have hbody : IfReturns (Signals fun _ => True) (s.lockMtx.pciAhciWriteBody fuel M offset value) := by
    rw [pciAhciWriteBody]
    split
    · exact hlock.pciAhciHostWrite hok offset value
    · split
      · exact hlock.pciAhciPortWrite hok fuel M offset value
      · exact hlock
  exact hbody.bind fun t ht => Ensures.ok (ht.shared _ _ _)

end Signals

/-- Opening ports leaves the softc as `calloc` has made it. -/
theorem ofOpts_sc (ctx : Vmctx) (base : U64) (opts : Option (List Char)) (atapi : Bool)
    (ident : List Char → List U8) (mem : Mem) (stack : Nat → U8) :
    (ofOpts ctx base opts atapi ident mem stack).sc =
      ⟨pciDevinstInit, ctx, pthreadMutexInit, 0, 0, false⟩ := by
  have hfold : ∀ (l : List AhciPortOpts) (s : AhciHba), (l.foldl (openPort base ident) s).sc = s.sc := by
    intro l
    induction l with
    | nil => exact fun s => rfl
    | cons o l ih => exact fun s => ih _
  exact hfold _ _

end AhciHba

/-! ## Runs -/

/-- One event that does not enable MSI. -/
theorem HbaStep.signals {s t : HbaSys} {l : AhciLabel} (hs : s.dev.Ok)
    (hsig : s.dev.Signals fun _ => True) (h : HbaStep s l t) (hoff : l.MsiOff) :
    t.dev.Signals fun _ => True := by
  cases h with
  | write fuel M baridx offset value _ hw =>
    exact (hsig.pciAhciWrite hs fuel M baridx offset value).of_ok hw
  | read baridx regoff size _ hr =>
    obtain ⟨_, -, hr⟩ := Except.bind_eq_ok.1 hr
    obtain ⟨_, -, hr⟩ := Except.bind_eq_ok.1 hr
    obtain ⟨_, -, hr⟩ := Except.bind_eq_ok.1 hr
    cases hr
    exact hsig.shared _ _ _
  | config command msi msix _ =>
    obtain ⟨hline, hnone⟩ := AhciSoftc.config_line hsig.line hoff
    exact ⟨hnone, hline, hsig.port⟩
  | guest | enter | leave => exact ⟨hsig.msi, hsig.line, hsig.port⟩
  | serve fuel M _ hlast hserve =>
    have hi := hs.last _ hlast
    have hserved := (blockifServe_signals (hasBits_kept _) (hs.opened _ hi).2.tracked
      (hsig.ctx hs hi trivial) fuel M).of_ok hserve _ rfl
    exact (hsig.put hserved).mono fun _ _ _ => .inl trivial

/-- **The levels agree.** With MSI disabled throughout, for any option string and in every
reachable state, the flag `lintr` says whether the line is requested, it is set exactly where
`GHC` enables interrupts and `IS` is not empty, and `IS` has the bit of every opened port with an
enabled interrupt. -/
theorem hba_interrupt_levels {s : HbaSys}
    (h : Reaches (Guarded HbaStep fun _ l => l.MsiOff) HbaInitial s) :
    (s.dev.sc.lintr = true ↔ s.dev.sc.ascPi.lintr.state ≠ .idle) ∧
    (s.dev.sc.lintr = true ↔ s.dev.sc.ghc &&& ahciGhcIE ≠ 0 ∧ s.dev.sc.is ≠ 0) ∧
    ∀ i, (s.dev.port i).opened = true → (s.dev.port i).is &&& (s.dev.port i).ie ≠ 0 →
      s.dev.sc.is &&& 1#32 <<< i ≠ 0 := by
  have hinv : s.dev.Ok ∧ s.dev.Signals fun _ => True := by
    refine h.invariant (I := fun s => s.dev.Ok ∧ s.dev.Signals fun _ => True) ?_ ?_
    · rintro s ⟨⟨ctx, base, opts, atapi, ident, mem, stack, hdev⟩, -⟩
      have hok := AhciHba.ofOpts_ok ctx base opts atapi ident mem stack
      have hsc := AhciHba.ofOpts_sc ctx base opts atapi ident mem stack
      rw [hdev]
      refine ⟨hok.ahciReset, AhciHba.Signals.ahciReset hok ?_ ?_⟩
      · rw [hsc]
        rfl
      · rw [hsc]
        exact ⟨fun hf => (nomatch hf), fun hne => absurd rfl hne⟩
    · exact fun s l t hs hstep => ⟨hstep.1.ok hs.1, hstep.1.signals hs.1 hs.2 hstep.2⟩
  exact ⟨hinv.2.line.line, hinv.2.line.global, fun i => hinv.2.port i trivial⟩

/-- Two disks, and a command of each has completed: the second one's interrupt is enabled, and
the line is raised. -/
theorem hba_interrupt_levels_second : ∃ s, Reaches (Guarded HbaStep fun _ l => l.MsiOff) HbaInitial s ∧
    (∀ i < 2, AhciEvent.d2h 0 0x50 ∈ s.dev.log i ∧ (s.dev.port i).is &&& 1 ≠ 0) ∧
    s.dev.sc.is &&& 1#32 <<< 1 ≠ 0 ∧ s.dev.sc.lintr = true ∧
    s.dev.sc.ascPi.lintr.state ≠ .idle := by
  have hrun : ((hbaBlank "hd:a,hd:b").dev.writes 3 (fun _ => commandMem 0xe5#8)
      [(0x04, 2), (0x108, 0x1000), (0x118, 0x11), (0x138, 1), (0x188, 0x1000), (0x194, 1),
        (0x198, 0x11), (0x1b8, 1)]).toOption.any (fun s =>
          (List.range 2).all (fun i =>
            decide (AhciEvent.d2h 0 0x50 ∈ s.log i) && (s.port i).is &&& 1 != 0) &&
          (s.port 1).opened && (s.port 1).is &&& (s.port 1).ie != 0 &&
          s.sc.ghc &&& ahciGhcIE != 0) = true := by
    decide +kernel
  obtain ⟨s, hs, hend⟩ := (Option.any_eq_true _ _).1 hrun
  simp only [Bool.and_eq_true, List.all_eq_true, List.mem_range, decide_eq_true_eq, bne_iff_ne,
    ne_eq] at hend
  obtain ⟨⟨⟨hboth, hopen⟩, hsecond⟩, hie⟩ := hend
  have hreach : Reaches (Guarded HbaStep fun _ l => l.MsiOff) HbaInitial ⟨s, false⟩ :=
    AhciHba.writes_reaches (fun h => ⟨h, trivial⟩) _ (.start (hbaBlank_initial "hd:a,hd:b"))
      (Except.toOption_eq_some.1 hs)
  obtain ⟨hline, hglobal, hports⟩ := hba_interrupt_levels hreach
  have hbit := hports 1 hopen hsecond
  have hne : s.sc.is ≠ 0 := by
    intro hz
    rw [hz] at hbit
    exact hbit BitVec.zero_and
  have hraised := hglobal.2 ⟨hie, hne⟩
  exact ⟨⟨s, false⟩, hreach, hboth, hbit, hraised, hline.1 hraised⟩

end DeviceModel
