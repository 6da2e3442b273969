import DeviceModel.Ahci.SmallStep

/-!
# Rules for invariants of the port

An invariant of the opened port is checked against what `ahci_handle_port` does in one
visit, what `ahci_port_stop` does for one request, and the few things that a register
write does besides. The rules here take it from there to every register write and to
the completion callback.
-/

namespace DeviceModel

/-- What an invariant of the port must survive in a register write, up to `ahci_handle_port`,
where requests are tracked. -/
structure RegRules (J : PortCtx → Prop) : Prop where
  mem : ∀ {c : PortCtx} (m : Mem), J c → J (c.setMem m)
  /-- the fields that concern neither interrupts nor requests -/
  regs : ∀ {c : PortCtx} (clb clbu fb fbu sctl serr sact ci cmd tfd : U32) (cmdLst rfis : U64)
    (ccs : Slot) (wait : Bool), J c → J { c with p := { c.p with
      clb := clb, clbu := clbu, fb := fb, fbu := fbu, sctl := sctl, serr := serr, sact := sact
      ci := ci, cmd := cmd, tfd := tfd, cmdLst := cmdLst, rfis := rfis, ccs := ccs
      waitforclear := wait } }
  intr : ∀ {c : PortCtx} (is ie : U32), J c → J { c with
    p := { c.p with is := is, ie := ie }
    sc := ahciPortIntr c.sc { c.p with is := is, ie := ie } }
  reset : ∀ {c : PortCtx}, Tracked [] c → J c → J (ahciPortReset c)
  cancel : ∀ {c : PortCtx} {a : Nat} {as : List Nat}, Tracked [] c → J c → c.p.iobhd = a :: as →
    IfReturns J (ahciCancel c a)

/-- And in a visit of `ahci_handle_port`. -/
structure PortRules (J : PortCtx → Prop) : Prop extends RegRules J where
  visit : ∀ {busy : List BlockifElem} {c : PortCtx}, Tracked busy c → J c → c.p.visits = true →
    IfReturns J (ahciVisit c)

/-- What holds of both. -/
theorem Ensures.and {α : Type} {allowed : Stop → Prop} {P Q : α → Prop} {m : Except Stop α}
    (hP : Ensures allowed P m) (hQ : IfReturns Q m) : Ensures allowed (fun a => P a ∧ Q a) m := by
  cases m with
  | error e => exact hP
  | ok a => exact ⟨hP, hQ⟩

namespace RegRules

variable {J : PortCtx → Prop} {c : PortCtx}

theorem checkStopped (rules : RegRules J) (hJ : J c) :
    J { c with p := ahciCheckStopped c.p } := by
  rw [ahciCheckStopped]
  split
  · exact rules.regs c.p.clb c.p.clbu c.p.fb c.p.fbu c.p.sctl c.p.serr 0 0 _ c.p.tfd c.p.cmdLst
      c.p.rfis 0 false hJ
  · exact hJ

theorem cancelAll (rules : RegRules J) :
    ∀ (as : List Nat) (c : PortCtx), Tracked [] c → J c → c.p.iobhd = as →
      IfReturns J (ahciCancelAll as c) := by
  intro as
  induction as with
  | nil => exact fun c _ hJ _ => hJ
  | cons a as ih =>
    intro c h hJ hbusy
    have htracked := (ahciCancel_tracked h hbusy).allow fun _ _ => trivial
    exact (htracked.and (rules.cancel h hJ hbusy)).bind fun t ⟨⟨ht, hrest⟩, hJt⟩ =>
      ih t ht hJt hrest

theorem portStop (rules : RegRules J) (h : Tracked [] c) (hJ : J c) :
    IfReturns J (ahciPortStop c) := by
  have hopen : c.p.opened = true := h.opened
  rw [ahciPortStop, hopen]
  simp only [Bool.not_true, Bool.false_eq_true, if_false]
  refine Ensures.bind (Ensures.assert fun _ => trivial) fun _ _ => ?_
  exact (rules.cancelAll c.p.iobhd c h hJ rfl).bind fun t hJt =>
    Ensures.ok (rules.checkStopped hJt)

theorem cmdRest (rules : RegRules J) (hJ : J c) (ctx : Vmctx) (value : U32) :
    J { c with p := ahciCmdRest ctx c.p value } := by
  obtain ⟨cmd, rfis, tfd, heq⟩ := ahciCmdRest_eq ctx c.p value
  rw [heq]
  exact rules.regs c.p.clb c.p.clbu c.p.fb c.p.fbu c.p.sctl c.p.serr c.p.sact c.p.ci cmd tfd
    c.p.cmdLst rfis c.p.ccs c.p.waitforclear hJ

theorem cmdWrite (rules : RegRules J) (h : Tracked [] c) (hJ : J c) (value : U32) :
    IfReturns J (ahciCmdWrite c value) := by
  have hbits : Tracked [] { c with p := ahciCmdBits c.p value } :=
    Tracks.congr h rfl rfl rfl rfl rfl rfl
  have hregs := fun cmd cmdLst =>
    rules.regs (c := c) c.p.clb c.p.clbu c.p.fb c.p.fbu c.p.sctl c.p.serr c.p.sact c.p.ci cmd c.p.tfd
      cmdLst c.p.rfis c.p.ccs c.p.waitforclear hJ
  have hJbits : J { c with p := ahciCmdBits c.p value } := hregs _ _
  rw [ahciCmdWrite]
  split
  · exact (rules.portStop hbits hJbits).bind fun t hJt => Ensures.ok (rules.cmdRest hJt _ value)
  · have hJstart : J { c with p := ahciCmdStart c.sc.vmctx (ahciCmdBits c.p value) } := hregs _ _
    exact Ensures.ok (rules.cmdRest hJstart _ value)

/-- **A register write**, up to `ahci_handle_port`. -/
theorem entry (rules : RegRules J) (h : Tracked [] c) (hJ : J c) (reg : AhciPortReg) (value : U32) :
    IfReturns (fun r => J r.1) (ahciPortWriteEntry c reg value) := by
  have hopen : c.p.opened = true := h.opened
  have hregs := fun clb clbu fb fbu sctl serr sact ci =>
    rules.regs (c := c) clb clbu fb fbu sctl serr sact ci c.p.cmd c.p.tfd c.p.cmdLst c.p.rfis c.p.ccs
      c.p.waitforclear hJ
  have hintr := fun is ie => rules.intr (c := c) is ie hJ
  refine ahciPortWriteEntry_ensures (rules.cmdWrite h hJ value) (hregs _ _ _ _ _ _ _ _) reg
    fun hcmd hci => ?_
  cases reg with
  | clb | clbu | fb | fbu | serr | sact => exact hregs _ _ _ _ _ _ _ _
  | other => exact hJ
  | is | ie =>
    rw [ahciPortWriteReg, ahciPortIntrOn_opened]
    · exact hintr _ _
    · exact hopen
  | sctl =>
    rw [ahciPortWriteReg]
    have hset : Tracked [] { c with p := { c.p with sctl := value } } :=
      Tracks.congr h rfl rfl rfl rfl rfl rfl
    split
    · exact rules.reset hset (hregs _ _ _ _ _ _ _ _)
    · exact hregs _ _ _ _ _ _ _ _
  | cmd => exact absurd rfl hcmd
  | ci => exact absurd rfl hci

end RegRules

namespace PortRules

variable {J : PortCtx → Prop} {busy : List BlockifElem} {c : PortCtx}

theorem loop (rules : PortRules J) (hbusy : busy.length ≤ 1) :
    ∀ (fuel : Nat) (M : Nat → Mem) (c : PortCtx), Tracked busy c → J c →
      IfReturns J (ahciPortLoop fuel M c) := by
  intro fuel
  induction fuel with
  | zero => exact fun _ _ _ _ => Ensures.error trivial
  | succ fuel ih =>
    intro M c h hJ
    rw [ahciPortLoop]
    split
    · exact hJ
    · split
      · exact hJ
      · split
        · exact hJ
        · have hmem : Tracked busy (c.setMem (M 0)) := Tracks.setMem h (M 0)
          have htracked := (ahciVisit_tracked hmem hbusy).allow fun _ _ => trivial
          have hvisit : IfReturns J (ahciVisit (c.setMem (M 0))) := by
            cases hv : (c.setMem (M 0)).p.visits with
            | true => exact rules.visit hmem (rules.mem (M 0) hJ) hv
            | false =>
              rw [ahciVisit_passes hv]
              exact rules.mem (M 0) hJ
          refine (htracked.and hvisit).bind fun t ht => ih _ _ ?_ ?_
          · exact Tracks.congr ht.1 rfl rfl rfl rfl rfl rfl
          · exact rules.regs t.p.clb t.p.clbu t.p.fb t.p.fbu t.p.sctl t.p.serr t.p.sact t.p.ci t.p.cmd
              t.p.tfd t.p.cmdLst t.p.rfis (t.p.ccs + 1) t.p.waitforclear ht.2

theorem handlePort (rules : PortRules J) (h : Tracked busy c) (hbusy : busy.length ≤ 1) (hJ : J c)
    (fuel : Nat) (M : Nat → Mem) : IfReturns J (ahciHandlePort fuel M c) := by
  rw [ahciHandlePort]
  split
  · exact hJ
  · exact rules.loop hbusy fuel M c h hJ

/-- **A register write** on the port that is opened. -/
theorem writeReg (rules : PortRules J) (h : Tracked [] c) (hJ : J c) (fuel : Nat) (M : Nat → Mem)
    (reg : AhciPortReg) (value : U32) : IfReturns J (ahciPortWriteReg fuel M c reg value) := by
  have htracked := (ahciPortWriteEntry_tracked h reg value).allow fun _ _ => trivial
  rw [ahciPortWriteReg_eq]
  refine (htracked.and (rules.entry h hJ reg value)).bind fun r ⟨ht, hJt⟩ => ?_
  split
  · exact rules.handlePort ht (Nat.zero_le 1) hJt fuel M
  · exact hJt

/-- **A write to the controller**, between lock and unlock. -/
theorem writeBody (rules : PortRules J) {s : Ahci} (h : s.TrackedDev) (hJ : J (s.ctx 0))
    (offset value : U64) (hhost : J ((pciAhciHostWrite s offset value).ctx 0)) (fuel : Nat)
    (M : Nat → Mem) :
    IfReturns (fun t => J (t.ctx 0)) (pciAhciWriteBody fuel M s offset value) := by
  rw [pciAhciWriteBody]
  split
  · exact hhost
  · split
    · rw [pciAhciPortWrite]
      by_cases hi : ahciPortNo offset = 0
      · rw [hi]
        refine (rules.writeReg h.tracked hJ fuel M _ _).bind fun c hc => Ensures.ok ?_
        rw [Ahci.ctx_put]
        exact hc
      · have hclosed := ahciPortWriteReg_closed (c := s.ctx (ahciPortNo offset))
          (h.closed _ hi) fuel M (ahciPortReg ((offset - ahciOffset) % ahciStep))
          (value.setWidth 32)
        refine (hclosed.allow fun _ _ => trivial).bind fun c hc => Ensures.ok ?_
        obtain ⟨-, -, m, p, rfl⟩ := hc
        rw [Ahci.ctx_put_ne s _ (Ne.symm hi)]
        exact rules.mem m hJ
    · exact hJ

/-- **The callback**, with its call of `ahci_handle_port`. -/
theorem callback (rules : PortRules J) {a : Nat} (err : Errno)
    (h : TrackedBut (c.p.ioreq a).slot busy (ahciReap c.lockMtx a)) (hbusy : busy.length ≤ 1)
    (hbody : IfReturns (fun r => J r.1) (ahciIoreqBody c.lockMtx a err)) (fuel : Nat)
    (M : Nat → Mem) :
    IfReturns (fun t => ∃ u, J u ∧ t = u.unlockMtx) (ahciIoreqCb fuel M a err c) := by
  rw [ahciIoreqCb]
  have htracked := (ahciIoreqBody_tracked h hbusy err).allow fun _ _ => trivial
  refine (htracked.and hbody).bind fun r hr => ?_
  obtain ⟨ht, hJt⟩ := hr
  obtain ⟨t, more⟩ := r
  cases more with
  | true => exact (rules.handlePort ht hbusy hJt fuel M).bind fun u hu => Ensures.ok ⟨u, hu, rfl⟩
  | false => exact Ensures.ok ⟨t, hJt, rfl⟩

end PortRules

end DeviceModel
