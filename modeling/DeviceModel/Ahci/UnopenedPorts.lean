import DeviceModel.Ahci.PortLoop
import DeviceModel.Ahci.PortStop

/-!
# Ports that are not opened

The controller has six ports at least, and a port that is not opened has neither a softc
pointer nor a block context. `ahci_port_reset` looks whether it has one; `ahci_port_intr`,
`ahci_port_stop` and `ahci_handle_slot` do not.
-/

namespace DeviceModel

/-! ## A start -/

/-- The port after a write to `PxCMD` with `ST` set, up to `ahci_handle_port`. -/
def ahciCmdRun (ctx : Vmctx) (p : AhciPort) (value : U32) : AhciPort :=
  ahciCmdRest ctx (ahciCmdStart ctx (ahciCmdBits p value)) value

theorem ahciCmdRun_eq (ctx : Vmctx) (p : AhciPort) (value : U32) :
    ∃ cmd cmdLst rfis tfd,
      ahciCmdRun ctx p value = { p with cmd := cmd, cmdLst := cmdLst, rfis := rfis, tfd := tfd } := by
  obtain ⟨cmd, rfis, tfd, heq⟩ :=
    ahciCmdRest_eq ctx (ahciCmdStart ctx (ahciCmdBits p value)) value
  exact ⟨cmd, _, rfis, tfd, heq⟩

theorem ahciPortWriteReg_run {c : PortCtx} {value : U32} (hst : value &&& ahciPCmdST ≠ 0)
    (fuel : Nat) (M : Nat → Mem) :
    ahciPortWriteReg fuel M c .cmd value =
      ahciHandlePort fuel M { c with p := ahciCmdRun c.sc.vmctx c.p value } := by
  rw [ahciPortWriteReg, ahciCmdWrite]
  simp only []
  rw [if_neg hst]
  rfl

/-! ## Opened ports -/

/-- The program has not followed a null pointer. -/
def Defined (e : Stop) : Prop := e ≠ .undefined

section

variable {busy : List BlockifElem} {c : PortCtx} {slot : Slot} {cfis : U64}

/-- No command of an opened port follows a null pointer. -/
theorem EndsWith.defined {e : CmdEnd} {r : Except Stop PortCtx} (he : EndsWith c slot cfis e r)
    (h : Tracked busy c) (hbusy : busy.length ≤ 1) : Ensures Defined (fun _ => True) r := by
  cases he with
  | fails _ | succeeds _ | trims _ => exact trivial
  | @issues fill ncq op hfill hok =>
    obtain ⟨t, a, aior, breq, ht, -⟩ := Tracks.issue_ok h hbusy hfill hok ncq op
    rw [ht]
    exact trivial
  | @readsNothing d fill ha hfill hok =>
    have hd : Tracked busy d := Tracked.reports h ha.reports
    obtain ⟨t, a, aior, breq, ht, -⟩ := Tracks.issue_ok hd hbusy hfill hok false .read
    rw [ht]
    exact trivial
  | @aborts fill ncq op hfill hok =>
    rw [Tracks.issue_error h hfill hok ncq op]
    exact fun h => nomatch h

theorem ahciVisit_defined (h : Tracked busy c) (hbusy : busy.length ≤ 1) :
    Ensures Defined (fun _ => True) (ahciVisit c) := by
  cases hvisits : c.p.visits with
  | false =>
    rw [ahciVisit_passes hvisits]
    exact trivial
  | true =>
    have hends := ahciVisit_ends hvisits h.opened
    generalize ahciVisit c = r at hends ⊢
    generalize slotEnd _ _ = e at hends
    cases hends with
    | ignores => exact trivial
    | control _ _ _ _ _ => exact trivial
    | command he =>
      exact he.defined (c := cmdCtx _ _ _) (Tracks.congr h rfl rfl rfl rfl rfl rfl) hbusy

theorem ahciPortLoop_defined (hbusy : busy.length ≤ 1) :
    ∀ (fuel : Nat) (M : Nat → Mem) (c : PortCtx), Tracked busy c →
      Ensures Defined (fun _ => True) (ahciPortLoop fuel M c) := by
  intro fuel
  induction fuel with
  | zero =>
    intro M c _ h
    cases h
  | succ fuel ih =>
    intro M c h
    rw [ahciPortLoop]
    split
    · exact trivial
    · split
      · exact trivial
      · split
        · exact trivial
        · have hmem : Tracked busy (c.setMem (M 0)) := Tracks.setMem h (M 0)
          have htracked := (ahciVisit_tracked hmem hbusy).allow fun _ _ => trivial
          refine ((ahciVisit_defined hmem hbusy).and htracked).bind fun t ht => ih _ _ ?_
          exact Tracks.congr ht.2 rfl rfl rfl rfl rfl rfl

theorem ahciHandlePort_defined (h : Tracked busy c) (hbusy : busy.length ≤ 1) (fuel : Nat)
    (M : Nat → Mem) : Ensures Defined (fun _ => True) (ahciHandlePort fuel M c) := by
  rw [ahciHandlePort]
  split
  · exact trivial
  · exact ahciPortLoop_defined hbusy fuel M c h

/-- **A register write** on an opened port follows no null pointer. -/
theorem ahciPortWriteReg_defined (h : Tracked [] c) (hlock : c.sc.mtx.lock ≠ 0) (fuel : Nat)
    (M : Nat → Mem) (reg : AhciPortReg) (value : U32) :
    Ensures Defined (fun _ => True) (ahciPortWriteReg fuel M c reg value) := by
  have hopen : c.p.opened = true := h.opened
  have hnone : ([] : List BlockifElem).length ≤ 1 := Nat.zero_le 1
  cases reg with
  | clb | clbu | fb | fbu | serr | sact | other => exact trivial
  | is | ie =>
    rw [ahciPortWriteReg, ahciPortIntrOn_opened]
    · exact trivial
    · exact hopen
  | sctl =>
    rw [ahciPortWriteReg]
    split <;> exact trivial
  | ci =>
    have hset : Tracked [] { c with p := { c.p with ci := c.p.ci ||| value } } :=
      Tracks.congr h rfl rfl rfl rfl rfl rfl
    exact ahciHandlePort_defined hset hnone fuel M
  | cmd =>
    by_cases hst : value &&& ahciPCmdST = 0
    · obtain ⟨d, hd, -⟩ := ahciPortWriteReg_stops h hlock hst fuel M
      rw [hd]
      exact trivial
    · obtain ⟨cmd, cmdLst, rfis, tfd, heq⟩ := ahciCmdRun_eq c.sc.vmctx c.p value
      have hstart : Tracked [] { c with p := ahciCmdRun c.sc.vmctx c.p value } := by
        rw [heq]
        exact Tracks.congr h rfl rfl rfl rfl rfl rfl
      rw [ahciPortWriteReg_run hst]
      exact ahciHandlePort_defined hstart hnone fuel M

end

/-! ## Ports that are not opened -/

/-- `ahci_handle_port` looks for a slot to hand to `ahci_handle_slot`. -/
def AhciPort.Looks (p : AhciPort) : Prop :=
  p.cmd &&& ahciPCmdST ≠ 0 ∧ p.waiting ≠ 0 ∧ tfdBusy p.tfd = false ∧ p.waitforclear = false

/-- A write of `value` to the register of a port that is not opened follows one of its null
pointers. -/
def AhciPort.FollowsNull (p : AhciPort) (reg : AhciPortReg) (value : U32) : Prop :=
  match reg with
  | .is | .ie => True
  | .cmd =>
    value &&& ahciPCmdST = 0 ∨
      (p.waiting ≠ 0 ∧ (value &&& ahciPCmdCLO ≠ 0 ∨ tfdBusy p.tfd = false) ∧
        p.waitforclear = false)
  | .ci => { p with ci := p.ci ||| value }.Looks
  | .clb | .clbu | .fb | .fbu | .sctl | .serr | .sact | .other => False

section

variable {c : PortCtx}

theorem slot_add_succ (s : Slot) (k : Nat) :
    s + 1 + Fin.ofNat 32 k = s + Fin.ofNat 32 (k + 1) := by
  apply Fin.ext
  simp only [Fin.val_add, Fin.val_ofNat, Fin.val_one]
  omega

theorem slot_add_sub (s t : Slot) : s + Fin.ofNat 32 (t - s).val = t := by
  apply Fin.ext
  simp only [Fin.val_add, Fin.val_ofNat, Fin.val_sub]
  omega

/-- The loop passes over the slots that do not wait. -/
theorem ahciPortLoop_pass {M : Nat → Mem} (hsome : c.p.waiting ≠ 0) (hidle : tfdBusy c.p.tfd = false)
    (hwait : c.p.waitforclear = false) (hpass : c.p.visits = false) (fuel : Nat) :
    ahciPortLoop (fuel + 1) M c =
      ahciPortLoop fuel (fun k => M (k + 1)) (c.setMem (M 0)).nextCcs := by
  have hpass' : (c.setMem (M 0)).p.visits = false := hpass
  rw [ahciPortLoop_step hsome hidle hwait, ahciVisit_passes hpass']
  rfl

/-- A slot that waits is handed to `ahci_handle_slot`, which follows a null pointer. -/
theorem ahciPortLoop_null (k : Nat) :
    ∀ (M : Nat → Mem) (c : PortCtx), c.p.opened = false → tfdBusy c.p.tfd = false →
      c.p.waitforclear = false → c.SlotWaits (c.p.ccs + Fin.ofNat 32 k) →
      ahciPortLoop (k + 1) M c = .error .undefined := by
  induction k with
  | zero =>
    intro M c hclosed hidle hwait hslot
    have hzero : c.p.ccs + Fin.ofNat 32 0 = c.p.ccs := Fin.add_zero _
    rw [hzero] at hslot
    have hvisits : (c.setMem (M 0)).p.visits = true := hslot
    have hvisit : ahciVisit (c.setMem (M 0)) = .error .undefined := by
      have hclosed' : (c.setMem (M 0)).p.setCmdCcs.opened = false := hclosed
      rw [ahciVisit, if_pos ((AhciPort.visits_iff _).1 hvisits), ahciHandleSlot, hclosed']
      rfl
    rw [ahciPortLoop_step (PortCtx.waiting_ne_zero hslot) hidle hwait, hvisit]
    rfl
  | succ k ih =>
    intro M c hclosed hidle hwait hslot
    have hsome : c.p.waiting ≠ 0 := PortCtx.waiting_ne_zero hslot
    cases hvisits : c.p.visits with
    | true =>
      have hvisits' : (c.setMem (M 0)).p.visits = true := hvisits
      have hclosed' : (c.setMem (M 0)).p.setCmdCcs.opened = false := hclosed
      rw [ahciPortLoop_step hsome hidle hwait, ahciVisit,
        if_pos ((AhciPort.visits_iff _).1 hvisits'), ahciHandleSlot, hclosed']
      rfl
    | false =>
      rw [ahciPortLoop_pass hsome hidle hwait hvisits]
      refine ih _ _ hclosed hidle hwait ?_
      have hnext : (c.setMem (M 0)).nextCcs.p.ccs = c.p.ccs + 1 := rfl
      rw [hnext, slot_add_succ]
      exact hslot

/-- **`ahci_handle_port`** on a port that is not opened. -/
theorem ahciHandlePort_null (hclosed : c.p.opened = false) :
    (∃ fuel M, ahciHandlePort fuel M c = .error .undefined) ↔ c.p.Looks := by
  constructor
  · rintro ⟨fuel, M, hnull⟩
    rw [ahciHandlePort] at hnull
    split at hnull
    · cases hnull
    · next hrun =>
      cases fuel with
      | zero => cases hnull
      | succ fuel =>
        rw [ahciPortLoop] at hnull
        split at hnull
        · cases hnull
        · next hsome =>
          split at hnull
          · cases hnull
          · next hidle =>
            split at hnull
            · cases hnull
            · next hwait =>
              refine ⟨hrun, hsome, ?_, Bool.eq_false_iff.2 hwait⟩
              rw [tfdBusy, bne_eq_false_iff_eq]
              exact not_not.1 hidle
  · rintro ⟨hrun, hsome, hidle, hwait⟩
    -- some slot waits, and the loop gets there
    obtain ⟨slot, hslot⟩ : ∃ slot : Slot, c.SlotWaits slot := by
      by_contra hnone
      refine hsome (slots_ext fun t => ?_)
      have hzero : (0 : U32).getLsbD t = false := BitVec.getLsbD_zero
      rw [hzero]
      exact Bool.eq_false_iff.2 fun ht => hnone ⟨t, ht⟩
    refine ⟨(slot - c.p.ccs).val + 1, fun _ => c.mem, ?_⟩
    rw [ahciHandlePort, if_neg hrun]
    exact ahciPortLoop_null _ _ c hclosed hidle hwait (by rw [slot_add_sub]; exact hslot)

/-- The status after `CLO`. -/
theorem ahciCmdRest_tfdBusy (ctx : Vmctx) (p : AhciPort) (value : U32) :
    tfdBusy (ahciCmdRest ctx p value).tfd = false ↔
      value &&& ahciPCmdCLO ≠ 0 ∨ tfdBusy p.tfd = false := by
  have hclear : ∀ tfd : U32, tfdBusy (tfd &&& ~~~(ataSBusy ||| ataSDrq)) = false := by
    intro tfd
    rw [tfdBusy, bne_eq_false_iff_eq, BitVec.and_assoc]
    simp
  by_cases hclo : value &&& ahciPCmdCLO = 0
  · have htfd : (ahciCmdRest ctx p value).tfd = p.tfd := by
      rw [ahciCmdRest]
      simp only [hclo, ne_eq, not_true_eq_false, if_false]
      split <;> split <;> rfl
    rw [htfd]
    exact ⟨.inr, fun h => h.resolve_left fun hne => hne hclo⟩
  · have htfd : (ahciCmdRest ctx p value).tfd = p.tfd &&& ~~~(ataSBusy ||| ataSDrq) := by
      rw [ahciCmdRest]
      simp only [hclo, ne_eq, not_false_eq_true, if_true]
      split <;> split <;> rfl
    rw [htfd, hclear]
    exact ⟨fun _ => .inl hclo, fun _ => rfl⟩

/-- A bit of `PxCMD` that a start leaves to the guest. -/
theorem ahciCmdRun_bit {bit : U32} (hw : ahciPCmdWritable &&& bit = bit)
    (hcr : ahciPCmdCR &&& bit = 0) (hfr : ahciPCmdFR &&& bit = 0)
    (hnfr : ~~~ahciPCmdFR &&& bit = bit) (hclo : ~~~ahciPCmdCLO &&& bit = bit)
    (hicc : ~~~ahciPCmdICCMask &&& bit = bit) (ctx : Vmctx) (p : AhciPort) (value : U32) :
    (ahciCmdRun ctx p value).cmd &&& bit = value &&& bit := by
  have hnw : ~~~ahciPCmdWritable &&& bit = 0 := by
    rw [← hw, ← BitVec.and_assoc]
    simp
  rw [ahciCmdRun, ahciCmdRest_bits hfr hnfr hclo hicc, ahciCmdStart, ahciCmdBits]
  simp only [BitVec.and_or_distrib_right, BitVec.and_assoc, hnw, hcr]
  rw [BitVec.and_comm ahciPCmdWritable, BitVec.and_assoc, BitVec.and_comm bit, hw]
  simp

/-- A start of a port that is not opened. -/
theorem ahciCmdRun_looks (ctx : Vmctx) (p : AhciPort) {value : U32}
    (hst : value &&& ahciPCmdST ≠ 0) :
    (ahciCmdRun ctx p value).Looks ↔
      p.waiting ≠ 0 ∧ (value &&& ahciPCmdCLO ≠ 0 ∨ tfdBusy p.tfd = false) ∧
        p.waitforclear = false := by
  have htfd : tfdBusy (ahciCmdRun ctx p value).tfd = false ↔ _ :=
    ahciCmdRest_tfdBusy ctx (ahciCmdStart ctx (ahciCmdBits p value)) value
  have hrun : (ahciCmdRun ctx p value).cmd &&& ahciPCmdST ≠ 0 := by
    rw [@ahciCmdRun_bit ahciPCmdST (by decide) (by decide) (by decide) (by decide) (by decide)
      (by decide)]
    exact hst
  obtain ⟨cmd, cmdLst, rfis, tfd, heq⟩ := ahciCmdRun_eq ctx p value
  rw [AhciPort.Looks]
  rw [heq] at htfd hrun ⊢
  constructor
  · rintro ⟨-, hsome, hidle, hwait⟩
    exact ⟨hsome, htfd.1 hidle, hwait⟩
  · rintro ⟨hsome, hidle, hwait⟩
    exact ⟨hrun, hsome, htfd.2 hidle, hwait⟩

/-- **A register write** on a port that is not opened. -/
theorem ahciPortWriteReg_null (hclosed : c.p.opened = false) (reg : AhciPortReg) (value : U32) :
    (∃ fuel M, ahciPortWriteReg fuel M c reg value = .error .undefined) ↔
      c.p.FollowsNull reg value := by
  have hno : ∀ t : PortCtx, ¬ ∃ (_ : Nat) (_ : Nat → Mem), (Except.ok t : Except Stop PortCtx) =
      .error .undefined := by
    rintro t ⟨-, -, h⟩
    cases h
  cases reg with
  | clb | clbu | fb | fbu | serr | sact | other =>
    rw [AhciPort.FollowsNull]
    exact iff_of_false (hno _) id
  | sctl =>
    rw [AhciPort.FollowsNull]
    refine iff_of_false ?_ id
    rintro ⟨fuel, M, h⟩
    rw [ahciPortWriteReg] at h
    split at h <;> cases h
  | is | ie =>
    rw [AhciPort.FollowsNull]
    refine iff_of_true ⟨0, fun _ => c.mem, ?_⟩ trivial
    rw [ahciPortWriteReg, ahciPortIntrOn_closed]
    exact hclosed
  | ci => exact ahciHandlePort_null (c := { c with p := { c.p with ci := c.p.ci ||| value } }) hclosed
  | cmd =>
    rw [AhciPort.FollowsNull]
    by_cases hst : value &&& ahciPCmdST = 0
    · refine iff_of_true ⟨0, fun _ => c.mem, ?_⟩ (.inl hst)
      have hbits : (ahciCmdBits c.p value).opened = false := hclosed
      rw [ahciPortWriteReg, ahciCmdWrite]
      simp only []
      rw [if_pos hst, ahciPortStop, hbits]
      rfl
    · have hrest : (ahciCmdRun c.sc.vmctx c.p value).opened = false := by
        obtain ⟨cmd, cmdLst, rfis, tfd, heq⟩ := ahciCmdRun_eq c.sc.vmctx c.p value
        rw [heq]
        exact hclosed
      have hnull := ahciHandlePort_null (c := { c with p := ahciCmdRun c.sc.vmctx c.p value }) hrest
      simp only [ahciPortWriteReg_run hst]
      rw [hnull, ahciCmdRun_looks c.sc.vmctx c.p hst]
      exact ⟨.inr, fun h => h.resolve_left hst⟩

end

/-! ## The result -/

/-- The write reaches no null pointer: it is to no port, or to one that is opened, or the
register's case gets along without the softc pointer and the block context. -/
def AhciHba.Usable (s : AhciHba) (offset value : U64) : Prop :=
  ahciOffset ≤ offset → offset < s.regsEnd → (s.port (ahciPortNo offset)).opened = false →
    ¬ (s.port (ahciPortNo offset)).FollowsNull (ahciPortReg ((offset - ahciOffset) % ahciStep))
      (value.setWidth 32)

/-- A write to a port stops as its case does. -/
theorem AhciHba.pciAhciWrite_port (s : AhciHba) {offset : U64} (halign : offset % 4 = 0)
    (hlow : ahciOffset ≤ offset) (hend : offset < s.regsEnd) (fuel : Nat) (M : Nat → Mem)
    (value : U64) :
    s.pciAhciWrite fuel M 5 offset value = .error .undefined ↔
      ahciPortWriteReg fuel M (s.lockMtx.ctx (ahciPortNo offset))
        (ahciPortReg ((offset - ahciOffset) % ahciStep)) (value.setWidth 32) =
          .error .undefined := by
  have hbar : ((5 : Nat) == 5) = true := rfl
  have hend' : offset < s.lockMtx.regsEnd := hend
  have halign' : (offset % 4 == 0) = true := beq_iff_eq.2 halign
  have hlow' : ¬ offset < ahciOffset := BitVec.not_lt.2 hlow
  rw [pciAhciWrite, Except.bind_ok (assert_eq_ok (u := ()) |>.2 hbar),
    Except.bind_ok (assert_eq_ok (u := ()) |>.2 halign'), pciAhciWriteBody, if_neg hlow', if_pos hend',
    pciAhciPortWrite]
  cases ahciPortWriteReg fuel M (s.lockMtx.ctx (ahciPortNo offset))
    (ahciPortReg ((offset - ahciOffset) % ahciStep)) (value.setWidth 32) with
  | error e =>
    simp only [bind, Except.bind]
    constructor <;> rintro ⟨⟩ <;> rfl
  | ok c =>
    simp only [bind, Except.bind]
    apply iff_of_false
    · intro h
      cases h
    · intro h
      cases h

/-- Any other write returns. -/
theorem AhciHba.pciAhciWrite_host (s : AhciHba) {offset : U64} (halign : offset % 4 = 0)
    (hno : ¬ (ahciOffset ≤ offset ∧ offset < s.regsEnd)) (fuel : Nat) (M : Nat → Mem)
    (value : U64) : ∃ t, s.pciAhciWrite fuel M 5 offset value = .ok t := by
  have hbar : ((5 : Nat) == 5) = true := rfl
  have halign' : (offset % 4 == 0) = true := beq_iff_eq.2 halign
  rw [pciAhciWrite, Except.bind_ok (assert_eq_ok (u := ()) |>.2 hbar),
    Except.bind_ok (assert_eq_ok (u := ()) |>.2 halign'), pciAhciWriteBody]
  by_cases hlow : offset < ahciOffset
  · rw [if_pos hlow]
    exact ⟨_, rfl⟩
  · have hend : ¬ offset < s.lockMtx.regsEnd := fun hend => hno ⟨BitVec.not_lt.1 hlow, hend⟩
    rw [if_neg hlow, if_neg hend]
    exact ⟨_, rfl⟩

/-- **Guest writes reach only usable ports** exactly if they are to no port that is not opened,
or to a register whose case needs nothing of it. Every opened port has its own number. -/
theorem guest_writes_reach_usable_ports {s : HbaSys} (h : Reaches HbaStep HbaInitial s) :
    (∀ i, (s.dev.port i).opened = true → (s.dev.port i).port = i) ∧
    ∀ offset value : U64, offset % 4 = 0 →
      ((∀ fuel M, s.dev.pciAhciWrite fuel M 5 offset value ≠ .error .undefined) ↔
        s.dev.Usable offset value) := by
  have hok := h.ok
  refine ⟨fun i hi => (hok.opened i hi).2.number, fun offset value halign => ?_⟩
  by_cases hin : ahciOffset ≤ offset ∧ offset < s.dev.regsEnd
  · obtain ⟨hlow, hend⟩ := hin
    simp only [Ne, s.dev.pciAhciWrite_port halign hlow hend]
    have hctx : (s.dev.lockMtx.ctx (ahciPortNo offset)).p = s.dev.port (ahciPortNo offset) := rfl
    cases hopen : (s.dev.port (ahciPortNo offset)).opened with
    | true =>
      refine iff_of_true (fun fuel M hnull => ?_) fun _ _ hclosed => ?_
      · have hport : PortOk (ahciPortNo offset) (s.dev.lockMtx.ctx (ahciPortNo offset)) :=
          (hok.opened _ hopen).2.congr rfl rfl rfl
        exact (ahciPortWriteReg_defined hport.tracked Nat.one_ne_zero fuel M _ _).of_error hnull rfl
      · exact absurd (hopen.symm.trans hclosed) (by decide)
    | false =>
      have hnull := @ahciPortWriteReg_null (s.dev.lockMtx.ctx (ahciPortNo offset)) hopen
        (ahciPortReg ((offset - ahciOffset) % ahciStep)) (value.setWidth 32)
      constructor
      · intro hnone _ _ _ hfollows
        obtain ⟨fuel, M, hundef⟩ := hnull.2 hfollows
        exact hnone fuel M hundef
      · intro husable fuel M hundef
        exact husable hlow hend hopen (hnull.1 ⟨fuel, M, hundef⟩)
  · refine iff_of_true (fun fuel M hnull => ?_) fun hlow hend => absurd ⟨hlow, hend⟩ hin
    obtain ⟨t, ht⟩ := s.dev.pciAhciWrite_host halign hin fuel M value
    rw [ht] at hnull
    cases hnull

/-- With one disk, which has carried out a command: a further command on its port, and the command
list of the second port, which is not open. -/
theorem guest_writes_reach_usable_ports_second : ∃ s, Reaches HbaStep HbaInitial s ∧
    AhciEvent.d2h 0 0x50 ∈ s.dev.log 0 ∧ (s.dev.port 1).opened = false ∧
    ∀ offset ∈ [0x138, 0x180], ∀ fuel M, s.dev.pciAhciWrite fuel M 5 offset 2 ≠ .error .undefined := by
  have hrun : ((hbaBlank "hd:a").dev.writes 3 (fun _ => commandMem 0xe5#8)
      [(0x108, 0x1000), (0x118, 0x11), (0x138, 1)]).toOption.any (fun s =>
        decide (AhciEvent.d2h 0 0x50 ∈ s.log 0) && (s.port 0).opened &&
          !(s.port 1).opened) = true := by
    decide +kernel
  obtain ⟨s, hs, hend⟩ := (Option.any_eq_true _ _).1 hrun
  simp only [Bool.and_eq_true, decide_eq_true_eq, Bool.not_eq_true'] at hend
  obtain ⟨⟨hlog, hopen⟩, hclosed⟩ := hend
  have hreach := AhciHba.writes_reaches id _ (.start (hbaBlank_initial "hd:a"))
    (Except.toOption_eq_some.1 hs)
  -- the port of the first register is open, and `PxCLB` of the second looks nothing up
  have hfirst : s.Usable 0x138 2 := fun _ _ hnone => absurd (hopen.symm.trans hnone) (by decide)
  have hsecond : s.Usable 0x180 2 := fun _ _ _ => id
  refine ⟨⟨s, false⟩, hreach, hlog, hclosed, fun offset hmem => ?_⟩
  rw [List.mem_cons, List.mem_singleton] at hmem
  obtain rfl | rfl := hmem
  · exact ((guest_writes_reach_usable_ports hreach).2 0x138 2 (by decide)).2 hfirst
  · exact ((guest_writes_reach_usable_ports hreach).2 0x180 2 (by decide)).2 hsecond

/-- With one disk, a write to `PxIE` of the second port follows a null pointer. -/
theorem guest_write_follows_null :
    ¬ ∀ s, Reaches HbaStep HbaInitial s → ∀ offset value : U64, offset % 4 = 0 →
      ∀ fuel M, s.dev.pciAhciWrite fuel M 5 offset value ≠ .error .undefined := by
  intro h
  have hclosed : ((hbaBlank "hd:a").dev.port (ahciPortNo 0x194)).opened = false := by decide +kernel
  have hend : (0x194 : U64) < (hbaBlank "hd:a").dev.regsEnd := by decide +kernel
  refine h (hbaBlank "hd:a") (.start (hbaBlank_initial "hd:a")) 0x194 1 (by decide) 0 (fun _ _ => 0) ?_
  rw [AhciHba.pciAhciWrite_port _ (by decide) (by decide) hend]
  have hreg : ahciPortReg ((0x194 - ahciOffset) % ahciStep) = .ie := by decide
  rw [hreg, ahciPortWriteReg, ahciPortIntrOn_closed]
  exact hclosed

end DeviceModel
