import DeviceModel.Ahci.TrackedRuns

/-!
# Small steps of the controller

`AhciStep` takes a register write, and the service of one request, as one event. Here the
iterations of `ahci_handle_port` are events of their own, so that a run says what happens
inside a call also where the call does not return. Every event of `AhciStep` is a run of
small steps.
-/

namespace DeviceModel

/-! ## Up to `ahci_handle_port` -/

/-- `pci_ahci_port_write` up to `ahci_handle_port`; also whether it gets there. -/
def ahciPortWriteEntry (c : PortCtx) (reg : AhciPortReg) (value : U32) :
    Except Stop (PortCtx × Bool) :=
  match reg with
  | .cmd => (ahciCmdWrite c value).map (·, true)
  | .ci => .ok ({ c with p := { c.p with ci := c.p.ci ||| value } }, true)
  | reg => (ahciPortWriteReg 0 (fun _ => c.mem) c reg value).map (·, false)

/-- A register write, from there. -/
theorem ahciPortWriteReg_eq (fuel : Nat) (M : Nat → Mem) (c : PortCtx) (reg : AhciPortReg)
    (value : U32) :
    ahciPortWriteReg fuel M c reg value =
      (ahciPortWriteEntry c reg value >>= fun r =>
        if r.2 then ahciHandlePort fuel M r.1 else .ok r.1) := by
  have hmap : ∀ (m : Except Stop PortCtx) (f : PortCtx → Except Stop PortCtx) (b : Bool),
      (m.map (·, b) >>= fun r => if r.2 then f r.1 else .ok r.1) =
        (m >>= fun t => if b then f t else .ok t) := by
    intro m f b
    cases m <;> rfl
  have hret : ∀ m : Except Stop PortCtx,
      (m >>= fun t => if false then ahciHandlePort fuel M t else .ok t) = m := by
    intro m
    cases m <;> rfl
  cases reg with
  | cmd =>
    rw [ahciPortWriteEntry, hmap, ahciPortWriteReg]
    rfl
  | ci => rfl
  | clb | clbu | fb | fbu | is | ie | sctl | serr | sact | other =>
    exact ((hmap _ _ false).trans (hret _)).symm

/-- What is known of the register writes is known of the way to `ahci_handle_port`. -/
theorem ahciPortWriteEntry_ensures {allowed : Stop → Prop} {Q : PortCtx → Prop} {c : PortCtx}
    {value : U32} (hcmd : Ensures allowed Q (ahciCmdWrite c value))
    (hci : Q { c with p := { c.p with ci := c.p.ci ||| value } }) (reg : AhciPortReg)
    (hreg : reg ≠ .cmd → reg ≠ .ci →
      Ensures allowed Q (ahciPortWriteReg 0 (fun _ => c.mem) c reg value)) :
    Ensures allowed (fun r => Q r.1) (ahciPortWriteEntry c reg value) := by
  have hmap : ∀ (m : Except Stop PortCtx) (b : Bool), Ensures allowed Q m →
      Ensures allowed (fun r => Q r.1) (m.map (·, b)) :=
    fun m b hm => hm.map fun _ ht => ht
  cases reg with
  | cmd => exact hmap _ true hcmd
  | ci => exact hci
  | clb | clbu | fb | fbu | is | ie | sctl | serr | sact | other =>
    exact hmap _ false (hreg (by decide) (by decide))

/-- `ahci_handle_port` enters its loop. -/
def PortCtx.runs (c : PortCtx) : Bool := c.p.cmd &&& ahciPCmdST != 0

/-- The loop of `ahci_handle_port` goes on. -/
def PortCtx.loops (c : PortCtx) : Bool :=
  c.p.waiting != 0 && !tfdBusy c.p.tfd && !c.p.waitforclear

/-! ## States and events -/

/-- Where the controller is. -/
inductive AhciPhase : Type where
  /-- between two requests -/
  | idle
  /-- in `blockif_thr`, before a call of `blockif_dequeue` -/
  | serving
  /-- in `pci_ahci_port_write` for port `i`, and whether in the loop of `ahci_handle_port` -/
  | write (i : Nat) (looping : Bool)
  /-- in the callback for an element of the block interface, and whether in that loop -/
  | callback (be : BlockifElem) (looping : Bool)

namespace AhciPhase

/-- The port whose slots are looked at. -/
def looping : AhciPhase → Option Nat
  | write i true => some i
  | callback _ true => some 0
  | _ => none

/-- The elements on the busy queue. -/
def busy : AhciPhase → List BlockifElem
  | callback be _ => [{ be with beStatus := .done }]
  | _ => []

end AhciPhase

/-- The controller, and where it is. -/
structure AhciSmall where
  dev : Ahci
  phase : AhciPhase

/-- What can happen. -/
inductive AhciSmallLabel : Type where
  /-- a write to a register of no port -/
  | hostWrite (offset value : U64)
  /-- a write to a register of a port, up to `ahci_handle_port` -/
  | portWrite (offset value : U64)
  | read (regoff : U64) (size : Nat)
  | config (command : BitVec 16) (msi : PciMsi) (msixEnabled : Bool)
  /-- the guest stores to its memory, and the stack changes -/
  | guest (mem : Mem) (stack : Nat → U8)
  /-- `blockif_thr` starts -/
  | enter
  /-- it serves an element, and the callback goes as far as `ahci_handle_port` -/
  | serve
  /-- `ahci_handle_port` looks at a slot -/
  | visit
  /-- the register write returns -/
  | written
  /-- the callback returns -/
  | served
  /-- `blockif_thr` finds no request and returns -/
  | leave

/-- The offset is that of a register of a port. -/
def AhciPortOffset (offset : U64) : Prop := ahciOffset ≤ offset ∧ offset < ahciEnd

/-- `pci_ahci_write` between lock and unlock, for an offset that is not. -/
def ahciHostWrite (s : Ahci) (offset value : U64) : Ahci :=
  if offset < ahciOffset then pciAhciHostWrite s offset value else s

namespace AhciSmall

/-- The view of the port whose slots are looked at. -/
def looksAt (s : AhciSmall) (i : Nat) : Prop :=
  s.phase.looping = some i ∧ (s.dev.ctx i).loops = true

/-- No slot will be looked at. -/
def Quits (s : AhciSmall) : Prop :=
  ∀ i, s.phase.looping = some i → (s.dev.ctx i).loops = false

end AhciSmall

/-- One event. -/
inductive AhciSmallStep : AhciSmall → AhciSmallLabel → AhciSmall → Prop where
  | hostWrite {s : AhciSmall} (offset value : U64) : s.phase = .idle → offset % 4 = 0 →
      ¬ AhciPortOffset offset →
      AhciSmallStep s (.hostWrite offset value)
        { s with dev := (ahciHostWrite s.dev.lockMtx offset value).unlockMtx }
  | portWrite {s : AhciSmall} {t : PortCtx} {more : Bool} (offset value : U64) :
      s.phase = .idle → offset % 4 = 0 → AhciPortOffset offset →
      ahciPortWriteEntry (s.dev.lockMtx.ctx (ahciPortNo offset))
        (ahciPortReg ((offset - ahciOffset) % ahciStep)) (value.setWidth 32) = .ok (t, more) →
      AhciSmallStep s (.portWrite offset value)
        { dev := s.dev.lockMtx.put (ahciPortNo offset) t
          phase := .write (ahciPortNo offset) (more && t.runs) }
  | read {s : AhciSmall} {t : Ahci} {v : U32} (regoff : U64) (size : Nat) : s.phase = .idle →
      pciAhciRead s.dev 5 regoff size = .ok (t, v) →
      AhciSmallStep s (.read regoff size) { s with dev := t }
  | config {s : AhciSmall} (command : BitVec 16) (msi : PciMsi) (msixEnabled : Bool) :
      s.phase = .idle →
      AhciSmallStep s (.config command msi msixEnabled)
        { s with dev := s.dev.setConfig command msi msixEnabled }
  | guest {s : AhciSmall} (mem : Mem) (stack : Nat → U8) :
      AhciSmallStep s (.guest mem stack) { s with dev := s.dev.setMem mem stack }
  | enter {s : AhciSmall} : s.phase = .idle →
      AhciSmallStep s .enter { dev := s.dev.setBcMtx pthreadMutexLock, phase := .serving }
  | serve {s : AhciSmall} {be : BlockifElem} {bc : BlockifCtxt} {d t : PortCtx} {err : Errno}
      {more : Bool} : s.phase = .serving →
      blockifDequeue s.dev.blk.bc = .ok (some be, bc) →
      blockifProcBody (ahciClient 0 fun _ => s.dev.blk.mem)
        { s.dev.ctx 0 with blk := { s.dev.blk with bc := bc } } be = (d, err) →
      ahciIoreqBody d.lockMtx be.beReq err = .ok (t, more) →
      AhciSmallStep s .serve { dev := s.dev.put 0 t, phase := .callback be (more && t.runs) }
  | visit {s : AhciSmall} {t : PortCtx} {i : Nat} : s.looksAt i →
      ahciVisit (s.dev.ctx i) = .ok t →
      AhciSmallStep s .visit { s with dev := s.dev.put i t.nextCcs }
  | written {s : AhciSmall} {i : Nat} {looping : Bool} : s.phase = .write i looping → s.Quits →
      AhciSmallStep s .written { dev := s.dev.unlockMtx, phase := .idle }
  | served {s : AhciSmall} {be : BlockifElem} {looping : Bool} : s.phase = .callback be looping →
      s.Quits →
      AhciSmallStep s .served
        { dev := s.dev.put 0 (blockifFinish (ahciClient 0 fun _ => s.dev.blk.mem)
            { be with beStatus := .done } (s.dev.ctx 0).unlockMtx)
          phase := .serving }
  | leave {s : AhciSmall} : s.phase = .serving →
      blockifFirstPend s.dev.blk.bc.bcPendq = .ok none →
      AhciSmallStep s .leave { dev := s.dev.setBcMtx pthreadMutexUnlock, phase := .idle }

/-- After `pci_ahci_init`. -/
def AhciSmallInitial (s : AhciSmall) : Prop := AhciInitial ⟨s.dev, false⟩ ∧ s.phase = .idle

/-! ## Every event is a run of small steps -/

/-- The controller before or after a whole event. -/
def AhciSys.small (s : AhciSys) : AhciSmall := ⟨s.dev, if s.serving then .serving else .idle⟩

section

variable {s : AhciSmall} {i : Nat} {c t : PortCtx}

@[simp] theorem Ahci.put_setMem (s : Ahci) (i : Nat) (c : PortCtx) (m : Mem) :
    (s.put i c).setMem m c.stack = s.put i (c.setMem m) := rfl

theorem tfdBusy_false {tfd : U32} :
    tfdBusy tfd = false ↔ ¬ tfd &&& (ataSBusy ||| ataSDrq) ≠ 0 := by
  rw [tfdBusy, bne_eq_false_iff_eq, not_not]

/-- The loop of `ahci_handle_port` is a run. -/
theorem ahciPortLoop_small (hphase : s.phase.looping = some i) :
    ∀ (fuel : Nat) (M : Nat → Mem) (c : PortCtx), ahciPortLoop fuel M c = .ok t →
      ∃ ls, Run AhciSmallStep ⟨s.dev.put i c, s.phase⟩ ls ⟨s.dev.put i t, s.phase⟩ ∧
        t.loops = false := by
  intro fuel
  induction fuel with
  | zero => exact fun _ _ h => (nomatch h)
  | succ fuel ih =>
    intro M c h
    rw [ahciPortLoop] at h
    split at h
    · next hnone =>
      cases h
      exact ⟨[], .nil _, by rw [PortCtx.loops, bne_eq_false_iff_eq.2 hnone]; rfl⟩
    · next hsome =>
      split at h
      · next hbusy =>
        cases h
        exact ⟨[], .nil _, by rw [PortCtx.loops, bne_iff_ne.2 hsome, tfdBusy, bne_iff_ne.2 hbusy]; rfl⟩
      · next hidle =>
        split at h
        · next hwait =>
          cases h
          exact ⟨[], .nil _, by rw [PortCtx.loops, hwait, Bool.not_true, Bool.and_false]⟩
        · next hwait =>
          obtain ⟨u, hu, h⟩ := Except.bind_eq_ok.1 h
          obtain ⟨ls, hrun, hquits⟩ := ih _ u.nextCcs h
          have hguest := @AhciSmallStep.guest ⟨s.dev.put i c, s.phase⟩ (M 0) c.stack
          rw [Ahci.put_setMem] at hguest
          have hloops : (c.setMem (M 0)).loops = true := by
            have hsome' : (c.setMem (M 0)).p.waiting ≠ 0 := hsome
            have hidle' : tfdBusy (c.setMem (M 0)).p.tfd = false := tfdBusy_false.2 hidle
            have hwait' : (c.setMem (M 0)).p.waitforclear = false := Bool.eq_false_iff.2 hwait
            rw [PortCtx.loops, bne_iff_ne.2 hsome', hidle', hwait']
            rfl
          have hvisit : AhciSmallStep ⟨s.dev.put i (c.setMem (M 0)), s.phase⟩ .visit
              ⟨(s.dev.put i (c.setMem (M 0))).put i u.nextCcs, s.phase⟩ := by
            refine .visit ⟨hphase, ?_⟩ ?_
            · rw [Ahci.ctx_put]
              exact hloops
            · rw [Ahci.ctx_put]
              exact hu
          rw [Ahci.put_put] at hvisit
          exact ⟨_, ((Run.single hguest).trans (Run.single hvisit)).trans hrun, hquits⟩

/-- And so is the call, with the way to it. -/
theorem ahciHandlePort_small {phase : Bool → AhciPhase} (hon : (phase true).looping = some i)
    (hoff : (phase false).looping = none) {more : Bool} {fuel : Nat} {M : Nat → Mem} {dev : Ahci}
    (h : (if more then ahciHandlePort fuel M c else .ok c) = .ok t) :
    ∃ ls, Run AhciSmallStep ⟨dev.put i c, phase (more && c.runs)⟩ ls
        ⟨dev.put i t, phase (more && c.runs)⟩ ∧
      AhciSmall.Quits ⟨dev.put i t, phase (more && c.runs)⟩ := by
  have hquits : ∀ c, AhciSmall.Quits ⟨dev.put i c, phase false⟩ := by
    intro c j hj
    rw [hoff] at hj
    cases hj
  cases more with
  | false =>
    cases h
    exact ⟨[], .nil _, hquits c⟩
  | true =>
    rw [if_pos rfl, ahciHandlePort] at h
    split at h
    · next hstop =>
      cases h
      have hruns : c.runs = false := bne_eq_false_iff_eq.2 hstop
      rw [hruns]
      exact ⟨[], .nil _, hquits c⟩
    · next hrun =>
      have hruns : c.runs = true := bne_iff_ne.2 hrun
      rw [hruns]
      obtain ⟨ls, hls, hend⟩ := ahciPortLoop_small (s := ⟨dev, phase true⟩) hon fuel M c h
      refine ⟨ls, hls, fun j hj => ?_⟩
      have hij : some i = some j := hon.symm.trans hj
      cases hij
      rw [Ahci.ctx_put]
      exact hend

end

/-- `pci_ahci_write` between lock and unlock, by the kind of its offset. -/
theorem pciAhciWriteBody_eq (fuel : Nat) (M : Nat → Mem) (s : Ahci) (offset value : U64) :
    pciAhciWriteBody fuel M s offset value =
      if ahciOffset ≤ offset ∧ offset < ahciEnd then pciAhciPortWrite fuel M s offset value
      else .ok (ahciHostWrite s offset value) := by
  have hle : ahciOffset ≤ ahciEnd := by decide
  rw [pciAhciWriteBody, ahciHostWrite]
  by_cases hlow : offset < ahciOffset
  · rw [if_pos hlow, if_pos hlow, if_neg fun h => absurd hlow (BitVec.not_lt.2 h.1)]
  · rw [if_neg hlow, if_neg hlow]
    by_cases hend : offset < ahciEnd
    · rw [if_pos hend, if_pos ⟨BitVec.not_lt.1 hlow, hend⟩]
    · rw [if_neg hend, if_neg fun h => hend h.2]

/-- **Every event of the controller is a run of small steps.** -/
theorem AhciStep.small {s t : AhciSys} {l : AhciLabel} (h : AhciStep s l t) :
    ∃ ls, Run AhciSmallStep s.small ls t.small := by
  have hidle : s.serving = false → s.small.phase = .idle := fun h => by
    rw [AhciSys.small, h]
    rfl
  have hbusy : s.serving = true → s.small.phase = .serving := fun h => by
    rw [AhciSys.small, h]
    rfl
  cases h with
  | @write u fuel M baridx offset value hserving hw =>
    obtain ⟨_, -, hw⟩ := Except.bind_eq_ok.1 hw
    obtain ⟨_, halign, hw⟩ := Except.bind_eq_ok.1 hw
    obtain ⟨d, hd, hw⟩ := Except.bind_eq_ok.1 hw
    cases hw
    have halign' : offset % 4 = 0 := beq_iff_eq.1 (assert_eq_ok.1 halign)
    rw [pciAhciWriteBody_eq] at hd
    split at hd
    · next hport =>
      obtain ⟨c, hc, hd⟩ := Except.bind_eq_ok.1 hd
      cases hd
      rw [ahciPortWriteReg_eq] at hc
      obtain ⟨⟨e, more⟩, he, hc⟩ := Except.bind_eq_ok.1 hc
      obtain ⟨ls, hls, hquits⟩ :=
        @ahciHandlePort_small _ _ _ (.write (ahciPortNo offset)) rfl rfl more fuel M s.dev.lockMtx hc
      have hentry := AhciSmallStep.portWrite (s := s.small) offset value (hidle hserving) halign' hport he
      have hrun : ∃ ls, Run AhciSmallStep s.small ls
          ⟨(s.dev.lockMtx.put (ahciPortNo offset) c).unlockMtx, .idle⟩ :=
        ⟨_, ((Run.single hentry).trans hls).snoc (.written rfl hquits)⟩
      rwa [← hidle hserving] at hrun
    · next hport =>
      cases hd
      exact ⟨_, Run.single (.hostWrite (s := s.small) offset value (hidle hserving) halign' hport)⟩
  | @read u v baridx regoff size hserving hr =>
    have hbar : baridx = 5 := by
      obtain ⟨_, hbar, -⟩ := Except.bind_eq_ok.1 hr
      exact beq_iff_eq.1 (assert_eq_ok.1 hbar)
    rw [hbar] at hr
    exact ⟨_, Run.single (.read (s := s.small) regoff size (hidle hserving) hr)⟩
  | config command msi msixEnabled hserving =>
    exact ⟨_, Run.single (.config (s := s.small) command msi msixEnabled (hidle hserving))⟩
  | guest mem stack => exact ⟨_, Run.single (.guest (s := s.small) mem stack)⟩
  | enter hserving => exact ⟨_, Run.single (.enter (s := s.small) (hidle hserving))⟩
  | leave hserving hnone => exact ⟨_, Run.single (.leave (s := s.small) (hbusy hserving) hnone)⟩
  | @serve u fuel M hserving hserve =>
    obtain ⟨⟨be?, bc⟩, hdeq, hserve⟩ := Except.bind_eq_ok.1 hserve
    cases be? with
    | none => cases hserve
    | some be =>
      obtain ⟨d, hd, hserve⟩ := Except.bind_eq_ok.1 hserve
      cases hserve
      obtain ⟨⟨e, more⟩, he, hd⟩ := Except.bind_eq_ok.1 hd
      have hentry := AhciSmallStep.serve (s := s.small) (hbusy hserving) hdeq rfl he
      have hcall : (if more then ahciHandlePort fuel M e else .ok e) >>= (fun t => .ok t.unlockMtx) =
          (.ok d : Except Stop PortCtx) := by
        rw [← hd]
        cases more with
        | true => rfl
        | false => rfl
      obtain ⟨f, hf, hunlock⟩ := Except.bind_eq_ok.1 hcall
      cases hunlock
      obtain ⟨ls, hls, hquits⟩ :=
        @ahciHandlePort_small _ _ _ (.callback be) rfl rfl more fuel M s.dev hf
      have hexit := AhciSmallStep.served (s := ⟨s.dev.put 0 f, .callback be (more && e.runs)⟩) rfl hquits
      rw [Ahci.put_put, Ahci.ctx_put] at hexit
      have hrun : ∃ ls, Run AhciSmallStep s.small ls
          ⟨s.dev.put 0 (blockifFinish (ahciClient fuel M) { be with beStatus := .done } f.unlockMtx),
            .serving⟩ :=
        ⟨_, ((Run.single hentry).trans hls).snoc hexit⟩
      rwa [← hbusy hserving] at hrun

/-- What the controller reaches, small steps reach. -/
theorem Reaches.small {s : AhciSys} (h : Reaches AhciStep AhciInitial s) :
    Reaches AhciSmallStep AhciSmallInitial s.small := by
  induction h with
  | @start s hs =>
    have hidle : s.serving = false := hs.2
    have hdev : AhciInitial ⟨s.dev, false⟩ := ⟨hs.1, rfl⟩
    rw [AhciSys.small, hidle]
    exact .start ⟨hdev, rfl⟩
  | next _ hstep ih =>
    obtain ⟨ls, hrun⟩ := hstep.small
    exact hrun.extends_reaches ih

/-! ## Requests are tracked -/

section

variable {c d t : PortCtx}

theorem ahciPortWriteEntry_tracked (h : Tracked [] c) (reg : AhciPortReg) (value : U32) :
    Ensures IssueSafe (fun r => Tracked [] r.1) (ahciPortWriteEntry c reg value) :=
  ahciPortWriteEntry_ensures (ahciCmdWrite_tracked h value) (Tracks.congr h rfl rfl rfl rfl rfl rfl)
    reg fun _ _ => ahciPortWriteReg_tracked h 0 _ reg value

theorem ahciPortWriteEntry_closed (h : c.p.opened = false) (reg : AhciPortReg) (value : U32) :
    Ensures ClosedStop (fun r => Closed c r.1) (ahciPortWriteEntry c reg value) :=
  ahciPortWriteEntry_ensures (ahciCmdWrite_closed h value) (Closed.port h id) reg
    fun _ _ => ahciPortWriteReg_closed h 0 _ reg value

/-- What `blockif_thr` serves is the first element of the queue. -/
theorem serve_eq (h : Tracked [] c) {be : BlockifElem} {bc : BlockifCtxt} {err : Errno} {m : Mem}
    (hdeq : blockifDequeue c.blk.bc = .ok (some be, bc))
    (hproc : blockifProcBody (ahciClient 0 fun _ => m) { c with blk := { c.blk with bc := bc } } be =
      (d, err)) :
    ∃ e q, c.blk.bc.bcPendq = e :: q ∧ be = { e with beStatus := .busy } ∧ d = serveEntry c e q ∧
      err = serveErr c e := by
  rw [blockifDequeue_eq h.queue h.busyq] at hdeq
  cases hpend : c.blk.bc.bcPendq with
  | nil =>
    rw [hpend] at hdeq
    cases hdeq
  | cons e q =>
    rw [hpend] at hdeq
    cases hdeq
    refine ⟨e, q, rfl, rfl, ?_⟩
    simp only [blockifProcBody, ahciClient, blockifTransfer_bc, blockifSetDone, List.map_cons,
      List.map_nil, if_true] at hproc
    cases hproc
    exact ⟨rfl, rfl⟩

end

/-- Port 0 is tracked, also inside a call, and the other ports are not opened. -/
structure AhciSmall.Ok (s : AhciSmall) : Prop where
  tracked : Tracked s.phase.busy (s.dev.ctx 0)
  closed : ∀ i, i ≠ 0 → (s.dev.port i).opened = false
  silent : ∀ i, i ≠ 0 → (s.dev.port i).is = 0

namespace AhciSmall.Ok

variable {s t : AhciSmall} {l : AhciSmallLabel}

theorem dev (h : s.Ok) (hbusy : s.phase.busy = []) : s.dev.TrackedDev := by
  have htracked := h.tracked
  rw [hbusy] at htracked
  exact ⟨htracked, h.closed, h.silent⟩

theorem of_dev {dev : Ahci} {phase : AhciPhase} (h : dev.TrackedDev) (hbusy : phase.busy = []) :
    AhciSmall.Ok ⟨dev, phase⟩ := by
  refine ⟨?_, h.closed, h.silent⟩
  rw [hbusy]
  exact h.tracked

/-- Nothing outside port 0 changes. -/
theorem put (h : s.Ok) {phase : AhciPhase} {c : PortCtx} (hc : Tracked phase.busy c) :
    AhciSmall.Ok ⟨s.dev.put 0 c, phase⟩ := by
  refine ⟨?_, fun i hi => ?_, fun i hi => ?_⟩
  · rw [Ahci.ctx_put]
    exact hc
  · rw [Ahci.put_port_ne s.dev c hi]
    exact h.closed i hi
  · rw [Ahci.put_port_ne s.dev c hi]
    exact h.silent i hi

theorem busy_length (s : AhciSmall) : s.phase.busy.length ≤ 1 := by
  cases s.phase with
  | callback => exact Nat.le_refl 1
  | idle | serving | write => exact Nat.zero_le 1

/-- The port that is looked at is opened, or a visit to it does not return. -/
theorem visited (h : s.Ok) {i : Nat} {c : PortCtx} (hc : ahciVisit (s.dev.ctx i) = .ok c) :
    (i = 0 ∧ Tracked s.phase.busy c) ∨ (i ≠ 0 ∧ c = s.dev.ctx i) := by
  by_cases hi : i = 0
  · rw [hi] at hc
    exact .inl ⟨hi, (ahciVisit_tracked h.tracked (busy_length s)).of_ok hc⟩
  · refine .inr ⟨hi, ?_⟩
    have hclosed : (s.dev.ctx i).p.setCmdCcs.opened = false := h.closed i hi
    rw [ahciVisit] at hc
    split at hc
    · rw [ahciHandleSlot, hclosed] at hc
      cases hc
    · cases hc
      rfl

end AhciSmall.Ok

/-- Every small step keeps it. -/
theorem AhciSmallStep.ok {s t : AhciSmall} {l : AhciSmallLabel} (hs : s.Ok)
    (h : AhciSmallStep s l t) : t.Ok := by
  cases h with
  | hostWrite offset value hphase =>
    have hbusy : s.phase.busy = [] := by rw [hphase]; rfl
    refine .of_dev (Ahci.TrackedDev.softc ?_ _) hbusy
    rw [ahciHostWrite]
    split
    · exact pciAhciHostWrite_tracked ((hs.dev hbusy).softc _) offset value
    · exact (hs.dev hbusy).softc _
  | @portWrite c more offset value hphase _ _ hc =>
    have hdev : s.dev.lockMtx.TrackedDev := (hs.dev (by rw [hphase]; rfl)).softc _
    refine .of_dev ?_ rfl
    by_cases hi : ahciPortNo offset = 0
    · rw [hi] at hc ⊢
      exact hdev.put ((ahciPortWriteEntry_tracked hdev.tracked _ _).of_ok hc)
    · exact hdev.put_closed hi ((ahciPortWriteEntry_closed (hdev.closed _ hi) _ _).of_ok hc)
  | read regoff size hphase hr =>
    obtain ⟨_, -, hr⟩ := Except.bind_eq_ok.1 hr
    obtain ⟨_, -, hr⟩ := Except.bind_eq_ok.1 hr
    obtain ⟨_, -, hr⟩ := Except.bind_eq_ok.1 hr
    cases hr
    exact ⟨Tracks.congr hs.tracked rfl rfl rfl rfl rfl rfl, hs.closed, hs.silent⟩
  | config | guest =>
    exact ⟨Tracks.congr hs.tracked rfl rfl rfl rfl rfl rfl, hs.closed, hs.silent⟩
  | enter hphase | leave hphase =>
    have htracked := (hs.dev (by rw [hphase]; rfl)).tracked
    exact ⟨⟨htracked.opened, htracked.part, htracked.slots, htracked.bits,
      htracked.queue.congr rfl rfl rfl fun _ _ => rfl, htracked.busyq, htracked.queued⟩,
      hs.closed, hs.silent⟩
  | serve hphase hdeq hproc hbody =>
    have htracked := (hs.dev (by rw [hphase]; rfl)).tracked
    obtain ⟨e, q, hpend, rfl, rfl, rfl⟩ := serve_eq htracked hdeq hproc
    exact hs.put ((ahciIoreqBody_tracked (htracked.reap hpend) (Nat.le_refl 1) _).of_ok hbody)
  | @visit c i _ hc =>
    rcases hs.visited hc with ⟨rfl, ht⟩ | ⟨hi, rfl⟩
    · exact hs.put (Tracks.congr ht rfl rfl rfl rfl rfl rfl)
    · refine ⟨?_, fun j hj => ?_, fun j hj => ?_⟩
      · rw [Ahci.ctx_put_ne s.dev _ hi.symm]
        exact Tracks.congr hs.tracked rfl rfl rfl rfl rfl rfl
      · by_cases hij : j = i
        · rw [hij, Ahci.put_port]
          exact hs.closed _ hi
        · rw [Ahci.put_port_ne s.dev _ hij]
          exact hs.closed j hj
      · by_cases hij : j = i
        · rw [hij, Ahci.put_port]
          exact hs.silent _ hi
        · rw [Ahci.put_port_ne s.dev _ hij]
          exact hs.silent j hj
  | written hphase =>
    exact .of_dev ((hs.dev (by rw [hphase]; rfl)).softc _) rfl
  | @served be looping hphase _ =>
    have htracked := hs.tracked
    rw [hphase] at htracked
    have hunlock : Tracked [{ be with beStatus := .done }] (s.dev.ctx 0).unlockMtx :=
      Tracks.congr htracked rfl rfl rfl rfl rfl rfl
    exact hs.put (hunlock.finish rfl 0 _)

theorem AhciSmallInitial.ok {s : AhciSmall} (h : AhciSmallInitial s) : s.Ok := by
  refine .of_dev (AhciInitial.tracked h.1) ?_
  rw [h.2]
  rfl

/-- The invariant holds in every state that small steps reach. -/
theorem Reaches.small_ok {s : AhciSmall} (h : Reaches AhciSmallStep AhciSmallInitial s) : s.Ok :=
  h.invariant (fun _ hs => hs.ok) fun _ _ _ hs hstep => hstep.ok hs

end DeviceModel
