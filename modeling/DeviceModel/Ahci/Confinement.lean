import DeviceModel.Ahci.LentMemory
import DeviceModel.Ahci.DmaRuns

/-!
# The controller stays within the memory that is lent to it

A driver lends a controller the area for frames and, with each command, the places that the
command writes. Whatever the guest does besides, and in any order, the controller changes no
other memory: what is there is what the guest has stored last.
-/

namespace DeviceModel

variable {lent : U64 → Prop} {c d t : PortCtx} {slot : Slot} {cfis : U64} {busy : List BlockifElem}

/-! ## A slot -/

/-- Memory and the queue decide. -/
theorem QueueLent.congr (h : QueueLent lent c) (hblk : d.blk = c.blk) : QueueLent lent d := by
  have hview : d.view.queue = c.view.queue := by rw [PortCtx.view, PortCtx.view, hblk]
  intro x hx
  rw [hview] at hx
  rw [hblk]
  exact h x hx

theorem WithinLent.of_confined (h : Confined lent c d) (ht : WithinLent lent d t) :
    WithinLent lent c t :=
  ⟨h.mem.trans ht.mem, ht.queue⟩

theorem ahciHandleCmd_lent (h : CmdLends lent c slot cfis) (htracked : Tracked busy c)
    (hq : QueueLent lent c) : IfReturns (WithinLent lent c) (ahciHandleCmd c slot cfis) := by
  have hctx : Confined lent c (cmdCtx c slot cfis) := ⟨rfl, .refl lent c.mem, rfl, rfl, rfl⟩
  have htracks : Tracks c.p.pending busy (cmdCtx c slot cfis) :=
    Tracks.congr htracked rfl rfl rfl rfl rfl rfl
  exact (ahciCmdSwitch_lent (hctx.lends h) htracks (hctx.queueLent hq)).mono fun t ht =>
    ht.of_confined hctx

theorem ahciHandleControl_confined (h : CmdLends lent c slot cfis) :
    Confined lent c (ahciHandleControl c slot cfis) := by
  have hreset : ∀ b : Bool, Confined lent c { c with p := { c.p with reset := b } } :=
    fun b => ⟨rfl, .refl lent c.mem, rfl, rfl, rfl⟩
  rw [ahciHandleControl]
  simp only []
  split
  · exact (hreset true).trans ⟨rfl, .refl lent c.mem, rfl, rfl, rfl⟩
  · split
    · have hport := Confined.portReset (c := { c with p := { c.p with reset := false } })
        fun _ => ((hreset false).lends h).received
      exact ((hreset false).trans hport).trans ⟨rfl, .refl lent _, rfl, rfl, rfl⟩
    · exact ⟨rfl, .refl lent c.mem, rfl, rfl, rfl⟩

/-- **A visit of `ahci_handle_port`** to a slot that waits. -/
theorem ahciVisit_lent (htracked : Tracked busy c) (hq : QueueLent lent c)
    (h : c.p.visits = true → CmdLends lent c c.p.ccs (slotCfis c c.p.ccs)) :
    IfReturns (WithinLent lent c) (ahciVisit c) := by
  have hself : WithinLent lent c c := ⟨.refl lent c.mem, hq⟩
  cases hvisits : c.p.visits with
  | false =>
    rw [ahciVisit_passes hvisits]
    exact hself
  | true =>
    have hset : Confined lent c { c with p := c.p.setCmdCcs } :=
      ⟨setCmdCcs_frame c, .refl lent c.mem, rfl, rfl, rfl⟩
    have hlends := hset.lends (h hvisits)
    have hqueue := hset.queueLent hq
    have htracks : Tracked busy { c with p := c.p.setCmdCcs } :=
      Tracks.congr htracked rfl rfl rfl rfl rfl rfl
    have hopen : c.p.setCmdCcs.opened = true := htracked.opened
    have hcfis : slotCfis { c with p := c.p.setCmdCcs } c.p.ccs = slotCfis c c.p.ccs := rfl
    rw [ahciVisit, if_pos ((AhciPort.visits_iff c.p).1 hvisits), ahciHandleSlot, hopen]
    simp only [Bool.not_true, Bool.false_eq_true, if_false, hcfis]
    split
    · exact ⟨hself.mem, hqueue⟩
    · split
      · exact (ahciHandleCmd_lent hlends htracks hqueue).mono fun t ht => ht.of_confined hset
      · exact ((ahciHandleControl_confined hlends).within hqueue).of_confined hset

/-! ## A callback -/

section Callback

variable {a : Nat}

/-- **The callback**, up to `ahci_handle_port`. -/
theorem ahciIoreqBody_lent {pd : U32} (err : Errno)
    (h : CmdLends lent c (c.p.ioreq a).slot (c.p.ioreq a).cfis)
    (hdone : c.cfis (c.p.ioreq a).cfis 2 ∈ ataWrites → (c.p.ioreq a).done.toNat ≤
      (ahciRwTransfer c (c.p.ioreq a).slot (c.p.ioreq a).cfis).len.toNat)
    (htracks : Tracks pd busy (ahciReap c a)) (hq : QueueLent lent c) :
    IfReturns (fun r => WithinLent lent c r.1) (ahciIoreqBody c a err) := by
  have hreap : CmdLends lent (ahciReap c a) (c.p.ioreq a).slot (c.p.ioreq a).cfis :=
    h.kept rfl (.refl lent c.mem)
  have hctx : Confined lent (ahciReap c a) (callbackCtx c a err) := hreap.setPrdbc rfl err
  have hlends := hctx.lends hreap
  have hqueue : QueueLent lent (callbackCtx c a err) := hctx.queueLent (hq.congr rfl)
  have hmem : SameOutside lent c.mem (callbackCtx c a err).mem := hctx.mem
  have htracks' : Tracks pd busy (callbackCtx c a err) := by
    rw [callbackCtx, ahciSetPrdbc]
    split
    · exact htracks.setMem _
    · exact htracks
  have hframe : SameFrame c (callbackCtx c a err) := hctx.frame
  -- what comes from there on is within lent memory, and so is all of it
  have hfrom : ∀ {t : PortCtx}, WithinLent lent (callbackCtx c a err) t → WithinLent lent c t :=
    fun ht => ⟨hmem.trans ht.mem, ht.queue⟩
  rw [ahciIoreqBody]
  cases hport : c.p.atapi with
  | true =>
    have hatapi : (callbackCtx c a err).p.atapi = true := hframe.atapi.trans hport
    rw [if_pos rfl, atapiIoreqBody]
    split
    · exact (atapiRead_lent hlends htracks' hqueue hatapi _).map fun t ht => hfrom ht
    · refine hfrom (WithinLent.finished ?_ _)
      split
      · exact (atapiDone_confined hlends hatapi).within hqueue
      · exact (atapiRefuse_confined hlends hatapi _).within hqueue
  | false =>
    rw [if_neg Bool.false_ne_true, ataIoreqBody]
    split
    · split
      · exact (ahciHandleDsmTrim_lent hlends htracks' hqueue _).mono fun r hr => hfrom hr
      · refine (ahciHandleRw_lent hlends htracks' hqueue fun hw => ?_).map fun t ht => hfrom ht
        have hcommand : (callbackCtx c a err).cfis (c.p.ioreq a).cfis 2 =
            c.cfis (c.p.ioreq a).cfis 2 := hmem _ h.command
        have hw' : c.cfis (c.p.ioreq a).cfis 2 ∈ ataWrites := hcommand ▸ hw
        have hsame : ahciRwTransfer (callbackCtx c a err) (c.p.ioreq a).slot (c.p.ioreq a).cfis =
            ahciRwTransfer c (c.p.ioreq a).slot (c.p.ioreq a).cfis := h.transfer_eq hframe hmem hw'
        rw [hsame]
        exact hdone hw'
    · refine hfrom (WithinLent.finished ?_ _)
      split
      · exact (Confined.sdb hlends.received _ _ _).within hqueue
      · exact (Confined.d2h hlends.received _ _ _).within hqueue

end Callback

/-! ## Registers -/

theorem blockifCancel_keeps (s : BlockState) (r : Nat) :
    IfReturns (fun x => x.1.mem = s.mem ∧ x.1.reqs = s.reqs) (blockifCancel s r) := by
  rw [blockifCancel]
  split
  · exact ⟨rfl, rfl⟩
  · split
    · exact ⟨rfl, rfl⟩
    · split
      · exact trivial
      · exact ⟨rfl, rfl⟩

theorem ahciCancel_keeps (c : PortCtx) (a : Nat) :
    IfReturns (fun t => t.mem = c.mem ∧ t.blk.reqs = c.blk.reqs) (ahciCancel c a) := by
  rw [ahciCancel]
  refine (blockifCancel_keeps c.blk a).bind fun x hx => ?_
  obtain ⟨blk, err⟩ := x
  simp only []
  split <;> exact hx

theorem ahciCancelAll_mem : ∀ (as : List Nat) (c : PortCtx),
    IfReturns (fun t => t.mem = c.mem) (ahciCancelAll as c) := by
  intro as
  induction as with
  | nil => exact fun _ => rfl
  | cons a as ih =>
    intro c
    exact (ahciCancel_keeps c a).bind fun t ht => (ih t).mono fun u hu => hu.trans ht.1

theorem ahciCmdWrite_mem (c : PortCtx) (value : U32) :
    IfReturns (fun t => t.mem = c.mem) (ahciCmdWrite c value) := by
  have hstop : ∀ c : PortCtx, IfReturns (fun t => t.mem = c.mem) (ahciPortStop c) := by
    intro c
    rw [ahciPortStop]
    split
    · exact trivial
    · refine Ensures.bind (Ensures.assert fun _ => trivial) fun _ _ => ?_
      exact (ahciCancelAll_mem c.p.iobhd c).bind fun t ht => ht
  rw [ahciCmdWrite]
  split
  · exact (hstop _).bind fun t ht => ht
  · exact rfl

/-- A register write stores a frame at most, where it resets the port. -/
theorem ahciPortWriteEntry_outside (h : c.p.opened = true → ∀ a ∈ c.received, lent a)
    (reg : AhciPortReg) (value : U32) :
    IfReturns (fun r => SameOutside lent c.mem r.1.mem) (ahciPortWriteEntry c reg value) := by
  have hsame : ∀ {t : PortCtx}, t.mem = c.mem → SameOutside lent c.mem t.mem :=
    fun ht a _ => congrFun ht a
  refine ahciPortWriteEntry_ensures ((ahciCmdWrite_mem c value).mono fun t ht => hsame ht)
    (hsame rfl) reg fun _ _ => ?_
  cases reg with
  | clb | clbu | fb | fbu | serr | sact | other => exact hsame rfl
  | is | ie =>
    rw [ahciPortWriteReg, ahciPortIntrOn]
    split
    · exact trivial
    · exact hsame rfl
  | sctl =>
    rw [ahciPortWriteReg]
    simp only []
    split
    · exact (Confined.portReset (c := { c with p := { c.p with sctl := value } }) h).mem
    · exact hsame rfl
  | cmd | ci => contradiction

/-- Cancelled requests leave the queue, and the others stay. -/
theorem queueLent_rules : RegRules (QueueLent lent) where
  mem := fun _ h => h
  regs := fun _ _ _ _ _ _ _ _ _ _ _ _ _ _ h => h
  intr := fun _ _ h => h
  reset := by
    intro c _ h x hx
    obtain ⟨hrep, hlog, -⟩ := ahciPortReset_reports c
    rw [hrep.view hlog] at hx
    rw [hrep.bc, hrep.reqs]
    exact h x hx
  cancel := by
    intro c a as htracked h hbusy
    rw [ifReturns_iff]
    intro t ht
    obtain ⟨l, r, y, hqueue, -, hview⟩ := ahciCancel_view htracked hbusy ht
    have hbase : t.blk.bc.bcBase = c.blk.bc.bcBase :=
      congrArg (fun v : RequestView => v.disk.bcBase) hview
    have hreqs := ((ahciCancel_keeps c a).of_ok ht).2
    intro x hx
    rw [hview] at hx
    rw [hbase, hreqs]
    refine h x ?_
    rw [hqueue]
    rcases List.mem_append.1 hx with hx | hx
    · exact List.mem_append_left _ hx
    · exact List.mem_append_right _ (List.mem_cons_of_mem _ hx)

/-- A port that receives no frames is reset without one. -/
theorem ahciPortReset_blk (h : c.p.cmd &&& ahciPCmdFRE = 0) : (ahciPortReset c).blk = c.blk := by
  have hquiet : ∀ (d : PortCtx) (ft : SataFisType) (fis : List U8), d.p.cmd &&& ahciPCmdFRE = 0 →
      (ahciWriteFis d ft fis).blk = d.blk := by
    intro d ft fis hd
    have hreceives : d.p.receives = false := by
      rw [AhciPort.receives, hd, bne_self_eq_false, Bool.and_false]
    rw [ahciWriteFis, if_neg (Bool.eq_false_iff.1 hreceives)]
  rw [ahciPortReset]
  simp only []
  split
  · rfl
  · rw [ahciWriteResetFisD2h]
    exact hquiet _ _ _ h

/-- And so is each port by a reset of the controller. -/
theorem ahciResetPort_blk (c : PortCtx) : (ahciResetPort c).blk = c.blk := by
  have hcmd : ∀ b : Bool, (if b then ahciPCmdSUD ||| ahciPCmdPOD ||| ahciPCmdCPS
      else ahciPCmdSUD ||| ahciPCmdPOD) &&& ahciPCmdFRE = 0 := by decide
  exact ahciPortReset_blk (hcmd c.p.opened)

theorem ahciReset_blk (s : Ahci) : (ahciReset s).blk = s.blk := by
  have hfold : ∀ (is : List Nat) (s : Ahci),
      (is.foldl (fun s i => s.put i (ahciResetPort (s.ctx i))) s).blk = s.blk := by
    intro is
    induction is with
    | nil => exact fun _ => rfl
    | cons i is ih =>
      intro s
      rw [List.foldl_cons, ih]
      exact ahciResetPort_blk (s.ctx i)
  exact hfold _ _

theorem ahciHostWrite_blk (s : Ahci) (offset value : U64) : (ahciHostWrite s offset value).blk = s.blk := by
  rw [ahciHostWrite]
  split
  · rw [pciAhciHostWrite]
    split
    · split
      · exact ahciReset_blk s
      · rfl
    · split <;> rfl
  · rfl

/-! ## Runs -/

/-- What the guest lends in a state: the area for frames, what the commands that wait name, and what
those in flight name. A write in flight has not become shorter than what is done of it. -/
structure PortLends (lent : U64 → Prop) (c : PortCtx) : Prop where
  received : ∀ a ∈ c.received, lent a
  waiting : ∀ slot : Slot, c.p.waiting.getLsbD slot = true → CmdLends lent c slot (slotCfis c slot)
  inFlight : ∀ r ∈ c.p.iobhd, CmdLends lent c (c.p.ioreq r).slot (c.p.ioreq r).cfis
  done : ∀ r ∈ c.p.iobhd, c.cfis (c.p.ioreq r).cfis 2 ∈ ataWrites → (c.p.ioreq r).done.toNat ≤
    (ahciRwTransfer c (c.p.ioreq r).slot (c.p.ioreq r).cfis).len.toNat

/-- What the guest stores. -/
def AhciSmallLabel.stores : AhciSmallLabel → Option Mem
  | guest mem _ => some mem
  | _ => none

section Serving

variable {be : BlockifElem} {q : List BlockifElem}

/-- What a served request leaves in its structure says the same of where its data is. -/
theorem requestTarget_served (s : BlockState) (be : BlockifElem) (base : U64) (r : Nat) (op : Blockop) :
    requestTarget base ((blockifTransfer s be).1.reqs r) op = requestTarget base (s.reqs r) op := by
  have hnoresid : requestTarget base (blockifNoResid s.reqs be.beReq r) op =
      requestTarget base (s.reqs r) op := by
    by_cases hr : r = be.beReq
    · rw [hr, blockifNoResid, Function.update_self]
      cases op <;> rfl
    · rw [blockifNoResid, Function.update_of_ne hr]
  rw [blockifTransfer]
  cases be.beOp with
  | read => exact hnoresid
  | write =>
    cases s.bc.bcRdonly with
    | true => rfl
    | false => exact hnoresid
  | flush | delete => rfl

/-- **The transfer of a request** writes what the request says. -/
theorem blockifTransfer_outside {s : BlockState}
    (h : ∀ a ∈ requestTarget s.bc.bcBase (s.reqs be.beReq) be.beOp, lent a) :
    SameOutside lent s.mem (blockifTransfer s be).1.mem := by
  intro a ha
  have hnot : a ∉ requestTarget s.bc.bcBase (s.reqs be.beReq) be.beOp := fun hmem => ha (h a hmem)
  rw [blockifTransfer]
  cases hop : be.beOp with
  | read =>
    rw [hop] at hnot
    exact blockifCopyIn_of_notMem _ _ _ hnot
  | write =>
    rw [hop] at hnot
    cases s.bc.bcRdonly with
    | true => rfl
    | false => exact blockifCopyOut_of_notMem _ _ _ hnot
  | flush | delete => rfl

/-- The first request of the queue has been served, and its callback starts. -/
theorem QueueLent.entry (hq : QueueLent lent c) (hpend : c.blk.bc.bcPendq = be :: q) :
    WithinLent lent c (serveEntry c be q) := by
  have hview : c.view.queue = (be.beReq, be.beOp) :: queueOps q := by
    rw [PortCtx.view, hpend]
    rfl
  refine ⟨blockifTransfer_outside ?_, fun x hx => ?_⟩
  · refine hq (be.beReq, be.beOp) ?_
    rw [hview]
    exact List.mem_cons_self
  · have htarget : requestTarget (serveEntry c be q).blk.bc.bcBase
        ((serveEntry c be q).blk.reqs x.1) x.2 =
        requestTarget c.blk.bc.bcBase (c.blk.reqs x.1) x.2 := requestTarget_served c.blk be _ _ _
    rw [htarget]
    refine hq x ?_
    rw [hview]
    exact List.mem_cons_of_mem _ hx

/-- **A service**, up to `ahci_handle_port`. -/
theorem serve_lent (htracked : Tracked [] c) (hq : QueueLent lent c) (h : PortLends lent c)
    (hpend : c.blk.bc.bcPendq = be :: q) :
    IfReturns (fun r => WithinLent lent c r.1)
      (ahciIoreqBody (serveEntry c be q).lockMtx be.beReq (serveErr c be)) := by
  have hentry := hq.entry hpend
  have hframe : SameFrame c (serveEntry c be q).lockMtx := rfl
  have hbusy : be.beReq ∈ c.p.iobhd := by
    refine htracked.queued.mem_iff.1 ?_
    rw [hpend]
    exact List.mem_cons_self
  have hlends := h.inFlight be.beReq hbusy
  have hlends' : CmdLends lent (serveEntry c be q).lockMtx (c.p.ioreq be.beReq).slot
      (c.p.ioreq be.beReq).cfis := hlends.kept hframe hentry.mem
  have hqueue : QueueLent lent (serveEntry c be q).lockMtx := hentry.queue.congr rfl
  refine (ahciIoreqBody_lent (serveErr c be) hlends' (fun hw => ?_) (htracked.reap hpend)
    hqueue).mono fun r hr => ?_
  · have hcommand : (serveEntry c be q).lockMtx.cfis (c.p.ioreq be.beReq).cfis 2 =
        c.cfis (c.p.ioreq be.beReq).cfis 2 := hentry.mem _ hlends.command
    have hw' : c.cfis (c.p.ioreq be.beReq).cfis 2 ∈ ataWrites := hcommand ▸ hw
    have hsame := hlends.transfer_eq hframe hentry.mem hw'
    have hdone := h.done be.beReq hbusy hw'
    rw [← hsame] at hdone
    exact hdone
  · exact ⟨hentry.mem.trans hr.mem, hr.queue⟩

end Serving

/-- What the runs keep: requests are tracked, and those that wait keep to lent memory. -/
def LentOk (lent : U64 → Prop) (s : AhciSmall) : Prop := s.Ok ∧ QueueLent lent (s.dev.ctx 0)

/-- **One step** changes lent memory, or the guest stores. -/
theorem AhciSmallStep.outside {s t : AhciSmall} {l : AhciSmallLabel} (hok : LentOk lent s)
    (hlends : PortLends lent (s.dev.ctx 0)) (hstep : AhciSmallStep s l t) :
    QueueLent lent (t.dev.ctx 0) ∧ StepOutside lent l.stores s.dev.blk.mem t.dev.blk.mem := by
  obtain ⟨hs, hq⟩ := hok
  -- what a function called on port 0 has left
  have hput : ∀ {c : PortCtx}, WithinLent lent (s.dev.ctx 0) c →
      QueueLent lent ((s.dev.put 0 c).ctx 0) ∧ SameOutside lent s.dev.blk.mem (s.dev.put 0 c).blk.mem := by
    intro c hc
    rw [Ahci.ctx_put]
    exact ⟨hc.queue, hc.mem⟩
  cases hstep with
  | hostWrite offset value hphase =>
    have hblk := ahciHostWrite_blk s.dev.lockMtx offset value
    exact ⟨hq.congr hblk, fun a _ => congrFun (congrArg BlockState.mem hblk) a⟩
  | @portWrite c more offset value hphase _ _ hc =>
    have hdev : s.dev.lockMtx.TrackedDev := (hs.dev (by rw [hphase]; rfl)).softc _
    by_cases hi : ahciPortNo offset = 0
    · rw [hi] at hc ⊢
      have hreceived : ∀ a ∈ (s.dev.lockMtx.ctx 0).received, lent a := hlends.received
      have hmem : SameOutside lent s.dev.blk.mem c.mem :=
        (ahciPortWriteEntry_outside (fun _ => hreceived) _ _).of_ok hc
      have hqueue := (queueLent_rules.entry hdev.tracked (hq.congr rfl) _ _).of_ok hc
      rw [Ahci.ctx_put]
      exact ⟨hqueue, hmem⟩
    · have hopen : (s.dev.lockMtx.ctx (ahciPortNo offset)).p.opened = false := hdev.closed _ hi
      have hmem : SameOutside lent s.dev.blk.mem c.mem :=
        (ahciPortWriteEntry_outside (fun hyes => by simp [hopen] at hyes) _ _).of_ok hc
      obtain ⟨-, -, m, p, rfl⟩ := (ahciPortWriteEntry_closed hopen _ _).of_ok hc
      rw [Ahci.ctx_put_ne s.dev.lockMtx _ (Ne.symm hi)]
      exact ⟨hq, hmem⟩
  | read regoff size hphase hr =>
    obtain ⟨_, -, hr⟩ := Except.bind_eq_ok.1 hr
    obtain ⟨_, -, hr⟩ := Except.bind_eq_ok.1 hr
    obtain ⟨_, -, hr⟩ := Except.bind_eq_ok.1 hr
    cases hr
    exact ⟨hq, .refl lent _⟩
  | guest mem stack => exact ⟨hq, rfl⟩
  | config | enter | leave | written => exact ⟨hq, .refl lent _⟩
  | serve hphase hdeq hproc hbody =>
    have htracked := (hs.dev (by rw [hphase]; rfl)).tracked
    obtain ⟨e, q, hpend, rfl, rfl, rfl⟩ := serve_eq htracked hdeq hproc
    exact hput ((serve_lent htracked hq hlends hpend).of_ok hbody)
  | @visit c i _ hc =>
    rcases hs.visited hc with ⟨rfl, -⟩ | ⟨hi, rfl⟩
    · have hvisit := (ahciVisit_lent hs.tracked hq fun hv => hlends.waiting _ hv).of_ok hc
      exact hput ⟨hvisit.mem, hvisit.queue.congr rfl⟩
    · rw [Ahci.ctx_put_ne s.dev _ hi.symm]
      exact ⟨hq, .refl lent _⟩
  | @served be looping hphase _ =>
    have htracked := hs.tracked
    rw [hphase] at htracked
    obtain ⟨heq, -⟩ := @blockifFinish_port (s.dev.ctx 0).unlockMtx 0 (fun _ => s.dev.blk.mem)
      { be with beStatus := .done } htracked.queue htracked.busyq rfl
    rw [heq]
    refine hput ⟨.refl lent _, fun x hx => ?_⟩
    rw [serveExit_view] at hx
    exact hq x hx

/-- **The controller stays within lent memory.** From a reachable state in which no request waits,
and whatever the guest and the controller do: as long as the places that commands name are lent,
all other memory holds what the guest has stored there last. -/
theorem ahci_stays_within_lent {s t : AhciSmall} {ls : List AhciSmallLabel}
    (hs : Reaches AhciSmallStep AhciSmallInitial s) (hidle : s.dev.blk.bc.bcPendq = [])
    (hrun : Run (Guarded AhciSmallStep fun s _ => PortLends lent (s.dev.ctx 0)) s ls t) :
    ∀ a, ¬ lent a →
      t.dev.blk.mem a = lastStored AhciSmallLabel.stores a (s.dev.blk.mem a) ls := by
  have hstart : LentOk lent s := by
    refine ⟨hs.small_ok, fun x hx => ?_⟩
    have hnone : (s.dev.ctx 0).view.queue = [] := congrArg queueOps hidle
    rw [hnone] at hx
    exact absurd hx List.not_mem_nil
  have hsteps : ∀ s l t, LentOk lent s →
      Guarded AhciSmallStep (fun s _ => PortLends lent (s.dev.ctx 0)) s l t →
      LentOk lent t ∧ StepOutside lent l.stores s.dev.blk.mem t.dev.blk.mem := by
    rintro s l t hok ⟨hstep, hlends⟩
    obtain ⟨hqueue, hout⟩ := hstep.outside hok hlends
    exact ⟨⟨hstep.ok hok.1, hqueue⟩, hout⟩
  exact Run.outside hsteps hrun hstart

/-! ## A sector is read -/

section Decidable

/-- Addresses are looked at one by one. -/
instance decidableForallAddr (p : U64 → Prop) [DecidablePred p] (as : List U64) :
    Decidable (∀ a ∈ as, p a) :=
  decidable_of_iff (as.all (fun a => decide (p a)) = true)
    (List.all_eq_true.trans (forall₂_congr fun _ _ => decide_eq_true_iff))

variable [DecidablePred lent]

instance : Decidable (CmdLends lent c slot cfis) :=
  decidable_of_iff
    (((∀ a ∈ c.received, lent a) ∧ (∀ a ∈ Mem.addrs (c.hdr slot + 4) 4, lent a) ∧
        ∀ a ∈ prdtAddrs c slot cfis, lent a) ∧
      ((∀ a ∈ Mem.addrs (c.hdr slot + 2) 2 ++ prdtTable c slot cfis, ¬ lent a) ∧ ¬ lent (cfis + 2)) ∧
      (c.p.atapi = true ∨ c.cfis cfis 2 = 0xe5#8 → lent (cfis + 4) ∧ lent (cfis + 12)) ∧
      (c.cfis cfis 2 ∈ ataWrites → c.p.atapi = false ∧
        (∀ a ∈ rwSectors c slot cfis, lent a) ∧ ∀ a ∈ Mem.addrs cfis 20, ¬ lent a))
    ⟨fun ⟨⟨h₁, h₂, h₃⟩, ⟨h₄, h₅⟩, h₆, h₇⟩ => ⟨h₁, h₂, h₃, h₄, h₅, h₆, h₇⟩,
      fun h => ⟨⟨h.received, h.prdbc, h.buffers⟩, ⟨h.table, h.command⟩, h.answer, h.writes⟩⟩

instance : Decidable (PortLends lent c) :=
  decidable_of_iff
    ((∀ a ∈ c.received, lent a) ∧
      (∀ slot : Slot, c.p.waiting.getLsbD slot = true → CmdLends lent c slot (slotCfis c slot)) ∧
      (∀ r ∈ c.p.iobhd, CmdLends lent c (c.p.ioreq r).slot (c.p.ioreq r).cfis) ∧
      ∀ r ∈ c.p.iobhd, c.cfis (c.p.ioreq r).cfis 2 ∈ ataWrites → (c.p.ioreq r).done.toNat ≤
        (ahciRwTransfer c (c.p.ioreq r).slot (c.p.ioreq r).cfis).len.toNat)
    ⟨fun ⟨h₁, h₂, h₃, h₄⟩ => ⟨h₁, h₂, h₃, h₄⟩, fun h => ⟨h.received, h.waiting, h.inFlight, h.done⟩⟩

end Decidable

/-- The area for frames, the count in the second header, and a buffer of one sector. -/
def dmaLent (a : U64) : Prop :=
  0x24 ≤ a ∧ a < 0x28 ∨ 0x1000 ≤ a ∧ a < 0x1100 ∨ 0x9000 ≤ a ∧ a < 0x9200

instance : DecidablePred dmaLent := fun _ => inferInstanceAs (Decidable (_ ∨ _))

/-- The command in slot 1 is issued, and served. -/
def readSecond : List AhciSmallLabel :=
  [.portWrite 0x138 0x2, .visit, .visit, .written, .enter, .serve]

/-- The buffer has been filled, and all else that is not lent is as it was. -/
theorem ahci_stays_within_lent_read : ∃ s t : AhciSmall,
    Run (Guarded AhciSmallStep fun s _ => PortLends dmaLent (s.dev.ctx 0)) s readSecond t ∧
      s.dev.blk.mem 0x91ff = 0 ∧ t.dev.blk.mem 0x91ff = 0x5a#8 ∧
        ∀ a, ¬ dmaLent a → t.dev.blk.mem a = s.dev.blk.mem a := by
  have hrun : dmaStart.any (fun u => !u.serving && u.dev.blk.bc.bcPendq.isEmpty &&
      (AhciSmall.execAll (fun s _ => PortLends dmaLent (s.dev.ctx 0)) readSecond
        ⟨u.dev.setMem (dmaMem 0x5a) fun _ => 0, .idle⟩).any fun t =>
          t.dev.blk.mem 0x91ff == 0x5a#8) = true := by
    decide +kernel
  obtain ⟨u, hu, htest⟩ := (Option.any_eq_true _ _).1 hrun
  rw [Bool.and_eq_true, Bool.and_eq_true, Bool.not_eq_true', List.isEmpty_iff] at htest
  obtain ⟨⟨hidle, hpendq⟩, hread⟩ := htest
  obtain ⟨t, ht, hfilled⟩ := (Option.any_eq_true _ _).1 hread
  have hsmall := (dmaStart_reaches hu).small
  rw [AhciSys.small, hidle] at hsmall
  have hstart := Reaches.next hsmall (.guest (dmaMem 0x5a) fun _ => 0)
  have hlent := AhciSmall.execAll_run ht
  exact ⟨_, t, hlent, rfl, beq_iff_eq.1 hfilled, ahci_stays_within_lent hstart hpendq hlent⟩

end DeviceModel
