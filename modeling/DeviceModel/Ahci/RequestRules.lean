import DeviceModel.Ahci.Rules

/-!
# Rules for invariants of the requests

What a command has in flight, and what has been written for it, is read off the request
structures, the queue of the block interface and the record. All but three events leave
these alone: a request is cancelled, a slot is looked at, and a request is served. An
invariant of the requests is checked against the three, on every run of small steps.
-/

namespace DeviceModel

/-! ## The view -/

/-- What an invariant of the requests reads. -/
structure RequestView where
  atapi : Bool
  pending : U32
  ioreq : Nat → AhciIoreq
  iobhd : List Nat
  /-- the requests that the block interface holds, with their operations -/
  queue : List (Nat × Blockop)
  disk : BlockifCtxt
  log : List AhciEvent

/-- The elements of a queue, by their requests and operations. -/
def queueOps (q : List BlockifElem) : List (Nat × Blockop) := q.map fun be => (be.beReq, be.beOp)

/-- What it reads of the port. -/
def PortCtx.view (c : PortCtx) : RequestView where
  atapi := c.p.atapi
  pending := c.p.pending
  ioreq := c.p.ioreq
  iobhd := c.p.iobhd
  queue := queueOps c.blk.bc.bcPendq
  disk := c.blk.bc.frame
  log := c.log

section

variable {c d : PortCtx}

/-- A report changes nothing but the record. -/
theorem Reports.view_log (h : Reports c d) : d.view = { c.view with log := d.log } := by
  rw [PortCtx.view, h.atapi, h.pending, h.ioreq, h.iobhd, h.bc]
  rfl

/-- One that writes no frame for a command is not seen. -/
theorem Reports.view (h : Reports c d) (hlog : d.log = c.log) : d.view = c.view := by
  rw [h.view_log, hlog]
  rfl

/-- A free request structure is not that of a queued request. -/
theorem Tracks.queue_ne {pd : U32} {busy : List BlockifElem} (h : Tracks pd busy c) {a : Nat}
    (ha : a ∈ c.p.iofhd) {x : Nat × Blockop} (hx : x ∈ c.view.queue) : x.1 ≠ a := by
  rintro rfl
  obtain ⟨be, hbe, heq⟩ := List.mem_map.1 hx
  refine h.disjoint ha (h.queued.mem_iff.1 ?_)
  rw [← heq]
  exact List.mem_map_of_mem hbe

theorem ahciCheckStopped_view (c : PortCtx) :
    PortCtx.view { c with p := ahciCheckStopped c.p } = c.view := by
  rw [ahciCheckStopped]
  split <;> rfl

/-- A command that ends is not in flight any more. -/
theorem ahciFinished_view (c : PortCtx) (slot : Slot) :
    (ahciFinished c slot).view = { c.view with pending := c.p.pending &&& ~~~slotBit slot } := by
  have hview := ahciCheckStopped_view
    { c with p := { c.p with pending := c.p.pending &&& ~~~slotBit slot } }
  exact hview

theorem ahciSetPrdbc_view (c : PortCtx) (aior : AhciIoreq) (err : Errno) :
    (ahciSetPrdbc c aior err).view = c.view := by
  rw [ahciSetPrdbc]
  split <;> rfl

/-- Elements that are released stay on the queue. -/
theorem queueOps_unblock (reqs : Nat → BlockifReq) (off : U64) (q : List BlockifElem) :
    queueOps (q.map (blockifUnblock reqs off)) = queueOps q := by
  rw [queueOps, queueOps, List.map_map]
  refine List.map_congr_left fun be _ => ?_
  simp only [Function.comp_apply, blockifUnblock]
  split <;> rfl

theorem serveExit_view (c : PortCtx) (x : BlockifElem) : (serveExit c x).view = c.view := by
  rw [PortCtx.view, serveExit]
  simp only [queueOps_unblock]
  rfl

/-- What a submitted request adds. -/
theorem Issued.view {slot : Slot} {a : Nat} {aior : AhciIoreq} {breq : BlockifReq} {ncq : Bool}
    {op : Blockop} (h : Issued c d slot a aior breq ncq op) :
    d.view = { c.view with
      pending := c.p.pending ||| slotBit slot
      ioreq := Function.update c.p.ioreq a aior
      iobhd := a :: c.p.iobhd
      queue := c.view.queue ++ [(a, op)]
      log := c.log ++ if ncq then [.d2hNcq slot] else [] } := by
  obtain ⟨be, rest, -, hbc⟩ := h.bc
  have hqueue : queueOps d.blk.bc.bcPendq = queueOps c.blk.bc.bcPendq ++ [(a, op)] := by
    rw [hbc]
    exact List.map_append
  have hdisk : d.blk.bc.frame = c.blk.bc.frame := congrArg (·.2.1) h.frame
  rw [PortCtx.view, h.frame.atapi, h.pending, h.ioreq, h.iobhd, hqueue, hdisk, h.log]
  rfl

end

/-! ## The rules -/

/-- What an invariant of the requests must survive, in the events that meet `ok`. -/
structure RequestRules (P : RequestView → Prop) (ok : AhciSmall → AhciSmallLabel → Prop) : Prop where
  cancel : ∀ {c : PortCtx} {a : Nat} {as : List Nat}, Tracked [] c → P c.view →
    c.p.iobhd = a :: as → IfReturns (fun t => P t.view) (ahciCancel c a)
  visit : ∀ {s : AhciSmall}, s.Ok → s.looksAt 0 → ok s .visit → P (s.dev.ctx 0).view →
    (s.dev.ctx 0).p.visits = true → IfReturns (fun t => P t.view) (ahciVisit (s.dev.ctx 0))
  serve : ∀ {s : AhciSmall} {be : BlockifElem} {q : List BlockifElem}, s.Ok →
    s.phase = .serving → ok s .serve → P (s.dev.ctx 0).view → s.dev.blk.bc.bcPendq = be :: q →
    IfReturns (fun r => P r.1.view)
      (ahciIoreqBody (serveEntry (s.dev.ctx 0) be q).lockMtx be.beReq (serveErr (s.dev.ctx 0) be))

namespace RequestRules

variable {P : RequestView → Prop} {ok : AhciSmall → AhciSmallLabel → Prop}

/-- A register write does not see more of it. -/
theorem regRules (rules : RequestRules P ok) : RegRules fun c => P c.view where
  mem := fun _ h => h
  regs := fun _ _ _ _ _ _ _ _ _ _ _ _ _ _ h => h
  intr := fun _ _ h => h
  reset := by
    intro c _ h
    obtain ⟨hrep, hlog, -⟩ := ahciPortReset_reports c
    rw [hrep.view hlog]
    exact h
  cancel := rules.cancel

theorem ahciResetPort_view (c : PortCtx) : (ahciResetPort c).view = c.view := by
  rw [ahciResetPort]
  obtain ⟨hrep, hlog, -⟩ := ahciPortReset_reports { c with p := { c.p with
    ie := 0, is := 0, sctl := 0
    cmd := if c.p.opened then ahciPCmdSUD ||| ahciPCmdPOD ||| ahciPCmdCPS
      else ahciPCmdSUD ||| ahciPCmdPOD } }
  exact hrep.view hlog

/-- A reset of the controller leaves requests in flight. -/
theorem ahciReset_view {s : Ahci} (h : s.TrackedDev) : ((ahciReset s).ctx 0).view = (s.ctx 0).view := by
  have hfold : ∀ (is : List Nat) (s : Ahci), s.TrackedDev →
      ((is.foldl (fun s i => s.put i (ahciResetPort (s.ctx i))) s).ctx 0).view = (s.ctx 0).view := by
    intro is
    induction is with
    | nil => exact fun _ _ => rfl
    | cons i is ih =>
      intro s hs
      by_cases hi : i = 0
      · subst hi
        rw [List.foldl_cons, ih _ (hs.put (ahciResetPort_tracked hs.tracked)), Ahci.ctx_put]
        exact ahciResetPort_view _
      · have hclosed := ahciResetPort_closed (c := s.ctx i) (hs.closed i hi)
        rw [List.foldl_cons, ih _ (hs.put_closed hi hclosed)]
        obtain ⟨-, -, m, p, heq⟩ := hclosed
        rw [heq, Ahci.ctx_put_ne s _ (Ne.symm hi)]
        rfl
  exact hfold _ _ (h.softc _)

theorem pciAhciHostWrite_view {s : Ahci} (h : s.TrackedDev) (offset value : U64) :
    ((pciAhciHostWrite s offset value).ctx 0).view = (s.ctx 0).view := by
  rw [pciAhciHostWrite]
  split
  · split
    · exact ahciReset_view h
    · rfl
  · split <;> rfl

section

variable {s t : AhciSmall} {l : AhciSmallLabel}

/-- A request is served. -/
theorem served (rules : RequestRules P ok) (hs : s.Ok) (h : P (s.dev.ctx 0).view)
    (hphase : s.phase = .serving) (hok : ok s .serve) {be : BlockifElem} {bc : BlockifCtxt}
    {d c : PortCtx} {err : Errno} {more : Bool}
    (hdeq : blockifDequeue s.dev.blk.bc = .ok (some be, bc))
    (hproc : blockifProcBody (ahciClient 0 fun _ => s.dev.blk.mem)
      { s.dev.ctx 0 with blk := { s.dev.blk with bc := bc } } be = (d, err))
    (hbody : ahciIoreqBody d.lockMtx be.beReq err = .ok (c, more)) : P c.view := by
  have htracked := (hs.dev (by rw [hphase]; rfl)).tracked
  obtain ⟨e, q, hpend, rfl, rfl, rfl⟩ := serve_eq htracked hdeq hproc
  exact (rules.serve hs hphase hok h hpend).of_ok hbody

/-- **One event** keeps the invariant. -/
theorem step (rules : RequestRules P ok) (hs : s.Ok) (h : P (s.dev.ctx 0).view)
    (hstep : AhciSmallStep s l t) (hok : ok s l) : P (t.dev.ctx 0).view := by
  cases hstep with
  | hostWrite offset value hphase =>
    have hview : (((ahciHostWrite s.dev.lockMtx offset value).unlockMtx).ctx 0).view =
        (s.dev.ctx 0).view := by
      rw [ahciHostWrite]
      split
      · exact pciAhciHostWrite_view ((hs.dev (by rw [hphase]; rfl)).softc _) offset value
      · rfl
    rw [hview]
    exact h
  | @portWrite c more offset value hphase _ _ hc =>
    have hdev : s.dev.lockMtx.TrackedDev := (hs.dev (by rw [hphase]; rfl)).softc _
    by_cases hi : ahciPortNo offset = 0
    · rw [hi] at hc ⊢
      rw [Ahci.ctx_put]
      exact (rules.regRules.entry hdev.tracked h _ _).of_ok hc
    · have hclosed := (ahciPortWriteEntry_closed (hdev.closed _ hi) _ _).of_ok hc
      obtain ⟨-, -, m, p, rfl⟩ := hclosed
      rw [Ahci.ctx_put_ne s.dev.lockMtx _ (Ne.symm hi)]
      exact h
  | read regoff size hphase hr =>
    obtain ⟨_, -, hr⟩ := Except.bind_eq_ok.1 hr
    obtain ⟨_, -, hr⟩ := Except.bind_eq_ok.1 hr
    obtain ⟨_, -, hr⟩ := Except.bind_eq_ok.1 hr
    cases hr
    exact h
  | config | guest | enter | leave | written => exact h
  | serve hphase hdeq hproc hbody =>
    rw [Ahci.ctx_put]
    exact rules.served hs h hphase hok hdeq hproc hbody
  | @visit c i hlooks hc =>
    rcases hs.visited hc with ⟨rfl, -⟩ | ⟨hi, rfl⟩
    · rw [Ahci.ctx_put]
      cases hvisits : (s.dev.ctx 0).p.visits with
      | true =>
        have hvisit : P c.view := (rules.visit hs hlooks hok h hvisits).of_ok hc
        exact hvisit
      | false =>
        rw [ahciVisit_passes hvisits] at hc
        cases hc
        exact h
    · rw [Ahci.ctx_put_ne s.dev _ hi.symm]
      exact h
  | @served be looping hphase _ =>
    have htracked := hs.tracked
    rw [hphase] at htracked
    rw [Ahci.ctx_put]
    obtain ⟨heq, -⟩ := @blockifFinish_port (s.dev.ctx 0).unlockMtx 0 (fun _ => s.dev.blk.mem)
      { be with beStatus := .done } htracked.queue htracked.busyq rfl
    rw [heq, serveExit_view]
    exact h

/-- **Every run** whose events meet the condition keeps it. -/
theorem reaches (rules : RequestRules P ok) {s₀ : AhciSmall} (hinit : AhciSmallInitial s₀)
    (hP : P (s₀.dev.ctx 0).view) (h : Reaches (Guarded AhciSmallStep ok) (· = s₀) s) :
    P (s.dev.ctx 0).view := by
  have hboth : s.Ok ∧ P (s.dev.ctx 0).view := by
    refine h.invariant (I := fun s => s.Ok ∧ P (s.dev.ctx 0).view) ?_ ?_
    · rintro s rfl
      exact ⟨hinit.ok, hP⟩
    · rintro s l t ⟨hs, hP⟩ ⟨hstep, hok⟩
      exact ⟨hstep.ok hs, rules.step hs hP hstep hok⟩
  exact hboth.2

end

end RequestRules

/-! ## The disk -/

/-- The port has a disk of a kind, opened in a way. -/
def OfDisk (atapi : Bool) (disk : BlockifCtxt) (v : RequestView) : Prop :=
  v.atapi = atapi ∧ v.disk = disk

section

variable {atapi : Bool} {disk : BlockifCtxt} {c d : PortCtx} {slot : Slot} {cfis : U64}

theorem OfDisk.reports (h : OfDisk atapi disk c.view) (hr : Reports c d) : OfDisk atapi disk d.view :=
  ⟨hr.atapi.trans h.1, (congrArg BlockifCtxt.frame hr.bc).trans h.2⟩

theorem OfDisk.finished (h : OfDisk atapi disk c.view) (slot : Slot) :
    OfDisk atapi disk (ahciFinished c slot).view := by
  rw [ahciFinished_view]
  exact h

theorem OfDisk.issue (h : OfDisk atapi disk c.view)
    (fill : BlockifReq → Except Stop (AhciIoreq × BlockifReq)) (ncq : Bool) (op : Blockop) :
    IfReturns (fun t => OfDisk atapi disk t.view) (ahciIssue c slot fill ncq op) := by
  rw [ifReturns_iff]
  intro t ht
  obtain ⟨a, free, aior, breq, breq', -, -, hissued⟩ := ahciIssue_issued ht
  rw [hissued.view]
  exact h

theorem EndsWith.ofDisk {e : CmdEnd} {r : Except Stop PortCtx} (he : EndsWith c slot cfis e r)
    (h : OfDisk atapi disk c.view) : IfReturns (fun t => OfDisk atapi disk t.view) r := by
  cases he with
  | fails ha | succeeds ha => exact h.reports ha.reports
  | trims ht => exact (h.reports ht.reports).finished slot
  | issues _ _ | aborts _ _ => exact h.issue _ _ _
  | readsNothing ha _ _ => exact (h.reports ha.reports).issue _ _ _

theorem Resumes.ofDisk {e : CallbackEnd} {r : Except Stop (PortCtx × Bool)}
    (he : Resumes c slot cfis e r) (h : OfDisk atapi disk c.view) :
    IfReturns (fun r => OfDisk atapi disk r.1.view) r := by
  cases he with
  | ends tfd hr hlog => exact (h.reports hr).finished slot
  | trims ht => exact (h.reports ht.reports).finished slot
  | overruns => exact trivial
  | issues _ => exact (h.issue _ _ _).bind fun t ht => ht
  | readsNothing ha _ => exact ((h.reports ha.reports).issue _ _ _).bind fun t ht => ht

/-- What a cancelled request leaves. -/
theorem ahciCancel_view {a : Nat} {as : List Nat} (h : Tracked [] c) (hbusy : c.p.iobhd = a :: as)
    {t : PortCtx} (ht : ahciCancel c a = .ok t) :
    ∃ l r x, c.view.queue = l ++ x :: r ∧ x.1 = a ∧
      t.view = { c.view with
        pending := c.p.pending &&& ~~~slotBit (c.p.ioreq a).slot
        iobhd := as
        queue := l ++ r
        log := c.log ++ [.cancel (c.p.ioreq a).slot] } := by
  have ha : a ∈ c.p.iobhd := by
    rw [hbusy]
    exact List.mem_cons_self
  obtain ⟨be, hfind, hbereq⟩ := h.find_req ha
  obtain ⟨l, r, hpend⟩ := List.append_of_mem (List.mem_of_find?_eq_some hfind)
  have hlocked : QueueOk c.blk.bc.lockMtx c.blk.reqs := h.queue.congr rfl rfl rfl fun _ _ => rfl
  obtain ⟨heq, -⟩ := hlocked.cancel hpend
  obtain ⟨sact, ci, hrun⟩ := ahciCancel_found hfind
  rw [hrun] at ht
  cases ht
  refine ⟨queueOps l, queueOps r, (be.beReq, be.beOp), ?_, hbereq, ?_⟩
  · simp only [PortCtx.view, hpend, queueOps, List.map_append, List.map_cons]
  · have herase : c.p.iobhd.erase a = as := by rw [hbusy, List.erase_cons_head]
    have hqueue : queueOps ((l ++ r).map (blockifUnblock c.blk.reqs be.beBlock)) =
        queueOps l ++ queueOps r := by
      rw [queueOps_unblock, queueOps, List.map_append]
      rfl
    simp only [PortCtx.view, ahciReap, heq, herase, BlockifCtxt.unlockMtx, hqueue]
    rfl

/-- The port's disk is always the one that was opened. -/
theorem disk_rules (ok : AhciSmall → AhciSmallLabel → Prop) : RequestRules (OfDisk atapi disk) ok where
  cancel := by
    intro c a as htracked h hbusy
    rw [ifReturns_iff]
    intro t ht
    obtain ⟨l, r, x, -, -, hview⟩ := ahciCancel_view htracked hbusy ht
    rw [hview]
    exact h
  visit := by
    intro s hs _ _ h hvisits
    have hends := ahciVisit_ends hvisits hs.tracked.opened
    generalize ahciVisit (s.dev.ctx 0) = r at hends ⊢
    generalize slotEnd _ _ = e at hends
    cases hends with
    | ignores => exact h
    | control hr _ _ _ _ =>
      exact OfDisk.reports (c := { s.dev.ctx 0 with p := (s.dev.ctx 0).p.setCmdCcs }) h hr
    | command he => exact he.ofDisk h
  serve := by
    intro s be q _ _ _ h _
    refine (ahciIoreqBody_resumes _ _ _).ofDisk ?_
    rw [callbackCtx, ahciSetPrdbc_view]
    exact h

end

/-- What is seen at the start: no request, and nothing on record. -/
def RequestView.initial (atapi : Bool) (base : U64) : RequestView where
  atapi := atapi
  pending := 0
  ioreq := fun _ => ⟨0, 0, 0, 0, false⟩
  iobhd := []
  queue := []
  disk := (blockifOpen base).frame
  log := []

theorem AhciSmallInitial.view {s : AhciSmall} (h : AhciSmallInitial s) :
    ∃ atapi base, (s.dev.ctx 0).view = .initial atapi base := by
  obtain ⟨⟨⟨ctx, base, atapi, ident, mem, stack, hdev⟩, -⟩, -⟩ := h
  have hdev' : s.dev = pciAhciInit ctx base atapi ident mem stack := hdev
  refine ⟨atapi, base, ?_⟩
  rw [hdev', pciAhciInit,
    RequestRules.ahciReset_view (ahciOpened_tracked ctx base atapi ident mem stack)]
  rfl

/-- **The rule for runs.** An invariant of the requests that holds at the start, for the kind of disk
that the port has, holds in every state that is reached by events that meet the condition. -/
theorem Reaches.requests {ok : AhciSmall → AhciSmallLabel → Prop} {P : U64 → RequestView → Prop}
    {s : AhciSmall} {atapi : Bool} (h : Reaches (Guarded AhciSmallStep ok) AhciSmallInitial s)
    (hport : (s.dev.port 0).atapi = atapi) (rules : ∀ base, RequestRules (P base) ok)
    (hinit : ∀ base, P base (.initial atapi base)) :
    ∃ base, OfDisk atapi (blockifOpen base).frame (s.dev.ctx 0).view ∧ P base (s.dev.ctx 0).view := by
  obtain ⟨s₀, hs₀, hrun⟩ := h.exists_start
  obtain ⟨atapi', base, hview⟩ := hs₀.view
  have hdisk : OfDisk atapi' (blockifOpen base).frame (s.dev.ctx 0).view :=
    (disk_rules ok).reaches hs₀ (by rw [hview]; exact ⟨rfl, rfl⟩) hrun
  have hatapi : atapi' = atapi := hdisk.1.symm.trans hport
  rw [hatapi] at hview hdisk
  exact ⟨base, hdisk, (rules base).reaches hs₀ (by rw [hview]; exact hinit base) hrun⟩

end DeviceModel
