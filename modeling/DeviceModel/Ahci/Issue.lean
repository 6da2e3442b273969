import DeviceModel.Ahci.CommandEnds

/-!
# Submitting a request

What `ahciIssue` does when it returns, and what nothing in `ahci_handle_port` changes.
-/

namespace DeviceModel

/-! ## The frame -/

/-- A port without what `ahci_handle_port` changes. -/
def AhciPort.frame (p : AhciPort) : AhciPort :=
  { p.blank with pending := 0, ccs := 0, cmd := p.cmd &&& ~~~ahciPCmdCCSMask
                 ioreq := fun _ => ⟨0, 0, 0, 0, false⟩, iofhd := [], iobhd := [] }

/-- A block context without its queues and its mutex. -/
def BlockifCtxt.frame (bc : BlockifCtxt) : BlockifCtxt :=
  { bc with bcMtx := pthreadMutexInit, bcFreeq := [], bcPendq := [], bcBusyq := [] }

/-- What `ahci_handle_port` leaves as it is. -/
def PortCtx.frame (c : PortCtx) : AhciPort × BlockifCtxt × Vmctx × (Nat → U8) :=
  (c.p.frame, c.blk.bc.frame, c.sc.vmctx, c.stack)

/-- `d` has the frame of `c`. -/
def SameFrame (c d : PortCtx) : Prop := d.frame = c.frame

namespace SameFrame

variable {c d e : PortCtx}

theorem trans (h : SameFrame c d) (h' : SameFrame d e) : SameFrame c e := Eq.trans h' h

theorem opened (h : SameFrame c d) : d.p.opened = c.p.opened := congrArg (·.1.opened) h

theorem port (h : SameFrame c d) : d.p.port = c.p.port := congrArg (·.1.port) h

theorem ie (h : SameFrame c d) : d.p.ie = c.p.ie := congrArg (·.1.ie) h

theorem atapi (h : SameFrame c d) : d.p.atapi = c.p.atapi := congrArg (·.1.atapi) h

theorem cmdLst (h : SameFrame c d) : d.p.cmdLst = c.p.cmdLst := congrArg (·.1.cmdLst) h

theorem rfis (h : SameFrame c d) : d.p.rfis = c.p.rfis := congrArg (·.1.rfis) h

theorem vmctx (h : SameFrame c d) : d.sc.vmctx = c.sc.vmctx := congrArg (·.2.2.1) h

theorem stack (h : SameFrame c d) : d.stack = c.stack := congrArg (·.2.2.2) h

theorem sectsz (h : SameFrame c d) : d.blk.bc.bcSectsz = c.blk.bc.bcSectsz :=
  congrArg (·.2.1.bcSectsz) h

/-- A bit of `PxCMD` outside the current slot is part of the frame. -/
theorem cmd (h : SameFrame c d) {bit : U32} (hbit : ~~~ahciPCmdCCSMask &&& bit = bit) :
    d.p.cmd &&& bit = c.p.cmd &&& bit := by
  have hcmd : d.p.cmd &&& ~~~ahciPCmdCCSMask = c.p.cmd &&& ~~~ahciPCmdCCSMask :=
    congrArg (·.1.cmd) h
  rw [← hbit, ← BitVec.and_assoc, ← BitVec.and_assoc, hcmd]

theorem running (h : SameFrame c d) : d.p.cmd &&& ahciPCmdST = c.p.cmd &&& ahciPCmdST :=
  h.cmd (by decide)

theorem receives (h : SameFrame c d) : d.p.receives = c.p.receives := by
  rw [AhciPort.receives, AhciPort.receives, h.rfis, @SameFrame.cmd c d h ahciPCmdFRE (by decide)]

end SameFrame

theorem Reports.frame {c d : PortCtx} (h : Reports c d) : SameFrame c d := by
  have hp : d.p.frame = c.p.frame := by
    have hblank : d.p.blank = c.p.blank := congrArg (·.1) h.base
    rw [AhciPort.frame, AhciPort.frame, hblank, h.cmd]
  rw [SameFrame, PortCtx.frame, PortCtx.frame, hp, h.bc, h.sc.vmctx, h.stack]

theorem setCmdCcs_frame (c : PortCtx) : SameFrame c { c with p := c.p.setCmdCcs } := by
  have hccs : ∀ (x : U32) (s : Slot),
      (x &&& ~~~ahciPCmdCCSMask ||| BitVec.ofNat 32 s <<< 8) &&& ~~~ahciPCmdCCSMask =
        x &&& ~~~ahciPCmdCCSMask := by
    intro x s
    have hs : BitVec.ofNat 32 s <<< 8 &&& ~~~ahciPCmdCCSMask = 0 := by
      revert s
      decide
    rw [BitVec.and_or_distrib_right, hs, BitVec.and_assoc, BitVec.and_self]
    exact BitVec.or_zero
  have hp : c.p.setCmdCcs.frame = c.p.frame := by
    rw [AhciPort.frame, AhciPort.frame, AhciPort.setCmdCcs, hccs]
    rfl
  rw [SameFrame, PortCtx.frame, PortCtx.frame, hp]

/-- On a running port nothing is stopped at the end of a command. -/
theorem ahciFinished_running {c : PortCtx} (slot : Slot) (h : c.p.cmd &&& ahciPCmdST ≠ 0) :
    ahciFinished c slot =
      { c with p := { c.p with pending := c.p.pending &&& ~~~slotBit slot } } := by
  rw [ahciFinished, ahciCheckStopped, if_neg fun hstop => h hstop.1]

/-! ## Submitting -/

/-- `t` is `c` after request `a` has been filled in and submitted for `slot`. -/
structure Issued (c t : PortCtx) (slot : Slot) (a : Nat) (aior : AhciIoreq) (breq : BlockifReq)
    (ncq : Bool) (op : Blockop) : Prop where
  posts : c.sc.Posts c.p.port c.p.ie c.p.is t.sc t.p.is
  frame : SameFrame c t
  ccs : t.p.ccs = c.p.ccs
  iofhd : c.p.iofhd = a :: t.p.iofhd
  iobhd : t.p.iobhd = a :: c.p.iobhd
  pending : t.p.pending = c.p.pending ||| slotBit slot
  ioreq : t.p.ioreq = Function.update c.p.ioreq a aior
  reqs : t.blk.reqs = Function.update c.blk.reqs a breq
  bc : ∃ be rest, c.blk.bc.bcFreeq = be :: rest ∧
    t.blk.bc = (blockifEnqueue c.blk.bc.lockMtx t.blk.reqs be a op).unlockMtx
  log : t.log = c.log ++ if ncq then [.d2hNcq slot] else []
  ci : t.p.ci = if ncq then c.p.ci &&& ~~~slotBit slot else c.p.ci
  tfd : t.p.tfd = if ncq then ataOk else c.p.tfd
  wait : t.p.waitforclear = c.p.waitforclear
  is : t.p.is = c.p.is
  sact : t.p.sact = c.p.sact

/-- The state in which `ahciIssue` calls the block interface. -/
def issueCtx (c : PortCtx) (slot : Slot) (a : Nat) (free : List Nat) (aior : AhciIoreq)
    (breq : BlockifReq) (ncq : Bool) : PortCtx :=
  let d := ahciMarkInFlight (ahciSetIoreq { c with p := { c.p with iofhd := free } } a aior breq)
    slot a
  if ncq then ahciWriteFisD2hNcq d slot else d

section

variable {c : PortCtx} {slot : Slot}
  {fill : BlockifReq → Except Stop (AhciIoreq × BlockifReq)} {ncq : Bool} {op : Blockop}

theorem ahciIssue_eq {a : Nat} {free : List Nat} {aior : AhciIoreq} {breq : BlockifReq}
    (hfree : c.p.iofhd = a :: free) (hfill : fill (c.blk.reqs a) = .ok (aior, breq)) :
    ahciIssue c slot fill ncq op = ahciSubmit (issueCtx c slot a free aior breq ncq) a op := by
  rw [ahciIssue, ahciTakeIoreq, hfree]
  exact Except.bind_ok hfill

/-- What comes before the call leaves the frame as it is. -/
theorem issueCtx_frame (c : PortCtx) (slot : Slot) (a : Nat) (free : List Nat)
    (aior : AhciIoreq) (breq : BlockifReq) (ncq : Bool) :
    SameFrame c (issueCtx c slot a free aior breq ncq) := by
  have hmark : SameFrame c (ahciMarkInFlight
      (ahciSetIoreq { c with p := { c.p with iofhd := free } } a aior breq) slot a) := rfl
  cases ncq with
  | false => exact hmark
  | true => exact hmark.trans (ahciWriteFisD2hNcq_reports _ slot).frame

/-- The call changes the queues and the mutex only. -/
theorem SameFrame.enqueue {c d : PortCtx} (h : SameFrame c d) (be a : Nat) (op : Blockop) :
    SameFrame c { d with blk := { d.blk with
      bc := (blockifEnqueue d.blk.bc.lockMtx d.blk.reqs be a op).unlockMtx } } :=
  h.trans rfl

/-- The call of the block interface: it needs a free element. -/
theorem issueCtx_issued {a : Nat} {free : List Nat} {aior : AhciIoreq} {breq : BlockifReq}
    {be : Nat} {rest : List Nat} (hfree : c.p.iofhd = a :: free)
    (hbe : c.blk.bc.bcFreeq = be :: rest) :
    ∃ t, ahciSubmit (issueCtx c slot a free aior breq ncq) a op = .ok t ∧
      Issued c t slot a aior breq ncq op := by
  have hsubmit : ∀ d : PortCtx, d.blk.bc.bcFreeq = be :: rest →
      ahciSubmit d a op =
        .ok { d with blk := { d.blk with
          bc := (blockifEnqueue d.blk.bc.lockMtx d.blk.reqs be a op).unlockMtx } } := by
    intro d hd
    rw [ahciSubmit, blockifRequest, hd]
    rfl
  have hframe := (issueCtx_frame c slot a free aior breq ncq).enqueue be a op
  cases ncq with
  | false =>
    refine ⟨_, hsubmit _ hbe, .refl c.sc _ _ _, hframe, rfl, hfree, rfl, rfl, rfl, rfl,
      ⟨be, rest, hbe, rfl⟩, ?_, rfl, rfl, rfl, rfl, rfl⟩
    exact (List.append_nil _).symm
  | true =>
    obtain ⟨m, heq⟩ := ahciWriteFisD2hNcq_spec
      (ahciMarkInFlight (ahciSetIoreq { c with p := { c.p with iofhd := free } } a aior breq) slot a)
      slot
    rw [issueCtx, if_pos rfl, heq] at hframe ⊢
    exact ⟨_, hsubmit _ hbe, .refl c.sc _ _ _, hframe, rfl, hfree, rfl, rfl, rfl, rfl,
      ⟨be, rest, hbe, rfl⟩, rfl, rfl, rfl, rfl, rfl, rfl⟩

/-- Where `ahciIssue` returns, it has submitted a request. -/
theorem ahciIssue_issued {t : PortCtx} (h : ahciIssue c slot fill ncq op = .ok t) :
    ∃ a free aior breq breq', c.p.iofhd = a :: free ∧ fill breq = .ok (aior, breq') ∧
      Issued c t slot a aior breq' ncq op := by
  cases hfree : c.p.iofhd with
  | nil =>
    rw [ahciIssue, ahciTakeIoreq, hfree] at h
    cases h
  | cons a free =>
    cases hfill : fill (c.blk.reqs a) with
    | error e =>
      rw [ahciIssue, ahciTakeIoreq, hfree] at h
      simp [bind, Except.bind, hfill] at h
    | ok r =>
      obtain ⟨aior, breq⟩ := r
      rw [ahciIssue_eq hfree hfill] at h
      cases hbe : c.blk.bc.bcFreeq with
      | nil =>
        have hnone : (issueCtx c slot a free aior breq ncq).blk.bc.bcFreeq = [] := by
          cases ncq with
          | false => exact hbe
          | true =>
            rw [issueCtx, if_pos rfl, (ahciWriteFisD2hNcq_reports _ slot).bc]
            exact hbe
        rw [ahciSubmit, blockifRequest, hnone] at h
        cases h
      | cons be rest =>
        obtain ⟨u, hu, hissued⟩ := @issueCtx_issued c slot ncq op a free aior breq be rest hfree hbe
        rw [hu] at h
        cases h
        exact ⟨a, free, aior, _, breq, rfl, hfill, hissued⟩

end

end DeviceModel
