import DeviceModel.Ahci.Chunks
import DeviceModel.Ahci.Decoding
import DeviceModel.Ahci.Exec
import DeviceModel.Ahci.RequestRules
import DeviceModel.Ahci.UnopenedPorts

/-!
# Commands that go on

`ata_ioreq_cb` decodes the frame in the command table again, and resumes the handler that
the frame then names. Only a read or a write is ever resumed, and by then it has done at
least a sector. This file says when it is resumed as a read or a write, and what
`ahci_handle_dsm_trim` makes of it otherwise.
-/

namespace DeviceModel

/-! ## What a request goes on with -/

/-- A read or write that has done at least one sector. -/
structure RwMore (aior : AhciIoreq) (op : Blockop) : Prop where
  isRw : op = .read ∨ op = .write
  started : 512 ≤ aior.done.toNat
  small : aior.done.toNat < 2 ^ 25

/-- A request that goes on is for a range to trim, or a read or write that has done at least one
sector. -/
def Resumable (aior : AhciIoreq) (op : Blockop) : Prop :=
  aior.more = true → op = .delete ∨ RwMore aior op

/-- The same of a request for the command `cmd`. -/
def AtaMore (cmd : U8) (aior : AhciIoreq) (op : Blockop) : Prop :=
  aior.more = true → op = .delete ∨ (ataCmd cmd = .rw ∧ RwMore aior op)

theorem AtaMore.resumable {cmd : U8} {aior : AhciIoreq} {op : Blockop} (h : AtaMore cmd aior op) :
    Resumable aior op := fun hmore => (h hmore).imp_right fun hrw => hrw.2

/-- `t` is `c`, perhaps with one more request, of which `Q` holds. -/
inductive Adds (Q : AhciIoreq → Blockop → Prop) (c t : PortCtx) : Prop where
  | keeps : t.view.queue = c.view.queue → t.p.ioreq = c.p.ioreq → Adds Q c t
  | adds {a : Nat} {aior : AhciIoreq} {op : Blockop} : a ∈ c.p.iofhd →
      t.view.queue = c.view.queue ++ [(a, op)] → t.p.ioreq = Function.update c.p.ioreq a aior →
      Q aior op → Adds Q c t

namespace Adds

variable {Q Q' : AhciIoreq → Blockop → Prop} {c d t : PortCtx} {slot : Slot} {cfis : U64}

theorem of_reports (h : Reports c t) : Adds Q c t := by
  refine .keeps ?_ h.ioreq
  simp only [PortCtx.view, h.bc]

theorem imp (h : Adds Q c t) (himp : ∀ aior op, Q aior op → Q' aior op) : Adds Q' c t := by
  cases h with
  | keeps hqueue hioreq => exact .keeps hqueue hioreq
  | adds ha hqueue hioreq hq => exact .adds ha hqueue hioreq (himp _ _ hq)

theorem finished (h : Adds Q c t) (slot : Slot) : Adds Q c (ahciFinished t slot) := by
  have hqueue : (ahciFinished t slot).view.queue = t.view.queue := by rw [ahciFinished_view]
  have hioreq : (ahciFinished t slot).p.ioreq = t.p.ioreq := by
    have hview := congrArg RequestView.ioreq (ahciFinished_view t slot)
    exact hview
  cases h with
  | keeps hq hi => exact .keeps (hqueue.trans hq) (hioreq.trans hi)
  | adds ha hq hi hQ => exact .adds ha (hqueue.trans hq) (hioreq.trans hi) hQ

/-- A handler that submits a request. -/
theorem issue {fill : BlockifReq → Except Stop (AhciIoreq × BlockifReq)} {ncq : Bool} {op : Blockop}
    (h : ∀ breq aior breq', fill breq = .ok (aior, breq') → Q aior op) :
    IfReturns (Adds Q c) (ahciIssue c slot fill ncq op) := by
  rw [ifReturns_iff]
  intro t ht
  obtain ⟨a, free, aior, breq, breq', hfree, hfill, hissued⟩ := ahciIssue_issued ht
  have hview := hissued.view
  refine @Adds.adds Q c t a aior op ?_ ?_ ?_ (h _ _ _ hfill)
  · rw [hfree]
    exact List.mem_cons_self
  · exact congrArg RequestView.queue hview
  · exact congrArg RequestView.ioreq hview

/-- What holds of all requests still does. -/
theorem keeps_all {pd : U32} {busy : List BlockifElem} (h : Adds Q c t) (htracked : Tracks pd busy c)
    (hall : ∀ x ∈ c.view.queue, Q (c.p.ioreq x.1) x.2) :
    ∀ x ∈ t.view.queue, Q (t.p.ioreq x.1) x.2 := by
  cases h with
  | keeps hqueue hioreq =>
    rw [hqueue, hioreq]
    exact hall
  | @adds a aior op ha hqueue hioreq hq =>
    rw [hqueue, hioreq]
    intro x hx
    rcases List.mem_append.1 hx with hold | hnew
    · rw [Function.update_of_ne (htracked.queue_ne ha hold)]
      exact hall x hold
    · rw [List.mem_singleton.1 hnew, Function.update_self]
      exact hq

end Adds

/-! ## Chunks of a read or write -/

namespace AhciTransfer

variable {x : AhciTransfer} {c : PortCtx} {done : U32}

/-- A chunk from beyond the end of the transfer does nothing, and is the last. -/
theorem chunk_beyond (hlt : x.len.toNat < done.toNat) (hint : done.toNat - x.len.toNat ≤ 2 ^ 31)
    {breq breq' : BlockifReq} {aior : AhciIoreq} (h : x.chunk c done breq = .ok (aior, breq')) :
    aior.more = false := by
  have hdone := done.isLt
  have hneg : 2 ^ 31 ≤ (x.len - done).toNat := by
    rw [BitVec.toNat_sub]
    omega
  have hwalk : x.walk c done = (⟨[], done, x.len - done, 0⟩, x.prdtl) :=
    ahciIovLoop_negative _ _ _ _ hneg
  have hextra : x.extra c done = 0 := by
    rw [extra, hwalk]
    rfl
  have htodo : x.todo c done = 0 := by
    rw [todo, hextra, hwalk]
    simp
  have hzero : done + 0 = done := BitVec.add_zero done
  have hge : ¬ done < x.len := fun h => absurd (BitVec.lt_def.1 h) (by omega)
  rw [chunk_eq, hwalk, htodo, hzero] at h
  split at h
  · cases h
    simp [hge]
  · cases h

end AhciTransfer

section

variable {c : PortCtx} {slot : Slot} {cfis : U64} {done : U32}

/-- A read or write is for at most 32 MiB. -/
theorem ahciRwTransfer_len (hsectsz : c.blk.bc.bcSectsz = 512) (slot : Slot) (cfis : U64) :
    (ahciRwTransfer c slot cfis).len.toNat ≤ 2 ^ 25 := by
  have hcount := (rwForm (c.cfis cfis 2)).count_le (c.cfis cfis)
  rw [← toNat_ahciRwLen] at hcount
  rw [ahciRwTransfer, hsectsz, BitVec.toNat_mul]
  refine Nat.le_trans (Nat.mod_le _ _) ?_
  have h512 : (BitVec.ofNat 32 512).toNat = 512 := rfl
  rw [h512]
  omega

/-- A chunk that is not the last leaves at least one sector done. -/
theorem ahciRwFill_more (hsectsz : c.blk.bc.bcSectsz = 512) (hdone : done.toNat < 2 ^ 25)
    {breq breq' : BlockifReq} {aior : AhciIoreq}
    (h : ahciRwFill c slot cfis done breq = .ok (aior, breq')) (hmore : aior.more = true) :
    512 ≤ aior.done.toNat ∧ aior.done.toNat < 2 ^ 25 := by
  have hlen := ahciRwTransfer_len hsectsz slot cfis
  rw [ahciRwFill_chunk] at h
  by_cases hle : done.toNat ≤ (ahciRwTransfer c slot cfis).len.toNat
  · by_cases hcovers : CoversSector c.blk.bc.bcSectsz ((ahciRwTransfer c slot cfis).pieces
        ((ahciRwTransfer c slot cfis).regions c) done)
    · obtain ⟨aior', breq'', hchunk, his⟩ := (ahciRwTransfer c slot cfis).chunk_ok
        (by rw [hsectsz]; decide) hle (by omega) hcovers breq
      rw [hchunk] at h
      cases h
      obtain ⟨hlt, hfull⟩ := his.more hmore
      have hcover := hcovers hfull
      have hmoved := his.moved
      rw [his.resid, ahciMoved, if_pos hfull] at hmoved
      rw [hsectsz] at hcover hmoved
      have hmod := Nat.mod_lt ((ahciRwTransfer c slot cfis).pieces
        ((ahciRwTransfer c slot cfis).regions c) done).flatten.length (by decide : 0 < 512)
      have hdvd := Nat.div_add_mod ((ahciRwTransfer c slot cfis).pieces
        ((ahciRwTransfer c slot cfis).regions c) done).flatten.length 512
      omega
    · rw [(ahciRwTransfer c slot cfis).chunk_stops hle (by omega) hcovers] at h
      cases h
  · have hlast := (ahciRwTransfer c slot cfis).chunk_beyond (by omega) (by omega) h
    rw [hmore] at hlast
    cases hlast

/-- **`ahci_handle_rw`** submits a request that is the last, or leaves at least one sector done. -/
theorem ahciHandleRw_adds (hsectsz : c.blk.bc.bcSectsz = 512) (hdone : done.toNat < 2 ^ 25) :
    IfReturns (Adds (fun aior op => aior.more = true → RwMore aior op) c)
      (ahciHandleRw c slot cfis done) := by
  refine Adds.issue fun breq aior breq' hfill hmore => ?_
  obtain ⟨hstarted, hsmall⟩ := ahciRwFill_more hsectsz hdone hfill hmore
  refine ⟨?_, hstarted, hsmall⟩
  split
  · exact .inr rfl
  · exact .inl rfl

/-- **`ahci_handle_dsm_trim`** submits a request of its own kind. -/
theorem ahciHandleDsmTrim_adds (c : PortCtx) (slot : Slot) (cfis : U64) (done : U32) :
    IfReturns (fun r => Adds (fun _ op => op = .delete) c r.1) (ahciHandleDsmTrim c slot cfis done) := by
  rw [ahciHandleDsmTrim]
  cases ahciTrimNext (readPrdt c slot cfis 512) (ahciTrimLen c cfis) 64 done.toNat with
  | error e => exact Ensures.error trivial
  | ok next =>
    simp only [bind, Except.bind]
    cases next with
    | finished =>
      have htrimmed := ahciTrimAnswer_trimmed c slot cfis (done == 0)
      exact (Adds.of_reports htrimmed.reports).finished slot
    | range elba elen next =>
      have hissue : IfReturns (Adds (fun _ op => op = .delete) c) (ahciIssue c slot
          (ahciTrimFill c slot cfis (ahciTrimLen c cfis) elen next elba)
          (ahciTrimNcq c cfis && done == 0) .delete) := Adds.issue fun _ _ _ _ => rfl
      exact hissue.bind fun t ht => ht

/-! ## Commands -/

/-- A command that is answered at once reports to the guest. -/
theorem EndsWith.reports_answer {err : Bool} {r : Except Stop PortCtx}
    (h : EndsWith c slot cfis (answerEnd err) r) : IfReturns (Reports c) r := by
  cases err with
  | true =>
    cases h with
    | fails ha => exact ha.reports
  | false =>
    cases h with
    | succeeds ha => exact ha.reports

/-- **A command** of a disk submits at most one request. -/
theorem ahciCmdSwitch_adds (hdisk : c.p.atapi = false) (hsectsz : c.blk.bc.bcSectsz = 512) :
    IfReturns (Adds (AtaMore (c.cfis cfis 2)) c) (ahciCmdSwitch c slot cfis) := by
  -- the commands that are answered at once
  have hanswer : (∃ err, cmdEnd c slot cfis = answerEnd err) →
      IfReturns (Adds (AtaMore (c.cfis cfis 2)) c) (ahciCmdSwitch c slot cfis) := by
    rintro ⟨err, hend⟩
    have hends := ahciCmdSwitch_ends c slot cfis
    rw [hend] at hends
    exact hends.reports_answer.mono fun t ht => .of_reports ht
  have htrim : IfReturns (Adds (AtaMore (c.cfis cfis 2)) c)
      ((ahciHandleDsmTrim c slot cfis 0).map (·.1)) :=
    (ahciHandleDsmTrim_adds c slot cfis 0).map fun r hr => hr.imp fun _ _ hop _ => .inl hop
  cases hcmd : ataCmd (c.cfis cfis 2) with
  | rw =>
    rw [ahciCmdSwitch, hcmd]
    refine (ahciHandleRw_adds hsectsz (by decide)).mono fun t ht => ht.imp ?_
    exact fun _ _ hmore h => .inr ⟨hcmd, hmore h⟩
  | flushcache =>
    rw [ahciCmdSwitch, hcmd]
    refine Adds.issue fun breq aior breq' hfill hmore => ?_
    cases hfill
    cases hmore
  | dataSetManagement =>
    cases hyes : ataIsDsmTrim c cfis with
    | true =>
      rw [ahciCmdSwitch, hcmd]
      simp only [hyes, if_true]
      exact htrim
    | false =>
      refine hanswer ⟨true, ?_⟩
      rw [cmdEnd, hcmd]
      simp [hyes, answerEnd]
  | sendFpdmaQueued =>
    cases hyes : ataIsSendTrim c cfis with
    | true =>
      rw [ahciCmdSwitch, hcmd]
      simp only [hyes, if_true]
      exact htrim
    | false =>
      refine hanswer ⟨true, ?_⟩
      rw [cmdEnd, hcmd]
      simp [hyes, answerEnd]
  | ataIdentify | setfeatures | setMulti | readLog | atapiIdentify =>
    apply hanswer
    rw [cmdEnd, hcmd]
    exact ⟨_, rfl⟩
  | securityFreezeLock | unsupported =>
    refine hanswer ⟨true, ?_⟩
    rw [cmdEnd, hcmd]
    rfl
  | checkPowerMode | standby =>
    refine hanswer ⟨false, ?_⟩
    rw [cmdEnd, hcmd]
    rfl
  | packetCmd =>
    refine hanswer ⟨true, ?_⟩
    rw [cmdEnd, hcmd]
    simp [hdisk, answerEnd]

/-- **A visit.** -/
theorem ahciVisit_adds (hvisits : c.p.visits = true) (hopen : c.p.opened = true)
    (hdisk : c.p.atapi = false) (hsectsz : c.blk.bc.bcSectsz = 512) :
    IfReturns (Adds Resumable c) (ahciVisit c) := by
  rw [ahciVisit, if_pos ((AhciPort.visits_iff c.p).1 hvisits), ahciHandleSlot]
  have hopen' : c.p.setCmdCcs.opened = true := hopen
  simp only [hopen', Bool.not_true, Bool.false_eq_true, if_false]
  split
  · exact Ensures.ok (.keeps rfl rfl)
  · split
    · -- the record of the command is no request
      have hswitch := @ahciCmdSwitch_adds (cmdCtx { c with p := c.p.setCmdCcs } c.p.ccs
        (slotCfis { c with p := c.p.setCmdCcs } c.p.ccs)) c.p.ccs
        (slotCfis { c with p := c.p.setCmdCcs } c.p.ccs) hdisk hsectsz
      refine hswitch.mono fun t ht => ?_
      cases ht with
      | keeps hqueue hioreq => exact .keeps hqueue hioreq
      | adds ha hqueue hioreq hq => exact .adds ha hqueue hioreq hq.resumable
    · have hends := @ahciHandleControl_ends { c with p := c.p.setCmdCcs } c.p.ccs
        (slotCfis { c with p := c.p.setCmdCcs } c.p.ccs) hopen
      cases hends with
      | control hr _ _ _ _ =>
        refine Ensures.ok (.keeps ?_ hr.ioreq)
        simp only [PortCtx.view, hr.bc]

/-! ## The callback -/

/-- **The callback** of a disk submits at most one request. A read or write that is resumed as a
TRIM command stops the program. -/
theorem ahciIoreqBody_adds {a : Nat} {op : Blockop} {err : Errno} (hdisk : c.p.atapi = false)
    (hsectsz : c.blk.bc.bcSectsz = 512)
    (hmore : err = .zero → (c.p.ioreq a).more = true → RwMore (c.p.ioreq a) op) :
    IfReturns (fun r => Adds Resumable (callbackCtx c a err) r.1) (ahciIoreqBody c a err) := by
  have hctx : ahciSetPrdbc (ahciReap c a) (c.p.ioreq a) err = callbackCtx c a err := rfl
  have hsectsz' : (callbackCtx c a err).blk.bc.bcSectsz = 512 := by
    rw [callbackCtx, ahciSetPrdbc]
    split <;> exact hsectsz
  rw [ahciIoreqBody, if_neg (by rw [hdisk]; exact Bool.false_ne_true), ataIoreqBody]
  simp only [hctx]
  split
  · next hgoes =>
    split
    · exact (ahciHandleDsmTrim_adds _ _ _ _).mono fun r hr => hr.imp fun _ _ hop _ => .inl hop
    · have hsmall := (hmore hgoes.1 hgoes.2).small
      refine (ahciHandleRw_adds hsectsz' hsmall).map fun t ht => ?_
      exact ht.imp fun _ _ hrw h => .inr (hrw h)
  · refine Ensures.ok (Adds.finished ?_ _)
    split
    · exact .of_reports (ahciWriteFisSdb_reports _ _ _ _)
    · exact .of_reports (ahciWriteFisD2h_reports _ _ _ _)

end

/-! ## Runs -/

/-- Every request of a disk that goes on has what it takes. -/
def GoesOn (disk : BlockifCtxt) (v : RequestView) : Prop :=
  OfDisk false disk v ∧ ∀ x ∈ v.queue, Resumable (v.ioreq x.1) x.2

/-- A request that is not served without an error is none to trim. -/
theorem Resumable.served {c : PortCtx} {be : BlockifElem} {aior : AhciIoreq}
    (h : Resumable aior be.beOp) (herr : serveErr c be = .zero) (hmore : aior.more = true) :
    RwMore aior be.beOp := by
  rcases h hmore with hop | hrw
  · rw [serveErr_delete hop] at herr
    cases herr
  · exact hrw

theorem goesOn_rules {disk : BlockifCtxt} (hsectsz : disk.bcSectsz = 512)
    (ok : AhciSmall → AhciSmallLabel → Prop) : RequestRules (GoesOn disk) ok where
  cancel := by
    intro c a as htracked h hbusy
    rw [ifReturns_iff]
    intro t ht
    obtain ⟨l, r, x, hqueue, -, hview⟩ := ahciCancel_view htracked hbusy ht
    rw [hview]
    refine ⟨h.1, fun y hy => h.2 y ?_⟩
    rw [hqueue]
    rcases List.mem_append.1 hy with hl | hr
    · exact List.mem_append_left _ hl
    · exact List.mem_append_right _ (List.mem_cons_of_mem _ hr)
  visit := by
    intro s hs hlooks hok h hvisits
    have hdisk := (disk_rules ok).visit hs hlooks hok h.1 hvisits
    have hadds := ahciVisit_adds hvisits hs.tracked.opened h.1.1
      ((congrArg BlockifCtxt.bcSectsz h.1.2).trans hsectsz)
    refine (Ensures.and hdisk hadds).mono fun t ⟨ht, hnew⟩ => ⟨ht, ?_⟩
    exact hnew.keeps_all hs.tracked h.2
  serve := by
    intro s be q hs hphase hok h hpend
    have hdisk := (disk_rules ok).serve hs hphase hok h.1 hpend
    have hqueue : (s.dev.ctx 0).view.queue = (be.beReq, be.beOp) :: queueOps q := by
      have hmap := congrArg queueOps hpend
      exact hmap
    have hall := h.2
    rw [hqueue] at hall
    have hself := hall _ List.mem_cons_self
    have hadds := @ahciIoreqBody_adds (serveEntry (s.dev.ctx 0) be q).lockMtx be.beReq be.beOp
      (serveErr (s.dev.ctx 0) be) h.1.1 ((congrArg BlockifCtxt.bcSectsz h.1.2).trans hsectsz)
      fun herr hmore => hself.served herr hmore
    have htracked := ((hs.dev (by rw [hphase]; rfl)).tracked.reap hpend).setPrdbc
      ((s.dev.ctx 0).p.ioreq be.beReq) (serveErr (s.dev.ctx 0) be)
    refine (Ensures.and hdisk hadds).mono fun r ⟨ht, hnew⟩ => ⟨ht, ?_⟩
    refine hnew.keeps_all htracked ?_
    have hview : (callbackCtx (serveEntry (s.dev.ctx 0) be q).lockMtx be.beReq
        (serveErr (s.dev.ctx 0) be)).view.queue = queueOps q := by
      rw [callbackCtx, ahciSetPrdbc_view]
      rfl
    have hioreq : (callbackCtx (serveEntry (s.dev.ctx 0) be q).lockMtx be.beReq
        (serveErr (s.dev.ctx 0) be)).p.ioreq = (s.dev.port 0).ioreq := by
      have hioreq := congrArg RequestView.ioreq (ahciSetPrdbc_view
        (ahciReap (serveEntry (s.dev.ctx 0) be q).lockMtx be.beReq)
        ((s.dev.ctx 0).p.ioreq be.beReq) (serveErr (s.dev.ctx 0) be))
      exact hioreq
    rw [hview, hioreq]
    exact fun x hx => hall x (List.mem_cons_of_mem _ hx)

/-- Every request in flight on a disk has what it takes. -/
theorem Reaches.goesOn {s : AhciSmall} (h : Reaches AhciSmallStep AhciSmallInitial s)
    (hdisk : (s.dev.port 0).atapi = false) :
    ∀ be ∈ s.dev.blk.bc.bcPendq, Resumable ((s.dev.port 0).ioreq be.beReq) be.beOp := by
  obtain ⟨base, -, -, hall⟩ := h.guarded.requests hdisk
    (fun base => @goesOn_rules (blockifOpen base).frame rfl _)
    fun base => ⟨⟨rfl, rfl⟩, fun x hx => absurd hx List.not_mem_nil⟩
  exact fun be hbe => hall (be.beReq, be.beOp) (List.mem_map_of_mem hbe)

/-! ## Resuming a command -/

/-- The handlers of an ATA disk that submit requests. -/
inductive AtaHandler : Type where
  | rw
  | flush
  | dsmTrim
  deriving DecidableEq, Repr

/-- The handler that submits requests with an operation. -/
def Blockop.handler : Blockop → AtaHandler
  | .read | .write => .rw
  | .flush => .flush
  | .delete => .dsmTrim

/-- The handler that `ata_ioreq_cb` resumes for request `a`. -/
def resumedHandler (c : PortCtx) (a : Nat) : AtaHandler :=
  if ataDsm c (c.p.ioreq a).cfis then .dsmTrim else .rw

/-- Request `be` is what `blockif_thr` serves next, without an error, and has more to do. -/
structure Continuing (s : AhciSmall) (be : BlockifElem) (q : List BlockifElem) : Prop where
  serving : s.phase = .serving
  disk : (s.dev.port 0).atapi = false
  queue : s.dev.blk.bc.bcPendq = be :: q
  served : serveErr (s.dev.ctx 0) be = .zero
  more : ((s.dev.port 0).ioreq be.beReq).more = true

/-- Where its callback starts, with memory as the callback finds it. -/
def continuingCtx (s : AhciSmall) (be : BlockifElem) (q : List BlockifElem) (m : Mem) : PortCtx :=
  (serveEntry (s.dev.ctx 0) be q).lockMtx.setMem m

/-- The callback that starts in `c` resumes the handler that has submitted the request, and looks at
no byte past the buffer of `ahci_handle_dsm_trim`. -/
structure ContinuesSafely (c : PortCtx) (be : BlockifElem) : Prop where
  resumes : resumedHandler c be.beReq = be.beOp.handler
  inside : ahciIoreqBody c be.beReq .zero ≠ .error .undefined

/-- The frame in a command table is that of a TRIM command. -/
def TrimFrame (m : Mem) (cfis : U64) : Prop :=
  m (cfis + 2) = 0x06#8 ∨ (m (cfis + 2) = 0x64#8 ∧ m (cfis + 13) &&& 0x1f#8 = 0)

section

variable {s : AhciSmall} {be : BlockifElem} {q : List BlockifElem} {m : Mem}

/-- A read or write looks at no buffer of `ahci_handle_dsm_trim`. -/
theorem ahciHandleRw_defined {pd : U32} {busy : List BlockifElem} {c : PortCtx}
    (h : Tracks pd busy c) (hbusy : busy.length ≤ 1) (slot : Slot) (cfis : U64) (done : U32) :
    Ensures Defined (fun _ => True) (ahciHandleRw c slot cfis done) := by
  have hfill := ahciRwFill_filling c slot cfis done
  rw [ahciHandleRw]
  cases hok : (ahciRwFill c slot cfis done ⟨0, 0, []⟩).isOk with
  | true =>
    obtain ⟨t, a, aior, breq, ht, -⟩ := h.issue_ok hbusy hfill hok
      (ataRwFpdma (c.cfis cfis 2) && done == 0) (if c.cfis cfis 2 ∈ ataWrites then .write else .read)
    rw [ht]
    exact trivial
  | false =>
    rw [h.issue_error hfill hok]
    intro h
    cases h

theorem ataDsm_iff (c : PortCtx) (cfis : U64) : ataDsm c cfis = true ↔ TrimFrame c.mem cfis := by
  rw [ataDsm, Bool.or_eq_true, Bool.and_eq_true, beq_iff_eq, beq_iff_eq, beq_iff_eq]
  exact Iff.rfl

/-- What goes on is a read or write that has done at least one sector. -/
theorem Continuing.rwMore (h : Continuing s be q) (hreach : Reaches AhciSmallStep AhciSmallInitial s) :
    RwMore ((s.dev.port 0).ioreq be.beReq) be.beOp := by
  have hmem : be ∈ s.dev.blk.bc.bcPendq := by
    rw [h.queue]
    exact List.mem_cons_self
  exact (hreach.goesOn h.disk be hmem).served h.served h.more

theorem Continuing.body (h : Continuing s be q) :
    ahciIoreqBody (continuingCtx s be q m) be.beReq .zero =
      if ataDsm (continuingCtx s be q m) ((s.dev.port 0).ioreq be.beReq).cfis then
        ahciHandleDsmTrim (callbackCtx (continuingCtx s be q m) be.beReq .zero)
          ((s.dev.port 0).ioreq be.beReq).slot ((s.dev.port 0).ioreq be.beReq).cfis
          ((s.dev.port 0).ioreq be.beReq).done
      else
        (ahciHandleRw (callbackCtx (continuingCtx s be q m) be.beReq .zero)
          ((s.dev.port 0).ioreq be.beReq).slot ((s.dev.port 0).ioreq be.beReq).cfis
          ((s.dev.port 0).ioreq be.beReq).done).map (·, false) := by
  have hdisk : (continuingCtx s be q m).p.atapi = false := h.disk
  have hmore : ((continuingCtx s be q m).p.ioreq be.beReq).more = true := h.more
  rw [ahciIoreqBody, if_neg (by rw [hdisk]; exact Bool.false_ne_true), ataIoreqBody]
  simp only [hmore, and_self, if_true]
  rfl

/-- A read or write that finds a TRIM command in its table looks past the buffer. -/
theorem Continuing.overruns (h : Continuing s be q)
    (hreach : Reaches AhciSmallStep AhciSmallInitial s)
    (htrim : TrimFrame m ((s.dev.port 0).ioreq be.beReq).cfis) :
    ahciIoreqBody (continuingCtx s be q m) be.beReq .zero = .error .undefined := by
  have hstarted := (h.rwMore hreach).started
  have hdsm := (ataDsm_iff (continuingCtx s be q m) _).2 htrim
  rw [h.body, if_pos hdsm, ahciHandleDsmTrim, ahciTrimNext, if_pos (by omega)]
  rfl

end

/-- **Continuations are safe** where the table does not hold a TRIM command by then. A new command
never looks past the buffer. -/
theorem continuation_safe_iff {s : AhciSmall} (h : Reaches AhciSmallStep AhciSmallInitial s)
    {be : BlockifElem} {q : List BlockifElem} (hgoes : Continuing s be q) (m : Mem) :
    (ContinuesSafely (continuingCtx s be q m) be ↔
      ¬ TrimFrame m ((s.dev.port 0).ioreq be.beReq).cfis) ∧
    ∀ slot cfis, ahciHandleCmd ((s.dev.ctx 0).setMem m) slot cfis ≠ .error .undefined := by
  have hrw : be.beOp.handler = .rw := by
    rcases (hgoes.rwMore h).isRw with hop | hop <;> rw [hop] <;> rfl
  have hdsm := ataDsm_iff (continuingCtx s be q m) ((s.dev.port 0).ioreq be.beReq).cfis
  refine ⟨⟨fun hsafe htrim => ?_, fun hno => ?_⟩, fun slot cfis => ?_⟩
  · exact hsafe.inside (hgoes.overruns h htrim)
  · have hfalse : ataDsm (continuingCtx s be q m) ((s.dev.port 0).ioreq be.beReq).cfis = false :=
      Bool.eq_false_iff.2 fun hyes => hno (hdsm.1 hyes)
    refine ⟨?_, ?_⟩
    · rw [hrw, resumedHandler]
      exact if_neg (Bool.eq_false_iff.1 hfalse)
    · have htracked := ((h.small_ok.dev (by rw [hgoes.serving]; rfl)).tracked.reap hgoes.queue)
      have hreap : TrackedBut ((s.dev.port 0).ioreq be.beReq).slot [{ be with beStatus := .done }]
          (ahciReap (continuingCtx s be q m) be.beReq) := Tracks.setMem htracked m
      have hctx := hreap.setPrdbc ((s.dev.port 0).ioreq be.beReq) .zero
      rw [hgoes.body, if_neg (Bool.eq_false_iff.1 hfalse)]
      have hdefined := (ahciHandleRw_defined hctx (Nat.le_refl 1)
        ((s.dev.port 0).ioreq be.beReq).slot ((s.dev.port 0).ioreq be.beReq).cfis
        ((s.dev.port 0).ioreq be.beReq).done).map (f := (·, false)) (R := fun _ => True)
        fun _ _ => trivial
      exact fun hstop => hdefined.of_error hstop rfl
  · have htracked : Tracked s.phase.busy (cmdCtx ((s.dev.ctx 0).setMem m) slot cfis) :=
      Tracks.congr h.small_ok.tracked rfl rfl rfl rfl rfl rfl
    have hdefined := (ahciCmdSwitch_ends (cmdCtx ((s.dev.ctx 0).setMem m) slot cfis) slot cfis).defined
      htracked (AhciSmall.Ok.busy_length s)
    exact fun hstop => hdefined.of_error hstop rfl

/-! ## A read that goes on -/

/-- A READ DMA of 256 sectors, with a table of entries of 16 bytes. -/
def chunkMem : Mem := fun a =>
  if a = 0 then fisTypeRegH2D
  else if a = 1 then 0x80#8
  else if a = 2 then 0xc8#8
  else if 0x80 ≤ a.toNat ∧ a.toNat % 16 = 12 then 0x0f#8
  else 0

/-- It is issued, and `blockif_thr` starts. -/
def chunkRun : List AhciLabel :=
  startPort (fun _ => chunkMem) ++ [.write (fun _ => chunkMem) 5 0x138 0x1, .enter]

/-- The first element of the queue has more to do. -/
def AhciSys.goesOn (s : AhciSys) : Bool :=
  s.serving && !(s.dev.port 0).atapi &&
    match s.dev.blk.bc.bcPendq with
    | [] => false
    | be :: _ => decide (serveErr (s.dev.ctx 0) be = .zero) && ((s.dev.port 0).ioreq be.beReq).more

theorem continuing_read :
    ∃ s be q, Reaches AhciSmallStep AhciSmallInitial s ∧ Continuing s be q := by
  have hrun : ((ahciBlank false).execAll 3 chunkRun).any AhciSys.goesOn = true := by decide +kernel
  obtain ⟨s, hs, hend⟩ := (Option.any_eq_true _ _).1 hrun
  have hreach := ahciBlank_reaches hs
  rw [AhciSys.goesOn] at hend
  cases hpend : s.dev.blk.bc.bcPendq with
  | nil =>
    rw [hpend] at hend
    simp at hend
  | cons be q =>
    rw [hpend] at hend
    simp only [Bool.and_eq_true, Bool.not_eq_true', decide_eq_true_eq] at hend
    obtain ⟨⟨hserving, hdisk⟩, hserved, hmore⟩ := hend
    refine ⟨s.small, be, q, hreach.small, ⟨?_, hdisk, hpend, hserved, hmore⟩⟩
    rw [AhciSys.small, hserving]
    rfl

theorem continuation_safe_iff_read : ∃ s be q, Continuing s be q ∧
    (ContinuesSafely (continuingCtx s be q chunkMem) be ↔
      ¬ TrimFrame chunkMem ((s.dev.port 0).ioreq be.beReq).cfis) := by
  obtain ⟨s, be, q, hreach, hgoes⟩ := continuing_read
  exact ⟨s, be, q, hgoes, (continuation_safe_iff hreach hgoes chunkMem).1⟩

/-- The guest has put a DATA SET MANAGEMENT command into its table. -/
theorem continuation_overruns :
    ¬ ∀ s, Reaches AhciSmallStep AhciSmallInitial s → ∀ be q, Continuing s be q →
      ∀ m, ContinuesSafely (continuingCtx s be q m) be := by
  intro h
  obtain ⟨s, be, q, hreach, hgoes⟩ := continuing_read
  have hsafe := h s hreach be q hgoes fun _ => 0x06#8
  exact hsafe.inside (hgoes.overruns hreach (.inl rfl))

end DeviceModel
