import DeviceModel.Ahci.Completions
import DeviceModel.Ahci.DmaPlaces
import DeviceModel.Ahci.PortLoop

/-!
# A data command from end to end

The guest issues one command that reads or writes by `PxCI`, and `dm_loop` calls
`blockif_thr` once. This file follows the bytes: through the chunks that `ahci_handle_rw`
submits, the copies of `blockif_proc`, and the callbacks that go on with the next chunk,
up to the frame that ends the command.
-/

namespace DeviceModel

namespace RwCommand

/-! ## Submitting a chunk -/

variable {x : RwCommand} {base : U64} {c d f t u : PortCtx} {start done : U32}

/-- The request `be` is for the chunk from `start` on. -/
structure Serves (x : RwCommand) (c d : PortCtx) (start : U32) (be : BlockifElem) : Prop where
  op : be.beOp = x.op
  slot : (d.p.ioreq be.beReq).slot = x.slot
  cfis : (d.p.ioreq be.beReq).cfis = x.cfis
  chunk : IsChunk (ahciRwTransfer c x.slot x.cfis) ((ahciRwTransfer c x.slot x.cfis).regions c) 512
    start (d.p.ioreq be.beReq) (d.blk.reqs be.beReq)

/-- It is the only one that is queued. -/
def Queues (x : RwCommand) (c d : PortCtx) (start : U32) : Prop :=
  ∃ be, d.blk.bc.bcPendq = [be] ∧ x.Serves c d start be

/-- **`ahci_handle_rw`** submits the chunk from `done` on. -/
theorem ahciHandleRw_submits {pd : U32} {busy : List BlockifElem} (hc : x.Holds base c)
    (hl : x.Layout base c) (hf : x.Sees c f)
    (hstart : (ahciRwTransfer c x.slot x.cfis).Starts c done)
    (htracks : Tracks pd busy f) (hbusy : busy.length ≤ 1) (hempty : f.blk.bc.bcPendq = []) :
    ∃ t a aior breq, ahciHandleRw f x.slot x.cfis done = .ok t ∧
      Issued f t x.slot a aior breq (x.queued && done == 0) x.op ∧ x.Queues c t done := by
  have hsectsz := hc.opened.sectsz
  have hlen := hc.transfer.2
  have hcount := x.count_le
  have hle := (hstart.bounds (by rw [hsectsz]; decide)).1
  have hregions : (ahciRwTransfer c x.slot x.cfis).regions f =
      (ahciRwTransfer c x.slot x.cfis).regions c := hf.regions
  have hcovers := hl.covers done hstart
  -- what goes into the request structure
  have hfill : ∀ breq, ∃ aior breq', ahciRwFill f x.slot x.cfis done breq = .ok (aior, breq') ∧
      IsChunk (ahciRwTransfer c x.slot x.cfis) ((ahciRwTransfer c x.slot x.cfis).regions c) 512 done
        aior breq' := by
    intro breq
    have hfsect := (hf.holds hc).opened.sectsz
    obtain ⟨aior, breq', hchunk, his⟩ := (ahciRwTransfer c x.slot x.cfis).chunk_ok (c := f)
      (by rw [hfsect]; decide) hle (by omega) (by rw [hregions, hfsect, ← hsectsz]; exact hcovers) breq
    rw [hregions, hfsect] at his
    refine ⟨aior, breq', ?_, his⟩
    rw [ahciRwFill_chunk, hf.transfer hc]
    exact hchunk
  have hok : (ahciRwFill f x.slot x.cfis done ⟨0, 0, []⟩).isOk = true := by
    obtain ⟨aior, breq', heq, -⟩ := hfill ⟨0, 0, []⟩
    rw [heq]
    rfl
  have hframe : f.cfis x.cfis 2 = x.fis 2 := (hf.holds hc).frame 2 (by omega)
  obtain ⟨t, a', aior', breq', ht, -⟩ := htracks.issue_ok hbusy
    (ahciRwFill_filling f x.slot x.cfis done) hok (x.queued && done == 0) x.op
  obtain ⟨a, free, aior, breq, breq', -, hfilled, hissued⟩ := ahciIssue_issued ht
  obtain ⟨aior₂, breq₂, heq, his⟩ := hfill breq
  rw [hfilled] at heq
  cases heq
  refine ⟨t, a, aior, breq', ?_, hissued, ?_⟩
  · rw [ahciHandleRw, hframe]
    exact ht
  · obtain ⟨hslot, hcfis⟩ := (ahciRwFill_filling f x.slot x.cfis done).isFor _ _ _ hfilled
    obtain ⟨be, rest, -, hbc⟩ := hissued.bc
    refine ⟨blockifNewElem f.blk.bc.lockMtx t.blk.reqs be a x.op, ?_, rfl, ?_, ?_, ?_⟩
    · have henqueue : (blockifEnqueue f.blk.bc.lockMtx t.blk.reqs be a x.op).unlockMtx.bcPendq =
          f.blk.bc.bcPendq ++ [blockifNewElem f.blk.bc.lockMtx t.blk.reqs be a x.op] := rfl
      rw [hbc, henqueue, hempty, List.nil_append]
    · rw [hissued.ioreq]
      exact (congrArg AhciIoreq.slot (Function.update_self _ _ _)).trans hslot
    · rw [hissued.ioreq]
      exact (congrArg AhciIoreq.cfis (Function.update_self _ _ _)).trans hcfis
    · have hioreq : t.p.ioreq a = aior := by rw [hissued.ioreq, Function.update_self]
      have hreqs : t.blk.reqs a = breq' := by rw [hissued.reqs, Function.update_self]
      have hbe : (blockifNewElem f.blk.bc.lockMtx t.blk.reqs be a x.op).beReq = a := rfl
      rw [hbe, hioreq, hreqs]
      exact his

/-! ## A command that goes on -/

/-- The events of a command that has been accepted. -/
def accepted (x : RwCommand) (c : PortCtx) : List AhciEvent :=
  .cmd x.slot (c.mem.readBytes x.cfis 0x80) :: if x.queued then [.d2hNcq x.slot] else []

/-- The end of the command as an event. -/
def statusEvent (x : RwCommand) : AhciEvent :=
  if x.queued then .sdb x.slot ataOk else .d2h x.slot ataOk

/-- The frame that ends the command: where it goes, and what is in it. -/
def statusType (x : RwCommand) : SataFisType := if x.queued then .setDevBits else .regD2H
def statusFis (x : RwCommand) : List U8 :=
  if x.queued then sdbFis x.slot
  else [0x34#8, 0x40#8, ataOk.setWidth 8, 0] ++ (List.range 10).map (fun i => x.fis (4 + i)) ++
    List.replicate 6 0

/-- The command in `c` goes on in `d`, and its first `done` bytes have been moved. -/
structure Going (x : RwCommand) (base : U64) (c d : PortCtx) (done : Nat) : Prop where
  frame : SameFrame c d
  moved : Moved (x.source base c) (x.target base c) (x.status c) done c.mem d.mem
  pending : d.p.pending = slotBit x.slot
  ci : d.p.ci = if x.queued then 0 else slotBit x.slot
  tfd : x.queued = true → d.p.tfd = ataOk
  wait : d.p.waitforclear = false
  log : d.log = c.log ++ x.accepted c
  is : d.p.is = c.p.is
  sact : d.p.sact = c.p.sact

/-- It goes on with the chunk from `start`, for which a request is queued. -/
structure At (x : RwCommand) (base : U64) (c d : PortCtx) (start : U32) : Prop where
  going : x.Going base c d start.toNat
  tracked : Tracked [] d
  starts : (ahciRwTransfer c x.slot x.cfis).Starts c start
  queue : x.Queues c d start

/-- It has ended, with one status for all of it. -/
structure Ended (x : RwCommand) (base : U64) (c d : PortCtx) : Prop where
  frame : SameFrame c d
  moved : Moved (x.source base c) (x.target base c) (x.status c) x.bytes c.mem d.mem
  prdbc : d.mem.read32 (c.hdr x.slot + 4) = BitVec.ofNat 32 x.bytes
  queue : d.blk.bc.bcPendq = []
  pending : d.p.pending = 0
  ci : d.p.ci = 0
  tfd : d.p.tfd = ataOk
  wait : d.p.waitforclear = false
  log : d.log = c.log ++ x.accepted c ++ [x.statusEvent]
  sact : d.p.sact = if x.queued then c.p.sact &&& ~~~slotBit x.slot else c.p.sact
  received : c.p.receives = true → d.p.is = c.p.is ||| x.statusType.irq ∧
    d.mem.readBytes (c.p.rfis + x.statusType.offset) x.statusType.len = x.statusFis

/-- What the guest has set up before the command: a port that runs, and is idle. -/
structure Ready (x : RwCommand) (base : U64) (c : PortCtx) : Prop where
  holds : x.Holds base c
  layout : x.Layout base c
  header : slotCfis c x.slot = x.cfis
  frame : c.cfis x.cfis 0 = fisTypeRegH2D
  command : c.cfis x.cfis 1 &&& 0x80#8 ≠ 0
  tracked : Tracked [] c
  atapi : c.p.atapi = false
  running : c.p.cmd &&& ahciPCmdST ≠ 0
  idle : tfdBusy c.p.tfd = false
  wait : c.p.waitforclear = false
  ci : c.p.ci = 0
  pending : c.p.pending = 0

theorem Going.sees {n : Nat} (h : x.Going base c d n) (hl : x.Layout base c) : x.Sees c d where
  frame := h.frame
  control := fun _ ha => h.moved.kept_of_notMem (fun ht => hl.control ht ha) fun hs =>
    hl.status hs (List.mem_append_right _ ha)

/-- The area for received frames is part of `status`. -/
theorem notMem_rfis (hs : SameFrame c d) {a : U64} (h : a ∉ x.status c) :
    a ∉ Mem.addrs d.p.rfis 0x100 := by
  rw [hs.rfis]
  exact fun ha => h (List.mem_append_right _ ha)

theorem status_target (hl : x.Layout base c) : (x.status c).Disjoint (x.target base c) :=
  fun _ hs ht => hl.status hs (List.mem_append_left _ (List.mem_append_right _ ht))

theorem status_source (hl : x.Layout base c) : (x.status c).Disjoint (x.source base c) :=
  fun _ hs ht => hl.status hs (List.mem_append_left _ (List.mem_append_left _ ht))

/-- What is submitted goes on from `f`. -/
theorem Going.issued {n a : Nat} {aior : AhciIoreq} {breq : BlockifReq} {op : Blockop}
    (hl : x.Layout base c) (h : x.Going base c f n) (hi : Issued f t x.slot a aior breq false op)
    (hmem : ∀ a, a ∉ Mem.addrs f.p.rfis 0x100 → t.mem a = f.mem a) : x.Going base c t n where
  frame := h.frame.trans hi.frame
  moved := h.moved.distract (status_target hl) fun a ha => hmem a (notMem_rfis h.frame ha)
  pending := by rw [hi.pending, h.pending, BitVec.or_self]
  ci := by rw [hi.ci, if_neg Bool.false_ne_true, h.ci]
  tfd := fun hq => by rw [hi.tfd, if_neg Bool.false_ne_true, h.tfd hq]
  wait := hi.wait.trans h.wait
  log := by rw [hi.log, if_neg Bool.false_ne_true, List.append_nil, h.log]
  is := hi.is.trans h.is
  sact := hi.sact.trans h.sact

/-- The element of the chunk becomes free. -/
theorem Going.exit {n : Nat} (h : x.Going base c t n) (be : BlockifElem) :
    x.Going base c (serveExit t.unlockMtx be) n :=
  ⟨h.frame, h.moved, h.pending, h.ci, h.tfd, h.wait, h.log, h.is, h.sact⟩

/-! ## Serving a chunk -/

/-- The callback of `be` starts in this state, and decides in the second one. -/
def entered (d : PortCtx) (be : BlockifElem) : PortCtx := (serveEntry d be []).lockMtx
def resumed (d : PortCtx) (be : BlockifElem) : PortCtx := callbackCtx (entered d be) be.beReq .zero

/-- A request stays queued when the element before it becomes free. -/
theorem Queues.exit (h : x.Queues c t start) (be : BlockifElem) :
    x.Queues c (serveExit t.unlockMtx be) start := by
  obtain ⟨e, hpend, hop, hslot, hcfis, his⟩ := h
  have hreq := blockifUnblock_req t.blk.reqs be.beBlock e
  refine ⟨blockifUnblock t.blk.reqs be.beBlock e, congrArg (List.map _) hpend,
    (blockifUnblock_op _ _ _).trans hop, ?_, ?_, ?_⟩
  all_goals rw [hreq]
  · exact hslot
  · exact hcfis
  · exact his

section Serving

variable {be : BlockifElem}

/-- **The chunk has been moved** when its callback starts. -/
theorem At.enters (hc : x.Ready base c) (h : x.At base c d start) (hs : x.Serves c d start be) :
    serveErr d be = .zero ∧ x.Going base c (entered d be) (d.p.ioreq be.beReq).done.toNat := by
  have hl := hc.layout
  obtain ⟨hmoved, hkept, hzero⟩ := blockifTransfer_piece hc.holds hl (s := d.blk)
    (hc.holds.opened.same h.going.frame) hs.op rfl hs.chunk
  refine ⟨hzero, h.going.frame, ?_, h.going.pending, h.going.ci, h.going.tfd, h.going.wait, h.going.log,
    h.going.is, h.going.sact⟩
  rw [hs.chunk.moved]
  exact h.going.moved.piece hl.nodup hl.apart (status_source hl) hmoved hkept

/-- It goes on after `prdbc` has been stored. -/
theorem At.resumes (hc : x.Ready base c) (h : x.At base c d start) (hs : x.Serves c d start be) :
    x.Going base c (resumed d be) (d.p.ioreq be.beReq).done.toNat ∧
      (resumed d be).mem.read32 (c.hdr x.slot + 4) = (d.p.ioreq be.beReq).done := by
  obtain ⟨-, hgoing⟩ := h.enters hc hs
  have hhdr : d.hdr x.slot = c.hdr x.slot := (h.going.sees hc.layout).hdr x.slot
  have hmem : (resumed d be).mem =
      (entered d be).mem.write32 (c.hdr x.slot + 4) (d.p.ioreq be.beReq).done := by
    rw [← hhdr, ← hs.slot]
    rfl
  refine ⟨⟨hgoing.frame, ?_, hgoing.pending, hgoing.ci, hgoing.tfd, hgoing.wait, hgoing.log, hgoing.is,
    hgoing.sact⟩, ?_⟩
  · rw [hmem]
    refine hgoing.moved.distract (status_target hc.layout) fun a ha => ?_
    exact Mem.write32_of_notMem fun hprdbc => ha (List.mem_append_left _ hprdbc)
  · rw [hmem, Mem.read32_write32]

/-- A chunk that is not the last leads to another one, at least a sector further. -/
theorem goes_on {aior : AhciIoreq} {breq : BlockifReq} (hc : x.Holds base c) (hl : x.Layout base c)
    (hstart : (ahciRwTransfer c x.slot x.cfis).Starts c start)
    (his : IsChunk (ahciRwTransfer c x.slot x.cfis) ((ahciRwTransfer c x.slot x.cfis).regions c) 512
      start aior breq) (hmore : aior.more = true) :
    (ahciRwTransfer c x.slot x.cfis).Starts c aior.done ∧ start.toNat + 512 ≤ aior.done.toNat := by
  have hsectsz := hc.opened.sectsz
  have hsome : 0 < c.blk.bc.bcSectsz := by
    rw [hsectsz]
    decide
  have hlen := hc.transfer.2
  have hcount := x.count_le
  obtain ⟨hlt, hfull⟩ := his.more hmore
  obtain ⟨hle, hdvd⟩ := hstart.bounds hsome
  -- the chunk that the handler makes here is this one
  obtain ⟨aior', breq', hchunk, his'⟩ := hstart.chunk (m := c.mem) hsome (by omega) hl.covers rfl
  rw [hsectsz] at his' hdvd
  have hdone : aior'.done = aior.done := by
    refine BitVec.eq_of_toNat_eq ?_
    rw [his'.moved, his.moved, his'.resid, his.resid]
  have hmore' : aior'.more = true := by
    by_contra hlast
    have hend := (AhciTransfer.isChunk_whole his' hle (by rw [hlen]; exact Nat.dvd_mul_left _ _)
      (by rw [hlen]; exact hl.fits) hdvd).2 (Bool.eq_false_iff.2 hlast)
    rw [hdone] at hend
    omega
  have hcover := hl.covers start hstart
  rw [hsectsz] at hcover
  have hpieces := hcover hfull
  have hresid := his.resid
  have hmoved := his.moved
  rw [ahciMoved, if_pos hfull] at hresid
  refine ⟨.next hstart (l := c.mem) ⟨rfl, aior', breq', hchunk, hmore', hdone⟩, ?_⟩
  omega

/-- The last chunk leads to the end. -/
theorem last_done {aior : AhciIoreq} {breq : BlockifReq} (hc : x.Holds base c)
    (hl : x.Layout base c) (hstart : (ahciRwTransfer c x.slot x.cfis).Starts c start)
    (his : IsChunk (ahciRwTransfer c x.slot x.cfis) ((ahciRwTransfer c x.slot x.cfis).regions c) 512
      start aior breq) (hmore : aior.more = false) : aior.done.toNat = x.bytes := by
  have hsectsz := hc.opened.sectsz
  have hlen := hc.transfer.2
  obtain ⟨hle, hdvd⟩ := hstart.bounds (by rw [hsectsz]; decide)
  rw [hsectsz] at hdvd
  have hend := (AhciTransfer.isChunk_whole his hle (by rw [hlen]; exact Nat.dvd_mul_left _ _)
    (by rw [hlen]; exact hl.fits) hdvd).2 hmore
  exact hend.trans hlen

theorem At.tracked_resumed (h : x.At base c d start) (hs : x.Serves c d start be)
    (hpend : d.blk.bc.bcPendq = [be]) :
    TrackedBut x.slot [{ be with beStatus := .done }] (resumed d be) := by
  have hreap := (h.tracked.reap hpend).setPrdbc (d.p.ioreq be.beReq) .zero
  rw [hs.slot] at hreap
  exact hreap

/-- What the callback does, but for `ahci_handle_port`. -/
theorem At.body (hc : x.Ready base c) (h : x.At base c d start) (hs : x.Serves c d start be) :
    ahciIoreqBody (entered d be) be.beReq .zero =
      if (d.p.ioreq be.beReq).more = true then
        (ahciHandleRw (resumed d be) x.slot x.cfis (d.p.ioreq be.beReq).done).map (·, false)
      else .ok (ataIoreqEnd (resumed d be) (d.p.ioreq be.beReq) x.queued .zero, true) := by
  have hsees := (h.enters hc hs).2.sees hc.layout
  have hatapi : (entered d be).p.atapi = false := hsees.frame.atapi.trans hc.atapi
  have hioreq : (entered d be).p.ioreq be.beReq = d.p.ioreq be.beReq := rfl
  have hncq : ataNcq ((entered d be).cfis x.cfis 2) = x.queued := by
    rw [(hsees.holds hc.holds).frame 2 (by omega), ataNcq_rw x.isRw]
    rfl
  rw [ahciIoreqBody, hatapi, if_neg Bool.false_ne_true, ataIoreqBody]
  simp only [hioreq, hs.cfis, hs.slot, hncq, ataDsm_rw (hsees.holds hc.holds), true_and,
    Bool.false_eq_true, if_false]
  rfl

/-- The callback has returned without `ahci_handle_port`, and its element is free again. -/
theorem serve_returns (hq : QueueOk d.blk.bc d.blk.reqs) (hidle : d.blk.bc.bcBusyq = [])
    (hpend : d.blk.bc.bcPendq = [be]) (hzero : serveErr d be = .zero)
    (hbody : ahciIoreqBody (entered d be) be.beReq .zero = .ok (t, false))
    (ht : Tracked [{ be with beStatus := .done }] t) (fuel : Nat) (M : Nat → Mem) :
    blockifServe (ahciClient fuel M) d =
      .ok (some (serveExit t.unlockMtx { be with beStatus := .done })) := by
  have hcb : ahciIoreqCb fuel M be.beReq .zero (serveEntry d be []) = .ok t.unlockMtx := by
    rw [ahciIoreqCb]
    exact Except.bind_ok hbody
  have hfinish := (@blockifFinish_port t.unlockMtx fuel M { be with beStatus := .done } ht.queue
    ht.busyq rfl).1
  rw [blockifServe_cons hq hidle hpend, hzero, Except.bind_ok hcb, hfinish]

/-- **The callback submits** the next chunk. -/
theorem At.more (hc : x.Ready base c) (h : x.At base c d start) (hs : x.Serves c d start be)
    (hpend : d.blk.bc.bcPendq = [be]) (hmore : (d.p.ioreq be.beReq).more = true) (fuel : Nat)
    (M : Nat → Mem) :
    ∃ u, blockifServe (ahciClient fuel M) d = .ok (some u) ∧
      x.At base c u (d.p.ioreq be.beReq).done ∧
      start.toNat + 512 ≤ (d.p.ioreq be.beReq).done.toNat := by
  have hl := hc.layout
  have hbut := h.tracked_resumed hs hpend
  obtain ⟨hgoing, -⟩ := h.resumes hc hs
  obtain ⟨hnext, hfar⟩ := goes_on hc.holds hl h.starts hs.chunk hmore
  have hne : ((d.p.ioreq be.beReq).done == 0) = false := by
    refine beq_eq_false_iff_ne.2 fun hzero => ?_
    rw [hzero] at hfar
    exact absurd hfar (Nat.not_le.2 (Nat.lt_of_lt_of_le (by decide) (Nat.le_add_left 512 _)))
  obtain ⟨t, a, aior, breq, ht, hissued, hqueues⟩ := ahciHandleRw_submits hc.holds hl
    (hgoing.sees hl) hnext hbut (Nat.le_refl 1) rfl
  rw [hne, Bool.and_false] at hissued
  have hmem : ∀ a, a ∉ Mem.addrs (resumed d be).p.rfis 0x100 → t.mem a = (resumed d be).mem a :=
    fun _ ha => ahciHandleRw_mem ht ha
  have htracked : Tracked [{ be with beStatus := .done }] t := by
    rw [ahciHandleRw] at ht
    exact (hbut.issue (Nat.le_refl 1) (ahciRwFill_filling _ _ _ _) _ _).of_ok ht
  have hbody : ahciIoreqBody (entered d be) be.beReq .zero = .ok (t, false) := by
    rw [h.body hc hs, if_pos hmore, ht]
    rfl
  have hserve := serve_returns h.tracked.queue h.tracked.busyq hpend (h.enters hc hs).1 hbody
    htracked fuel M
  refine ⟨_, hserve, ⟨?_, ?_, hnext, ?_⟩, hfar⟩
  · exact (hgoing.issued hl hissued hmem).exit _
  · exact (blockifServe_tracked h.tracked fuel M).of_ok hserve _ rfl
  · exact hqueues.exit _

/-- The frame that ends the command. -/
def statusFrame (x : RwCommand) (f : PortCtx) : PortCtx :=
  if x.queued then ahciWriteFisSdb f x.slot x.cfis ataOk else ahciWriteFisD2h f x.slot x.cfis ataOk

theorem Going.status {n : Nat} (h : x.Going base c f n) :
    Reports f (x.statusFrame f) ∧
      (∀ a, a ∉ Mem.addrs f.p.rfis 0x100 → (x.statusFrame f).mem a = f.mem a) ∧
      (x.statusFrame f).p.ci = 0 ∧ (x.statusFrame f).p.tfd = ataOk ∧
      (x.statusFrame f).p.waitforclear = false ∧ (x.statusFrame f).log = f.log ++ [x.statusEvent] := by
  have hok : tfdError ataOk = false := by decide
  have hself : ataOk &&& ~~~0x77#32 ||| ataOk &&& 0x77#32 = ataOk := by decide
  have hci := h.ci
  rw [statusFrame, statusEvent]
  cases hq : x.queued with
  | true =>
    refine ⟨ahciWriteFisSdb_reports _ _ _ _, fun a ha => ahciWriteFisSdb_mem _ _ _ ha, ?_⟩
    obtain ⟨is, sc, m, dev, sact, -, heq⟩ := ahciWriteFisSdb_spec f x.slot x.cfis ataOk
    rw [hq, if_pos rfl] at hci
    rw [if_pos rfl, heq, if_pos rfl]
    refine ⟨hci, ?_, ?_, rfl⟩
    · rw [h.tfd hq]
      exact hself
    · rw [h.wait, hok, Bool.and_false, Bool.or_false]
  | false =>
    refine ⟨ahciWriteFisD2h_reports _ _ _ _, fun a ha => ahciWriteFisD2h_mem _ _ _ ha, ?_⟩
    obtain ⟨is, sc, m, dev, -, heq⟩ := ahciWriteFisD2h_spec f x.slot x.cfis ataOk
    rw [hq, if_neg Bool.false_ne_true] at hci
    rw [if_neg Bool.false_ne_true, heq, if_neg Bool.false_ne_true]
    refine ⟨?_, rfl, ?_, rfl⟩
    · rw [hok, if_neg Bool.false_ne_true, hci]
      exact BitVec.and_not_self _
    · rw [h.wait, hok, Bool.and_false, Bool.or_false]

/-- What the guest finds of it: the bit of a queued command leaves `PxSACT`, and where the port
receives frames, the frame is in its place and its bit in `PxIS`. -/
theorem Going.received {n : Nat} (hc : x.Ready base c) (h : x.Going base c f n) :
    (x.statusFrame f).p.sact = (if x.queued then c.p.sact &&& ~~~slotBit x.slot else c.p.sact) ∧
      (c.p.receives = true → (x.statusFrame f).p.is = c.p.is ||| x.statusType.irq ∧
        (x.statusFrame f).mem.readBytes (c.p.rfis + x.statusType.offset) x.statusType.len =
          x.statusFis) := by
  have hsees := h.sees hc.layout
  rw [statusFrame, statusType, statusFis]
  cases hq : x.queued with
  | true =>
    obtain ⟨hsact, hreceived⟩ := ahciWriteFisSdb_received f x.slot x.cfis
    rw [if_pos rfl, hsact, h.sact]
    refine ⟨rfl, fun hr => ?_⟩
    obtain ⟨hmem, his⟩ := hreceived (h.frame.receives.trans hr)
    rw [if_pos rfl, if_pos rfl, his, h.is, hmem, h.frame.rfis]
    exact ⟨rfl, Mem.readBytes_writeBytes (sdbFis x.slot) f.mem _ (by simp [sdbFis])⟩
  | false =>
    obtain ⟨is, sc, m, dev, -, hspec⟩ := ahciWriteFisD2h_spec f x.slot x.cfis ataOk
    have hsact : (ahciWriteFisD2h f x.slot x.cfis ataOk).p.sact = f.p.sact := by rw [hspec]
    simp only [Bool.false_eq_true, if_false]
    refine ⟨hsact.trans h.sact, fun hr => ?_⟩
    obtain ⟨hmem, -, his⟩ := ahciWriteFisD2h_received (h.frame.receives.trans hr) x.slot x.cfis ataOk
    rw [his, h.is, hmem, hsees.readFis hc.holds, h.frame.rfis]
    refine ⟨rfl, ?_⟩
    have hlen : ([0x34#8, 0x40#8, ataOk.setWidth 8, 0] ++
        (List.range 10).map (fun i => x.fis (4 + i)) ++ List.replicate 6 0).length = 20 := by simp
    have hread := Mem.readBytes_writeBytes ([0x34#8, 0x40#8, ataOk.setWidth 8, 0] ++
      (List.range 10).map (fun i => x.fis (4 + i)) ++ List.replicate 6 0) f.mem (c.p.rfis + 0x40)
      (hlen.le.trans (by decide))
    rw [hlen] at hread
    exact hread

/-- **The command ends** in the state `f` in which its last callback decides. -/
theorem Going.ends (hc : x.Ready base c) (h : x.Going base c f x.bytes)
    (hprdbc : f.mem.read32 (c.hdr x.slot + 4) = BitVec.ofNat 32 x.bytes)
    (hpend : f.blk.bc.bcPendq = []) : x.Ended base c (ahciFinished (x.statusFrame f) x.slot) := by
  have hl := hc.layout
  obtain ⟨hreports, hmem, hci, htfd, hwait, hlog⟩ := h.status
  obtain ⟨hsact, hreceived⟩ := h.received hc
  have hframe := h.frame.trans hreports.frame
  have hrun : (x.statusFrame f).p.cmd &&& ahciPCmdST ≠ 0 := by
    rw [hframe.running]
    exact hc.running
  rw [ahciFinished_running x.slot hrun]
  refine ⟨hframe, ?_, ?_, ?_, ?_, hci, htfd, hwait, ?_, hsact, hreceived⟩
  · exact h.moved.distract (status_target hl) fun a ha => hmem a (notMem_rfis h.frame ha)
  · -- the frame is in an area of its own
    rw [← hprdbc]
    refine Mem.read32_congr fun a ha => hmem a ?_
    rw [h.frame.rfis]
    exact hl.prdbc ha
  · exact (congrArg BlockifCtxt.bcPendq hreports.bc).trans hpend
  · simp only [hreports.pending, h.pending, BitVec.and_not_self]
  · exact hlog.trans (by rw [h.log])

/-- The port finds nothing to do at the end of the callback. -/
theorem Ended.handlePort (hc : x.Ready base c) (h : x.Ended base c t) (fuel : Nat) (M : Nat → Mem) :
    ahciHandlePort (fuel + 1) M t = .ok t := by
  have hwaiting : t.p.waiting = 0 := by
    rw [AhciPort.waiting, h.ci]
    exact BitVec.zero_and
  rw [ahciHandlePort, h.frame.running, if_neg hc.running]
  exact ahciPortLoop_returns (.inl hwaiting) fuel

/-- Its element becomes free. -/
theorem Ended.exit (h : x.Ended base c t) (be : BlockifElem) :
    x.Ended base c (serveExit t.unlockMtx be) where
  frame := h.frame
  moved := h.moved
  prdbc := h.prdbc
  queue := congrArg (List.map _) h.queue
  pending := h.pending
  ci := h.ci
  tfd := h.tfd
  wait := h.wait
  log := h.log
  sact := h.sact
  received := h.received

/-- **The callback ends** the command after its last chunk. -/
theorem At.last (hc : x.Ready base c) (h : x.At base c d start) (hs : x.Serves c d start be)
    (hpend : d.blk.bc.bcPendq = [be]) (hmore : (d.p.ioreq be.beReq).more = false) (fuel : Nat)
    (M : Nat → Mem) :
    ∃ u, blockifServe (ahciClient (fuel + 1) M) d = .ok (some u) ∧ x.Ended base c u := by
  obtain ⟨hgoing, hprdbc⟩ := h.resumes hc hs
  have hbytes := last_done hc.holds hc.layout h.starts hs.chunk hmore
  have hdone : (d.p.ioreq be.beReq).done = BitVec.ofNat 32 x.bytes := by
    rw [← hbytes, BitVec.ofNat_toNat, BitVec.setWidth_eq]
  rw [hbytes] at hgoing
  have hended := hgoing.ends hc (hprdbc.trans hdone) rfl
  have hbody : ahciIoreqBody (entered d be) be.beReq .zero =
      .ok (ahciFinished (x.statusFrame (resumed d be)) x.slot, true) := by
    rw [h.body hc hs, hmore, if_neg Bool.false_ne_true, ataIoreqEnd, hs.slot, hs.cfis]
    rfl
  have hcb : ahciIoreqCb (fuel + 1) M be.beReq .zero (serveEntry d be []) =
      .ok (ahciFinished (x.statusFrame (resumed d be)) x.slot).unlockMtx := by
    rw [ahciIoreqCb]
    refine (Except.bind_ok hbody).trans ?_
    exact Except.bind_ok (hended.handlePort hc fuel M)
  have htracked : Tracked [{ be with beStatus := .done }]
      (ahciFinished (x.statusFrame (resumed d be)) x.slot) :=
    ((h.tracked_resumed hs hpend).reports hgoing.status.1).finished
  have hfinish := (@blockifFinish_port (ahciFinished (x.statusFrame (resumed d be)) x.slot).unlockMtx
    (fuel + 1) M { be with beStatus := .done } htracked.queue htracked.busyq rfl).1
  refine ⟨_, ?_, hended.exit { be with beStatus := .done }⟩
  rw [blockifServe_cons h.tracked.queue h.tracked.busyq hpend, (h.enters hc hs).1,
    Except.bind_ok hcb, hfinish]

end Serving

/-! ## All of the chunks -/

/-- **One turn of `blockif_thr`** moves a chunk, and leads to another one or to the end. -/
theorem At.serve (hc : x.Ready base c) (h : x.At base c d start) (fuel : Nat) (M : Nat → Mem) :
    ∃ u, blockifServe (ahciClient (fuel + 1) M) d = .ok (some u) ∧
      (x.Ended base c u ∨
        ∃ next, x.At base c u next ∧ start.toNat + 512 ≤ next.toNat) := by
  obtain ⟨be, hpend, hs⟩ := h.queue
  cases hmore : (d.p.ioreq be.beReq).more with
  | true =>
    obtain ⟨u, hserve, hat, hfar⟩ := h.more hc hs hpend hmore (fuel + 1) M
    exact ⟨u, hserve, .inr ⟨_, hat, hfar⟩⟩
  | false =>
    obtain ⟨u, hserve, hended⟩ := h.last hc hs hpend hmore fuel M
    exact ⟨u, hserve, .inl hended⟩

/-- The chunks from `start` on, in as many turns as there are sectors left, and one more. -/
theorem At.loop (hc : x.Ready base c) (fuel : Nat) (M : Nat → Mem) :
    ∀ (n : Nat) (start : U32) (d : PortCtx), x.bytes < start.toNat + 512 * n → x.At base c d start →
      ∃ u, blockifThrLoop (ahciClient (fuel + 1) M) (n + 1) d = .ok u ∧ x.Ended base c u := by
  intro n
  induction n with
  | zero =>
    intro start d hn h
    have hle := (h.starts.bounds (by rw [hc.holds.opened.sectsz]; decide)).1
    have hlen := hc.holds.transfer.2
    rw [bytes] at hn
    omega
  | succ n ih =>
    intro start d hn h
    obtain ⟨u, hserve, hu⟩ := h.serve hc fuel M
    have htracked := (blockifServe_tracked h.tracked (fuel + 1) M).of_ok hserve u rfl
    have hnext : blockifThrLoop (ahciClient (fuel + 1) M) (n + 1 + 1) d =
        blockifThrLoop (ahciClient (fuel + 1) M) (n + 1) u := by
      rw [blockifThrLoop_succ, Except.bind_ok hserve]
    rcases hu with hended | ⟨next, hat, hfar⟩
    · refine ⟨u, ?_, hended⟩
      rw [hnext, blockifThrLoop_succ,
        Except.bind_ok (blockifServe_nil htracked.queue htracked.busyq hended.queue)]
    · rw [hnext]
      exact ih next u (by omega) hat

/-- **`blockif_thr`** moves all of it. -/
theorem At.thr (hc : x.Ready base c) (h : x.At base c d 0) (fuel : Nat) (M : Nat → Mem) {n : Nat}
    (hn : x.count < n) :
    ∃ u, blockifThr (ahciClient (fuel + 1) M) (n + 1) d = .ok u ∧ x.Ended base c u := by
  obtain ⟨be, hpend, hs⟩ := h.queue
  have hgoing := h.going
  have htracked := h.tracked
  -- the mutex is no part of what the loop depends on
  have hat : x.At base c { d with blk := { d.blk with bc := d.blk.bc.lockMtx } } 0 :=
    ⟨⟨hgoing.frame, hgoing.moved, hgoing.pending, hgoing.ci, hgoing.tfd, hgoing.wait, hgoing.log,
        hgoing.is, hgoing.sact⟩,
      ⟨htracked.opened, htracked.part, htracked.slots, htracked.bits,
        htracked.queue.congr rfl rfl rfl fun _ _ => rfl, htracked.busyq, htracked.queued⟩,
      h.starts, be, hpend, hs.op, hs.slot, hs.cfis, hs.chunk⟩
  have hbytes : x.bytes < (0 : U32).toNat + 512 * n := by
    have hzero : (0 : U32).toNat = 0 := rfl
    rw [bytes, hzero]
    omega
  obtain ⟨u, hloop, hended⟩ := hat.loop hc fuel M n 0 _ hbytes
  exact ⟨_, Except.bind_ok hloop, hended.frame, hended.moved, hended.prdbc, hended.queue,
    hended.pending, hended.ci, hended.tfd, hended.wait, hended.log, hended.sact, hended.received⟩

/-! ## The command is issued -/

/-- Nothing is queued where no slot is in flight. -/
theorem Tracked.queue_nil {busy : List BlockifElem} (h : Tracked busy c) (hz : c.p.pending = 0) :
    c.blk.bc.bcPendq = [] := by
  have hidle : c.p.iobhd = [] := by
    refine List.eq_nil_iff_forall_not_mem.2 fun a ha => ?_
    have hbit := (h.bits (c.p.ioreq a).slot).2 ⟨a, ha, rfl⟩
    rw [hz] at hbit
    exact absurd (BitVec.getLsbD_zero.symm.trans hbit) Bool.false_ne_true
  have hperm := h.queued
  rw [hidle, List.perm_nil, List.map_eq_nil_iff] at hperm
  exact hperm

/-- The command waits in its slot. -/
structure Waiting (x : RwCommand) (c d : PortCtx) : Prop where
  frame : SameFrame c d
  mem : d.mem = c.mem
  tracked : Tracked [] d
  pending : d.p.pending = 0
  ci : d.p.ci = slotBit x.slot
  idle : tfdBusy d.p.tfd = false
  wait : d.p.waitforclear = false
  log : d.log = c.log
  is : d.p.is = c.p.is
  sact : d.p.sact = c.p.sact

/-- The command gets to `ahci_handle_rw`. -/
theorem handleSlot_rw (hc : x.Ready base c) (h : x.Sees c d) :
    ahciHandleSlot d x.slot = ahciHandleRw (cmdCtx d x.slot x.cfis) x.slot x.cfis 0 := by
  have hopen : d.p.opened = true := h.frame.opened.trans hc.tracked.opened
  have hheader : slotCfis d x.slot = x.cfis := h.slotCfis.trans hc.header
  have hframe : d.cfis x.cfis 0 = fisTypeRegH2D := (h.cfis (by omega)).trans hc.frame
  have hcommand : d.cfis x.cfis 1 &&& 0x80#8 ≠ 0 := by
    rw [h.cfis (by omega)]
    exact hc.command
  have hrw : ataCmd ((cmdCtx d x.slot x.cfis).cfis x.cfis 2) = .rw := by
    have hcode : (cmdCtx d x.slot x.cfis).cfis x.cfis 2 = x.fis 2 :=
      (h.holds hc.holds).frame 2 (by omega)
    rw [hcode]
    exact x.isRw
  rw [ahciHandleSlot, hopen]
  simp only [Bool.not_true, Bool.false_eq_true, if_false, hheader, hframe, ne_eq, not_true_eq_false]
  rw [if_pos hcommand, ahciHandleCmd, ahciCmdSwitch, hrw]

/-- **`ahci_handle_cmd`** submits the first chunk. -/
theorem Waiting.visit (hc : x.Ready base c) (h : x.Waiting c d) (hccs : d.p.ccs = x.slot) :
    ∃ t, ahciVisit d = .ok t ∧ x.At base c t 0 := by
  have hl := hc.layout
  have hset : SameFrame c { d with p := d.p.setCmdCcs } := h.frame.trans (setCmdCcs_frame d)
  have hsees : x.Sees c { d with p := d.p.setCmdCcs } := ⟨hset, fun a _ => congrFun h.mem a⟩
  have hvisits : d.p.visits = true := by
    rw [AhciPort.visits, AhciPort.getLsbD_waiting, hccs, h.ci, h.pending]
    simp
  have hnone : d.p.pending.getLsbD x.slot = false := by
    rw [h.pending]
    exact BitVec.getLsbD_zero
  have hempty : d.blk.bc.bcPendq = [] := Tracked.queue_nil h.tracked h.pending
  have htracked : Tracked [] (cmdCtx { d with p := d.p.setCmdCcs } x.slot x.cfis) :=
    Tracks.congr h.tracked rfl rfl rfl rfl rfl rfl
  obtain ⟨t, a, aior, breq, ht, hi, hqueues⟩ := ahciHandleRw_submits
    (f := cmdCtx { d with p := d.p.setCmdCcs } x.slot x.cfis) hc.holds hl ⟨hset, hsees.control⟩
    (.start rfl) htracked (Nat.zero_le 1) hempty
  have hvisit : ahciVisit d = .ok t := by
    rw [ahciVisit, if_pos ((AhciPort.visits_iff d.p).1 hvisits), hccs, handleSlot_rw hc hsees, ht]
  have hmem : ∀ a, a ∉ Mem.addrs d.p.rfis 0x100 → t.mem a = d.mem a := fun a ha => by
    refine (ahciHandleRw_mem ht ?_).trans rfl
    exact ha
  have hfirst : (x.queued && (0 : U32) == 0) = x.queued := Bool.and_true _
  rw [hfirst] at hi
  refine ⟨t, hvisit, ⟨hset.trans hi.frame, .zero fun a ha => ?_, ?_, ?_, ?_, ?_, ?_,
    hi.is.trans h.is, hi.sact.trans h.sact⟩, ?_, .start rfl, hqueues⟩
  · rw [hmem a (notMem_rfis h.frame ha), h.mem]
  · have hpending : t.p.pending = d.p.pending ||| slotBit x.slot := hi.pending
    rw [hpending, h.pending]
    exact BitVec.zero_or
  · have hci : t.p.ci = if x.queued then d.p.ci &&& ~~~slotBit x.slot else d.p.ci := hi.ci
    rw [hci, h.ci, BitVec.and_not_self]
  · intro hq
    rw [hi.tfd, if_pos hq]
  · exact hi.wait.trans h.wait
  · have hlog : t.log = d.log ++ [.cmd x.slot (d.mem.readBytes x.cfis 0x80)] ++
        if x.queued then [.d2hNcq x.slot] else [] := hi.log
    rw [hlog, h.log, h.mem, List.append_assoc]
    rfl
  · exact (ahciVisit_tracked h.tracked (Nat.zero_le 1)).of_ok hvisit

theorem At.nextCcs (h : x.At base c d start) : x.At base c d.nextCcs start := by
  obtain ⟨be, hpend, hs⟩ := h.queue
  have hg := h.going
  exact ⟨⟨hg.frame, hg.moved, hg.pending, hg.ci, hg.tfd, hg.wait, hg.log, hg.is, hg.sact⟩,
    Tracks.congr h.tracked rfl rfl rfl rfl rfl rfl, h.starts, be, hpend, hs.op, hs.slot, hs.cfis,
    hs.chunk⟩

theorem At.unlockMtx (h : x.At base c d start) : x.At base c d.unlockMtx start := by
  obtain ⟨be, hpend, hs⟩ := h.queue
  have hg := h.going
  exact ⟨⟨hg.frame, hg.moved, hg.pending, hg.ci, hg.tfd, hg.wait, hg.log, hg.is, hg.sact⟩,
    Tracks.congr h.tracked rfl rfl rfl rfl rfl rfl, h.starts, be, hpend, hs.op, hs.slot, hs.cfis,
    hs.chunk⟩

/-- The command in flight is the only one that `PxCI` names. -/
theorem At.waiting (h : x.At base c d start) : d.p.waiting = 0 := by
  rw [AhciPort.waiting, h.going.pending, h.going.ci]
  split
  · exact BitVec.zero_and
  · exact BitVec.and_not_self _

/-- **A write to `PxCI`** starts the command: the loop goes round to its slot. -/
theorem ci_starts (hc : x.Ready base c) {fuel : Nat} (hfuel : 33 ≤ fuel) :
    ∃ t, ahciPortWriteReg fuel (fun _ => c.mem) c .ci (slotBit x.slot) = .ok t ∧ x.At base c t 0 := by
  let d : PortCtx := { c with p := { c.p with ci := c.p.ci ||| slotBit x.slot } }
  have hci : d.p.ci = slotBit x.slot := by
    have hor : d.p.ci = c.p.ci ||| slotBit x.slot := rfl
    rw [hor, hc.ci]
    exact BitVec.zero_or
  have hwaiting : d.p.waiting = slotBit x.slot := by
    have hpending : d.p.pending = 0 := hc.pending
    rw [AhciPort.waiting, hci, hpending]
    exact BitVec.and_allOnes
  have hthere : x.Waiting c { d with p := { d.p with ccs := x.slot } } :=
    ⟨rfl, rfl, Tracks.congr hc.tracked rfl rfl rfl rfl rfl rfl, hc.pending, hci, hc.idle, hc.wait, rfl,
      rfl, rfl⟩
  obtain ⟨t, hvisit, hat⟩ := hthere.visit hc rfl
  obtain ⟨k, hk, hround⟩ : ∃ k < 32, (d.p.ccs.val + k) % 32 = x.slot.val := by
    have hlt := d.p.ccs.isLt
    have hslot := x.slot.isLt
    exact ⟨(32 + x.slot.val - d.p.ccs.val) % 32, by omega, by omega⟩
  refine ⟨t.nextCcs, ?_, hat.nextCcs⟩
  have hrun : d.p.cmd &&& ahciPCmdST ≠ 0 := hc.running
  obtain ⟨n, rfl⟩ : ∃ n, fuel = n + 1 + 1 + k := ⟨fuel - k - 2, by omega⟩
  have hloop := ahciPortLoop_round (n + 1) k d hk hround hwaiting hc.idle hc.wait
  rw [Except.bind_ok hvisit, ahciPortLoop_returns (.inl hat.nextCcs.waiting)] at hloop
  rw [ahciPortWriteReg, ahciHandlePort, if_neg hrun]
  exact hloop

end RwCommand

/-- The guest's write to `PxCI` of port 0. -/
theorem pciAhciWrite_ci {s : Ahci} {fuel : Nat} {M : Nat → Mem} {slot : Slot} {c : PortCtx}
    (hci : ahciPortWriteReg fuel M (s.lockMtx.ctx 0) .ci (slotBit slot) = .ok c) :
    pciAhciWrite fuel M s 5 0x138 ((slotBit slot).setWidth 64) =
      .ok (s.lockMtx.put 0 c).unlockMtx := by
  have hvalue : ((slotBit slot).setWidth 64).setWidth 32 = slotBit slot := by
    rw [BitVec.setWidth_setWidth_of_le _ (by decide), BitVec.setWidth_eq]
  have hport : ahciPortNo 0x138 = 0 := by decide
  have hreg : ahciPortReg ((0x138 - ahciOffset) % ahciStep) = .ci := by decide
  rw [pciAhciWrite, pciAhciWriteBody, if_neg (by decide), if_pos (by decide), pciAhciPortWrite, hport,
    hreg, hvalue, hci]
  rfl

/-- What the port is after it. -/
theorem ctx_put_unlockMtx (s : Ahci) (c : PortCtx) :
    (s.lockMtx.put 0 c).unlockMtx.ctx 0 = c.unlockMtx := by
  rw [PortCtx.unlockMtx, Ahci.unlockMtx, Ahci.ctx]
  simp only [Ahci.put, Function.update_self]

end DeviceModel
