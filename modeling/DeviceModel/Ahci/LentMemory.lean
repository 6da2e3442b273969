import DeviceModel.Library.Footprint
import DeviceModel.Ahci.DmaPlaces
import DeviceModel.Ahci.RequestRules

/-!
# The memory that a command lends

The controller writes to memory what the registers and the command tell it to: frames, the count
in the command header, data, and two bytes of the command table. It finds these places in the
header and in the table, which are not among them. This file shows for each command that
nothing else is written, and that what it leaves queued keeps to the same places.
-/

namespace DeviceModel

variable {lent : U64 → Prop} {c d e t : PortCtx} {slot : Slot} {cfis : U64}

/-! ## What is lent -/

/-- Where frames are stored, on a port that receives them. -/
def PortCtx.received (c : PortCtx) : List U64 :=
  if c.p.receives then Mem.addrs c.p.rfis 0x100 else []

/-- The sectors that a read or write names, where the disk is in memory. -/
def rwSectors (c : PortCtx) (slot : Slot) (cfis : U64) : List U64 :=
  Mem.addrs (c.blk.bc.bcBase + (ahciRwTransfer c slot cfis).off) (ahciRwTransfer c slot cfis).len.toNat

/-- The guest lends all that the controller writes for a command, and keeps what says where that
is: the entries of the PRDT and their number, and the frame of a write. -/
structure CmdLends (lent : U64 → Prop) (c : PortCtx) (slot : Slot) (cfis : U64) : Prop where
  received : ∀ a ∈ c.received, lent a
  prdbc : ∀ a ∈ Mem.addrs (c.hdr slot + 4) 4, lent a
  buffers : ∀ a ∈ prdtAddrs c slot cfis, lent a
  table : ∀ a ∈ Mem.addrs (c.hdr slot + 2) 2 ++ prdtTable c slot cfis, ¬ lent a
  command : ¬ lent (cfis + 2)
  /-- ATAPI commands and CHECK POWER MODE answer in their frame -/
  answer : c.p.atapi = true ∨ c.cfis cfis 2 = 0xe5#8 → lent (cfis + 4) ∧ lent (cfis + 12)
  writes : c.cfis cfis 2 ∈ ataWrites → c.p.atapi = false ∧
    (∀ a ∈ rwSectors c slot cfis, lent a) ∧ ∀ a ∈ Mem.addrs cfis 20, ¬ lent a

/-- What a request of the block interface writes. -/
def requestTarget (base : U64) (r : BlockifReq) : Blockop → List U64
  | .read => bufAddrs r.brIov
  | .write => Mem.addrs (base + r.brOffset) (iovTotal r.brIov)
  | .flush | .delete => []

/-- The requests that wait write lent memory. -/
def QueueLent (lent : U64 → Prop) (c : PortCtx) : Prop :=
  ∀ x ∈ c.view.queue, ∀ a ∈ requestTarget c.blk.bc.bcBase (c.blk.reqs x.1) x.2, lent a

/-- What a command leaves: it has written lent memory, and what waits will do so. -/
structure WithinLent (lent : U64 → Prop) (c t : PortCtx) : Prop where
  mem : SameOutside lent c.mem t.mem
  queue : QueueLent lent t

/-- On the way there the port and the requests stay as they are. -/
structure Confined (lent : U64 → Prop) (c d : PortCtx) : Prop where
  frame : SameFrame c d
  mem : SameOutside lent c.mem d.mem
  bc : d.blk.bc = c.blk.bc
  reqs : d.blk.reqs = c.blk.reqs
  iofhd : d.p.iofhd = c.p.iofhd

/-! ## What is lent stays lent -/

section Kept

variable (h : CmdLends lent c slot cfis) (hs : SameFrame c d) (hm : SameOutside lent c.mem d.mem)
include hs

theorem SameFrame.hdr (slot : Slot) : d.hdr slot = c.hdr slot := by
  rw [PortCtx.hdr, PortCtx.hdr, hs.cmdLst]

theorem SameFrame.received : d.received = c.received := by
  rw [PortCtx.received, PortCtx.received, hs.receives, hs.rfis]

theorem SameFrame.bcBase : d.blk.bc.bcBase = c.blk.bc.bcBase :=
  congrArg (fun f => f.2.1.bcBase) hs

include h hm

theorem CmdLends.prdtl_eq : d.prdtl slot = c.prdtl slot := by
  rw [PortCtx.prdtl, PortCtx.prdtl, hs.hdr, Mem.read16_congr]
  exact fun a ha => hm a (h.table a (List.mem_append_left _ ha))

theorem CmdLends.regions_eq :
    prdtRegions d.sc.vmctx d.mem (d.prdtl slot) (cfis + 0x80) =
      prdtRegions c.sc.vmctx c.mem (c.prdtl slot) (cfis + 0x80) := by
  rw [h.prdtl_eq hs hm, hs.vmctx]
  exact prdtRegions_congr fun a ha => hm a (h.table a (List.mem_append_right _ ha))

/-- A write is still the same one. -/
theorem CmdLends.transfer_eq (hw : c.cfis cfis 2 ∈ ataWrites) :
    ahciRwTransfer d slot cfis = ahciRwTransfer c slot cfis := by
  have hframe : ∀ i, i < 20 → d.cfis cfis i = c.cfis cfis i := fun i hi =>
    hm _ ((h.writes hw).2.2 _ (Mem.mem_addrs.2 ⟨i, hi, rfl⟩))
  have hlba : ahciRwLba (d.cfis cfis) = ahciRwLba (c.cfis cfis) := by
    rw [ahciRwLba, ahciRwLba, hframe 2 (by omega), hframe 4 (by omega), hframe 5 (by omega),
      hframe 6 (by omega), hframe 7 (by omega), hframe 8 (by omega), hframe 9 (by omega),
      hframe 10 (by omega)]
  have hlen : ahciRwLen (d.cfis cfis) = ahciRwLen (c.cfis cfis) := by
    rw [ahciRwLen, ahciRwLen, hframe 2 (by omega), hframe 3 (by omega), hframe 11 (by omega),
      hframe 12 (by omega), hframe 13 (by omega)]
  rw [ahciRwTransfer, ahciRwTransfer, hlba, hlen, h.prdtl_eq hs hm, hs.sectsz]

/-- What a command lends it lends while only lent memory is written. -/
theorem CmdLends.kept : CmdLends lent d slot cfis := by
  have hcommand : d.cfis cfis 2 = c.cfis cfis 2 := hm _ h.command
  refine ⟨?_, ?_, ?_, ?_, h.command, ?_, ?_⟩
  · rw [hs.received]
    exact h.received
  · rw [hs.hdr]
    exact h.prdbc
  · rw [prdtAddrs, h.regions_eq hs hm]
    exact h.buffers
  · rw [prdtTable, hs.hdr, h.prdtl_eq hs hm]
    exact h.table
  · rw [hs.atapi, hcommand]
    exact h.answer
  · rw [hs.atapi, hcommand]
    intro hw
    obtain ⟨hata, hsectors, hframe⟩ := h.writes hw
    rw [rwSectors, h.transfer_eq hs hm hw, hs.bcBase]
    exact ⟨hata, hsectors, hframe⟩

end Kept

namespace Confined

theorem refl (lent : U64 → Prop) (c : PortCtx) : Confined lent c c :=
  ⟨rfl, .refl lent c.mem, rfl, rfl, rfl⟩

theorem trans (h : Confined lent c d) (h' : Confined lent d e) : Confined lent c e :=
  ⟨h.frame.trans h'.frame, h.mem.trans h'.mem, h'.bc.trans h.bc, h'.reqs.trans h.reqs,
    h'.iofhd.trans h.iofhd⟩

theorem lends (h : Confined lent c d) (hc : CmdLends lent c slot cfis) : CmdLends lent d slot cfis :=
  hc.kept h.frame h.mem

/-- A report writes what it writes to memory. -/
theorem of_reports (hr : Reports c d) (hm : SameOutside lent c.mem d.mem) : Confined lent c d :=
  ⟨hr.frame, hm, hr.bc, hr.reqs, hr.iofhd⟩

theorem of_setMem {m : Mem} (hm : SameOutside lent c.mem m) : Confined lent c (c.setMem m) :=
  ⟨rfl, hm, rfl, rfl, rfl⟩

theorem queueLent (h : Confined lent c d) (hq : QueueLent lent c) : QueueLent lent d := by
  intro x hx
  have hx' : x ∈ c.view.queue := by
    rw [PortCtx.view] at hx ⊢
    rwa [h.bc] at hx
  rw [h.bc, h.reqs]
  exact hq x hx'

/-- It may stop here. -/
theorem within (h : Confined lent c d) (hq : QueueLent lent c) : WithinLent lent c d :=
  ⟨h.mem, h.queueLent hq⟩

end Confined

/-- The end of a command writes nothing. -/
theorem WithinLent.finished (h : WithinLent lent c d) (slot : Slot) :
    WithinLent lent c (ahciFinished d slot) := by
  refine ⟨h.mem, fun x hx => ?_⟩
  rw [ahciFinished_view] at hx
  exact h.queue x hx

/-! ## Frames -/

section Frames

variable (h : ∀ a ∈ c.received, lent a)
include h

/-- A frame is stored where the port receives it, whatever else has changed. -/
theorem ahciWriteFis_outside (hs : SameFrame c d) (hm : d.mem = c.mem) (ft : SataFisType)
    (fis : List U8) : SameOutside lent c.mem (ahciWriteFis d ft fis).mem := by
  intro a ha
  rw [← hs.received] at h
  rw [← hm]
  cases hr : d.p.receives with
  | true =>
    refine ahciWriteFis_mem ft fis fun hmem => ha (h a ?_)
    rwa [PortCtx.received, if_pos hr]
  | false => rw [ahciWriteFis, if_neg (Bool.eq_false_iff.1 hr)]

theorem Confined.d2h (slot : Slot) (cfis : U64) (tfd : U32) :
    Confined lent c (ahciWriteFisD2h c slot cfis tfd) := by
  refine .of_reports (ahciWriteFisD2h_reports c slot cfis tfd) ?_
  rw [ahciWriteFisD2h]
  simp only []
  split <;> refine ahciWriteFis_outside h ?_ ?_ _ _ <;> rfl

theorem Confined.d2hNcq (slot : Slot) : Confined lent c (ahciWriteFisD2hNcq c slot) := by
  refine .of_reports (ahciWriteFisD2hNcq_reports c slot) ?_
  rw [ahciWriteFisD2hNcq]
  refine ahciWriteFis_outside h ?_ ?_ _ _ <;> rfl

theorem Confined.sdb (slot : Slot) (cfis : U64) (tfd : U32) :
    Confined lent c (ahciWriteFisSdb c slot cfis tfd) := by
  refine .of_reports (ahciWriteFisSdb_reports c slot cfis tfd) ?_
  rw [ahciWriteFisSdb]
  simp only []
  split <;> refine ahciWriteFis_outside h ?_ ?_ _ _ <;> rfl

theorem Confined.piosetup : Confined lent c (ahciWriteFisPiosetup c) := by
  have hout : SameOutside lent c.mem (ahciWriteFisPiosetup c).mem := by
    rw [ahciWriteFisPiosetup]
    refine ahciWriteFis_outside h ?_ ?_ _ _ <;> rfl
  obtain ⟨m, heq⟩ := ahciWriteFisPiosetup_eq c
  rw [heq] at hout ⊢
  exact .of_setMem hout

end Frames

theorem Confined.portReset (h : c.p.opened = true → ∀ a ∈ c.received, lent a) :
    Confined lent c (ahciPortReset c) := by
  refine .of_reports (ahciPortReset_reports c).1 ?_
  rw [ahciPortReset]
  simp only []
  split
  · exact .refl lent c.mem
  · next hopen =>
    have hopen' : c.p.opened = true := by simpa [ahciPortResetRegs] using hopen
    rw [ahciWriteResetFisD2h]
    refine ahciWriteFis_outside (h hopen') ?_ ?_ _ _ <;> rfl

/-! ## Answers -/

theorem scatter_outside {m : Mem} {as : List U64} (h : ∀ a ∈ as, lent a) (vs : List U8) :
    SameOutside lent m (scatter m as vs) :=
  fun _ ha => scatter_of_notMem fun hmem => ha (h _ (List.mem_of_mem_take hmem))

theorem write32_outside {m : Mem} {a : U64} (h : ∀ x ∈ Mem.addrs a 4, lent x) (v : U32) :
    SameOutside lent m (m.write32 a v) :=
  fun _ ha => Mem.write32_of_notMem fun hmem => ha (h _ hmem)

theorem write8_outside {m : Mem} {a : U64} (h : lent a) (v : U8) :
    SameOutside lent m (m.write8 a v) := by
  intro x hx
  rw [Mem.write8, if_neg]
  rintro rfl
  exact hx h

section Answers

variable (h : CmdLends lent c slot cfis)
include h

theorem writePrdtLoop_outside (buf : List U8) : SameOutside lent c.mem
    (writePrdtLoop c.sc.vmctx (c.hdr slot) buf.length 0 (cfis + 0x80) buf c.mem).1 := by
  rw [@writePrdtLoop_eq c.sc.vmctx (c.hdr slot) (c.prdtl slot) buf.length 0 (cfis + 0x80) buf c.mem
    (Nat.le_refl _) (Nat.zero_add _).symm]
  · exact scatter_outside h.buffers buf
  · exact fun x hx hmem => h.table x (List.mem_append_left _ hmem) (h.buffers x hx)
  · exact fun x hx hmem => h.table x (List.mem_append_right _ hmem) (h.buffers x hx)

theorem CmdLends.data (buf : List U8) : Confined lent c (writePrdt c slot cfis buf) :=
  .of_setMem ((writePrdtLoop_outside h buf).trans (write32_outside h.prdbc _))

theorem CmdLends.setPrdbc {aior : AhciIoreq} (hslot : aior.slot = slot) (err : Errno) :
    Confined lent c (ahciSetPrdbc c aior err) := by
  rw [ahciSetPrdbc]
  split
  · refine .of_setMem (write32_outside ?_ _)
    rw [hslot]
    exact h.prdbc
  · exact .refl lent c

theorem CmdLends.reason (hatapi : c.p.atapi = true) : Confined lent c (atapiIreason c cfis) :=
  .of_setMem (write8_outside (h.answer (.inl hatapi)).1 _)

end Answers

theorem Confined.sense (lent : U64 → Prop) (c : PortCtx) (asc : U8) :
    Confined lent c (atapiSense c asc) :=
  ⟨rfl, .refl lent c.mem, rfl, rfl, rfl⟩

/-! ## Commands that are answered at once -/

namespace CmdLends

variable (h : CmdLends lent c slot cfis) (hd : Confined lent c d)
include h hd

/-- After what has been written so far comes a frame, or data, or the reason. -/
theorem d2h (tfd : U32) : Confined lent c (ahciWriteFisD2h d slot cfis tfd) :=
  hd.trans (.d2h (hd.lends h).received slot cfis tfd)

theorem prdt (buf : List U8) : Confined lent c (writePrdt d slot cfis buf) :=
  hd.trans ((hd.lends h).data buf)

theorem ireason (hatapi : c.p.atapi = true) : Confined lent c (atapiIreason d cfis) :=
  hd.trans ((hd.lends h).reason (hd.frame.atapi.trans hatapi))

theorem piosetup : Confined lent c (ahciWriteFisPiosetup d) :=
  hd.trans (.piosetup (hd.lends h).received)

end CmdLends

section Commands

variable (h : CmdLends lent c slot cfis)
include h

/-- The answer to IDENTIFY, of either kind. -/
theorem identify_confined (buf : List U8) : Confined lent c
    (ahciWriteFisD2h (writePrdt (ahciWriteFisPiosetup c) slot cfis buf) slot cfis ataOk) :=
  h.d2h (h.prdt (h.piosetup (.refl lent c)) buf) ataOk

theorem handleIdentify_confined : Confined lent c (handleIdentify c slot cfis) := by
  rw [handleIdentify]
  split
  · exact h.d2h (.refl lent c) ataAborted
  · exact identify_confined h _

theorem handleAtapiIdentify_confined : Confined lent c (handleAtapiIdentify c slot cfis) := by
  rw [handleAtapiIdentify]
  split
  · exact h.d2h (.refl lent c) ataAborted
  · exact identify_confined h _

theorem ahciHandleReadLog_confined : Confined lent c (ahciHandleReadLog c slot cfis) := by
  rw [ahciHandleReadLog]
  split
  · exact h.d2h (.refl lent c) ataAborted
  · split
    · exact h.d2h (.refl lent c) ataAborted
    · simp only []
      split
      · exact h.d2h (h.prdt (h.piosetup (.refl lent c)) _) ataOk
      · exact h.d2h (h.prdt (.refl lent c) _) ataOk

theorem checkPowerMode_confined (hcmd : c.cfis cfis 2 = 0xe5#8) : Confined lent c
    (ahciWriteFisD2h (c.setMem (c.mem.write8 (cfis + 12) 0xff#8)) slot cfis ataOk) :=
  h.d2h (.of_setMem (write8_outside (h.answer (.inr hcmd)).2 _)) ataOk

/-- A command that has set fields of the port. -/
theorem setDev_confined (dev : AhciDev) (tfd tfd' : U32) : Confined lent c
    (ahciWriteFisD2h { c with p := { c.p with dev := dev, tfd := tfd } } slot cfis tfd') := by
  refine h.d2h ?_ tfd'
  exact ⟨rfl, .refl lent c.mem, rfl, rfl, rfl⟩

variable (hatapi : c.p.atapi = true)
include hatapi

theorem atapiRefuse_confined (asc : U8) : Confined lent c (atapiRefuse c slot cfis asc) :=
  h.d2h (h.ireason (.sense lent c asc) hatapi) _

theorem atapiAnswer_confined (buf : List U8) : Confined lent c (atapiAnswer c slot cfis buf) :=
  h.d2h (h.ireason (h.prdt (.refl lent c) buf) hatapi) ataOk

theorem atapiDone_confined : Confined lent c (atapiDone c slot cfis) :=
  h.d2h (h.ireason (.refl lent c) hatapi) ataOk

/-- A handler that gives the reason first. -/
theorem ireason_prdt_confined (buf : List U8) : Confined lent c
    (ahciWriteFisD2h (writePrdt (atapiIreason c cfis) slot cfis buf) slot cfis ataOk) :=
  h.d2h (h.prdt (h.ireason (.refl lent c) hatapi) buf) ataOk

theorem atapiInquiry_confined : Confined lent c (atapiInquiry c slot cfis) := by
  rw [atapiInquiry]
  split
  · exact atapiRefuse_confined h hatapi _
  · exact ireason_prdt_confined h hatapi _

theorem atapiReadToc_confined : Confined lent c (atapiReadToc c slot cfis) := by
  rw [atapiReadToc]
  generalize acmd c cfis 9 >>> 6 = format
  simp only []
  by_cases h0 : format = 0
  · rw [if_pos h0]
    by_cases htrack : acmd c cfis 6 > 1 ∧ acmd c cfis 6 ≠ 0xaa#8
    · rw [if_pos htrack]
      exact atapiRefuse_confined h hatapi _
    · rw [if_neg htrack]
      exact atapiAnswer_confined h hatapi _
  · rw [if_neg h0]
    by_cases h1 : format = 1
    · rw [if_pos h1]
      exact atapiAnswer_confined h hatapi _
    · rw [if_neg h1]
      by_cases h2 : format = 2
      · rw [if_pos h2]
        exact atapiAnswer_confined h hatapi _
      · rw [if_neg h2]
        exact atapiRefuse_confined h hatapi _

theorem atapiStartStopUnit_confined : Confined lent c (atapiStartStopUnit c slot cfis) := by
  rw [atapiStartStopUnit]
  split
  · exact atapiRefuse_confined h hatapi _
  · exact atapiDone_confined h hatapi

theorem atapiModeSense_confined : Confined lent c (atapiModeSense c slot cfis) := by
  rw [atapiModeSense]
  by_cases hpc : acmd c cfis 2 >>> 6 = 0
  · rw [if_pos hpc]
    split
    · exact atapiAnswer_confined h hatapi _
    · exact atapiRefuse_confined h hatapi _
  · rw [if_neg hpc]
    split <;> exact atapiRefuse_confined h hatapi _

theorem atapiGetEventStatusNotification_confined :
    Confined lent c (atapiGetEventStatusNotification c slot cfis) := by
  rw [atapiGetEventStatusNotification]
  split
  · exact atapiRefuse_confined h hatapi _
  · exact atapiAnswer_confined h hatapi _

end Commands

/-- CHECK POWER MODE has one code. -/
theorem ataCmd_checkPowerMode {cmd : U8} (h : ataCmd cmd = .checkPowerMode) : cmd = 0xe5#8 := by
  revert cmd
  decide

/-! ## Commands that submit a request -/

namespace AhciTransfer

variable {x : AhciTransfer} {done : U32} {breq : BlockifReq} {r : AhciIoreq × BlockifReq}

/-- The buffers of a chunk are in the regions of the table, whatever it starts from. -/
theorem mem_iov (x : AhciTransfer) (c : PortCtx) (done : U32) :
    ∀ a ∈ bufAddrs (x.iov c done), a ∈ (x.regions c).flatten := by
  intro a ha
  have htrim : bufAddrs (x.iov c done) =
      (((x.walk c done).1.iov.map Iovec.addrs).flatten).take
        (((x.walk c done).1.iov.map Iovec.addrs).flatten.length - x.extra c done) := by
    have hmap : (x.iov c done).map Iovec.addrs =
        (trimElems (x.extra c done) ((x.walk c done).1.iov.map Iovec.addrs).reverse).reverse := by
      rw [iov, List.map_reverse, map_ahciTrimIov, List.map_reverse]
    have hflat : bufAddrs (x.iov c done) = ((x.iov c done).map Iovec.addrs).flatten :=
      List.flatMap_def
    rw [hflat, hmap, flatten_trimElems, List.reverse_reverse]
  rw [htrim] at ha
  have hwalk := List.mem_of_mem_take ha
  by_cases hint : (x.len - done).toNat < 2 ^ 31
  · have hgathered := (ahciIovLoop_gathered c.sc.vmctx c.mem x.prdtl x.prdt
      ⟨[], done, x.len - done, 0⟩ hint (Nat.zero_le _)).iov
    have hpieces := gather_pieces (x.regions_ne_nil (c := c)) done.toNat (x.len - done).toNat
    have hiov : (x.walk c done).1.iov.map Iovec.addrs =
        ahciPieces (x.regions c) done.toNat (x.len - done).toNat := hgathered.trans hpieces
    rw [hiov, (flatten_ahciPieces _ _ _).1] at hwalk
    exact List.mem_of_mem_drop (List.mem_of_mem_take hwalk)
  · -- the walk takes nothing
    have hnone : x.walk c done = (⟨[], done, x.len - done, 0⟩, x.prdtl) :=
      ahciIovLoop_negative _ _ _ _ (Nat.not_lt.1 hint)
    rw [hnone] at hwalk
    exact absurd hwalk List.not_mem_nil

/-- What a chunk puts into its request. -/
theorem chunk_req (h : x.chunk c done breq = .ok r) :
    r.2.brOffset = x.off + done.setWidth 64 ∧ r.2.brIov = x.iov c done := by
  rw [chunk_eq] at h
  split at h
  · cases h
    exact ⟨rfl, rfl⟩
  · cases h

/-- Its place on the disk is within the transfer. -/
theorem chunk_range (h : x.chunk c done breq = .ok r) (hle : done.toNat ≤ x.len.toNat) (base : U64) :
    ∀ a ∈ Mem.addrs (base + r.2.brOffset) (iovTotal r.2.brIov),
      a ∈ Mem.addrs (base + x.off) x.len.toNat := by
  obtain ⟨hoff, hiov⟩ := chunk_req h
  have htotal : iovTotal r.2.brIov ≤ x.len.toNat - done.toNat := by
    rw [hiov, ← length_bufAddrs]
    by_cases hint : x.len.toNat - done.toNat < 2 ^ 31
    · obtain ⟨-, hextra, htodo⟩ := x.counts (c := c) hle hint
      have hbound := (x.flatten_pieces (x.regions c) done).2
      have hlen : (bufAddrs (x.iov c done)).length = (x.todo c done).toNat :=
        (x.flatMap_iov (c := c) hle hint).2
      omega
    · obtain ⟨_, _, -, -, -, hnone⟩ := x.chunk_negative (c := c) hle (Nat.not_lt.1 hint) breq
      rw [iov, hnone]
      exact Nat.zero_le _
  intro a ha
  obtain ⟨i, hi, rfl⟩ := Mem.mem_addrs.1 ha
  refine Mem.mem_addrs.2 ⟨done.toNat + i, by omega, ?_⟩
  have hstart : done.setWidth 64 = BitVec.ofNat 64 done.toNat := (BitVec.ofNat_toNat 64 done).symm
  rw [hoff, hstart, BitVec.ofNat_add, ← BitVec.add_assoc, ← BitVec.add_assoc]

end AhciTransfer

/-- What a command puts into its request is in lent memory. -/
def FillsLent (lent : U64 → Prop) (base : U64) (op : Blockop)
    (fill : BlockifReq → Except Stop (AhciIoreq × BlockifReq)) : Prop :=
  ∀ breq r, fill breq = .ok r → ∀ a ∈ requestTarget base r.2 op, lent a

section Requests

variable {fill : BlockifReq → Except Stop (AhciIoreq × BlockifReq)} {ncq : Bool} {op : Blockop}
  {pd : U32} {busy : List BlockifElem} {done : U32}

theorem ahciIssue_outside (h : ∀ a ∈ c.received, lent a) (ht : ahciIssue c slot fill ncq op = .ok t) :
    SameOutside lent c.mem t.mem := by
  obtain ⟨⟨r, d⟩, htake, ht⟩ := Except.bind_eq_ok.1 ht
  obtain ⟨⟨aior, breq⟩, -, ht⟩ := Except.bind_eq_ok.1 ht
  have hd : SameFrame c d ∧ d.mem = c.mem := by
    rw [ahciTakeIoreq] at htake
    split at htake
    · cases htake
    · cases htake
      exact ⟨rfl, rfl⟩
  have hset : SameFrame c (ahciMarkInFlight (ahciSetIoreq d r aior breq) slot r) := hd.1.trans rfl
  rw [← hset.received] at h
  rw [ahciSubmit_mem ht, ← hd.2]
  cases ncq with
  | false => exact .refl lent d.mem
  | true => exact (Confined.d2hNcq h slot).mem

/-- Submitting such a request. -/
theorem Confined.issue (hd : Confined lent c d) (hrec : ∀ a ∈ c.received, lent a)
    (htracks : Tracks pd busy d) (hq : QueueLent lent c)
    (hfill : FillsLent lent c.blk.bc.bcBase op fill) :
    IfReturns (WithinLent lent c) (ahciIssue d slot fill ncq op) := by
  rw [ifReturns_iff]
  intro t ht
  rw [← hd.frame.received] at hrec
  refine ⟨hd.mem.trans (ahciIssue_outside hrec ht), ?_⟩
  obtain ⟨a, free, aior, breq, breq', hfree, hfilled, hissued⟩ := ahciIssue_issued ht
  have hbase : t.blk.bc.bcBase = c.blk.bc.bcBase := (hd.frame.trans hissued.frame).bcBase
  have hmem : a ∈ d.p.iofhd := by
    rw [hfree]
    exact List.mem_cons_self
  intro x hx
  rw [hissued.view] at hx
  rw [hbase, hissued.reqs]
  rcases List.mem_append.1 hx with hx | hx
  · rw [Function.update_of_ne (htracks.queue_ne hmem hx), ← hd.frame.bcBase]
    exact hd.queueLent hq x hx
  · rw [List.mem_singleton.1 hx, Function.update_self]
    exact hfill _ _ hfilled

variable (h : CmdLends lent c slot cfis)
include h

/-- A read puts its data into the buffers. -/
theorem chunk_reads {x : AhciTransfer} (hslot : x.prdtl = c.prdtl slot) (hprdt : x.prdt = cfis + 0x80)
    (base : U64) : FillsLent lent base .read (x.chunk c done) := by
  intro breq r hr a ha
  have hiov : a ∈ bufAddrs r.2.brIov := ha
  rw [(AhciTransfer.chunk_req hr).2] at hiov
  have hregion := x.mem_iov c done a hiov
  rw [AhciTransfer.regions, hslot, hprdt] at hregion
  exact h.buffers a hregion

/-- A write goes to its sectors. -/
theorem ahciRwFill_lent (hle : c.cfis cfis 2 ∈ ataWrites →
      done.toNat ≤ (ahciRwTransfer c slot cfis).len.toNat) :
    FillsLent lent c.blk.bc.bcBase (if c.cfis cfis 2 ∈ ataWrites then .write else .read)
      (ahciRwFill c slot cfis done) := by
  rw [ahciRwFill_chunk]
  by_cases hw : c.cfis cfis 2 ∈ ataWrites
  · rw [if_pos hw]
    intro breq r hr a ha
    exact (h.writes hw).2.1 a (AhciTransfer.chunk_range hr (hle hw) _ a ha)
  · rw [if_neg hw]
    refine chunk_reads h ?_ ?_ _ <;> rfl

variable (htracks : Tracks pd busy c) (hq : QueueLent lent c)
include htracks hq

/-- **`ahci_handle_rw`**. -/
theorem ahciHandleRw_lent (hle : c.cfis cfis 2 ∈ ataWrites →
      done.toNat ≤ (ahciRwTransfer c slot cfis).len.toNat) :
    IfReturns (WithinLent lent c) (ahciHandleRw c slot cfis done) := by
  rw [ahciHandleRw]
  exact (Confined.refl lent c).issue h.received htracks hq (ahciRwFill_lent h hle)

theorem ahciHandleFlush_lent : IfReturns (WithinLent lent c) (ahciHandleFlush c slot cfis) :=
  (Confined.refl lent c).issue h.received htracks hq fun _ _ _ _ ha => absurd ha List.not_mem_nil

omit htracks in
theorem ahciTrimAnswer_within (first : Bool) :
    WithinLent lent c (ahciTrimAnswer c slot cfis first) := by
  rw [ahciTrimAnswer]
  split
  · cases first with
    | false => exact (Confined.sdb h.received slot cfis ataOk).within hq
    | true =>
      have hack : Confined lent c (ahciWriteFisD2hNcq c slot) := .d2hNcq h.received slot
      exact (hack.trans (.sdb (hack.lends h).received slot cfis ataOk)).within hq
  · exact (Confined.d2h h.received slot cfis ataOk).within hq

/-- **`ahci_handle_dsm_trim`** reads the ranges, and trims nothing. -/
theorem ahciHandleDsmTrim_lent (done : U32) :
    IfReturns (fun r => WithinLent lent c r.1) (ahciHandleDsmTrim c slot cfis done) := by
  rw [ahciHandleDsmTrim]
  cases ahciTrimNext (readPrdt c slot cfis 512) (ahciTrimLen c cfis) 64 done.toNat with
  | error e => exact trivial
  | ok next =>
    cases next with
    | finished => exact (ahciTrimAnswer_within h hq _).finished slot
    | range elba elen next =>
      have hissue : IfReturns (WithinLent lent c) (ahciIssue c slot
          (ahciTrimFill c slot cfis (ahciTrimLen c cfis) elen next elba)
          (ahciTrimNcq c cfis && done == 0) .delete) :=
        (Confined.refl lent c).issue h.received htracks hq fun _ _ _ _ ha =>
          absurd ha List.not_mem_nil
      exact hissue.bind fun t ht => ht

/-- **`atapi_read`**. -/
theorem atapiRead_lent (hatapi : c.p.atapi = true) (done : U32) :
    IfReturns (WithinLent lent c) (atapiRead c slot cfis done) := by
  rw [atapiRead]
  split
  · -- the command is answered, and a request is submitted all the same
    have hdone := atapiDone_confined h hatapi
    have htracks' := htracks.reports (Answers.done c slot cfis).reports
    rw [atapiDone] at hdone htracks'
    refine hdone.issue h.received htracks' hq ?_
    rw [atapiReadFill_chunk]
    refine chunk_reads (hdone.lends h) ?_ ?_ _ <;> rfl
  · refine (Confined.refl lent c).issue h.received htracks hq ?_
    rw [atapiReadFill_chunk]
    refine chunk_reads h ?_ ?_ _ <;> rfl

/-- **`handle_packet_cmd`**. -/
theorem handlePacketCmd_lent (hatapi : c.p.atapi = true) :
    IfReturns (WithinLent lent c) (handlePacketCmd c slot cfis) := by
  rw [handlePacketCmd]
  cases scsiCmd (acmd c cfis 0) with
  | testUnitReady | preventAllow => exact (atapiDone_confined h hatapi).within hq
  | inquiry => exact (atapiInquiry_confined h hatapi).within hq
  | readCapacity | reportLuns => exact (ireason_prdt_confined h hatapi _).within hq
  | readToc => exact (atapiReadToc_confined h hatapi).within hq
  | read => exact atapiRead_lent h htracks hq hatapi 0
  | requestSense => exact (atapiAnswer_confined h hatapi _).within hq
  | startStopUnit => exact (atapiStartStopUnit_confined h hatapi).within hq
  | modeSense => exact (atapiModeSense_confined h hatapi).within hq
  | getEventStatusNotification =>
    exact (atapiGetEventStatusNotification_confined h hatapi).within hq
  | other => exact (atapiRefuse_confined h hatapi _).within hq

/-- **Every command** writes lent memory, and leaves requests for lent memory. -/
theorem ahciCmdSwitch_lent : IfReturns (WithinLent lent c) (ahciCmdSwitch c slot cfis) := by
  have hrefused : WithinLent lent c (ahciWriteFisD2h c slot cfis ataAborted) :=
    (h.d2h (.refl lent c) ataAborted).within hq
  rw [ahciCmdSwitch]
  cases hcmd : ataCmd (c.cfis cfis 2) with
  | ataIdentify => exact (handleIdentify_confined h).within hq
  | setfeatures | setMulti => exact (setDev_confined h _ _ _).within hq
  | rw => exact ahciHandleRw_lent h htracks hq fun _ => Nat.zero_le _
  | flushcache => exact ahciHandleFlush_lent h htracks hq
  | dataSetManagement =>
    simp only []
    split
    · exact (ahciHandleDsmTrim_lent h htracks hq 0).map fun _ hr => hr
    · exact hrefused
  | sendFpdmaQueued =>
    simp only []
    split
    · exact (ahciHandleDsmTrim_lent h htracks hq 0).map fun _ hr => hr
    · exact hrefused
  | readLog => exact (ahciHandleReadLog_confined h).within hq
  | securityFreezeLock | unsupported => exact hrefused
  | checkPowerMode => exact (checkPowerMode_confined h (ataCmd_checkPowerMode hcmd)).within hq
  | standby => exact (h.d2h (.refl lent c) ataOk).within hq
  | atapiIdentify => exact (handleAtapiIdentify_confined h).within hq
  | packetCmd =>
    simp only []
    split
    · exact hrefused
    · next hatapi => exact handlePacketCmd_lent h htracks hq (by simpa using hatapi)

end Requests

end DeviceModel
