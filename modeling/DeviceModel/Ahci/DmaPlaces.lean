import DeviceModel.Ahci.DiskBounds
import DeviceModel.Ahci.PrdtCopies
import DeviceModel.Ahci.TrackedRuns
import DeviceModel.Block.Transfer
import DeviceModel.Library.Moves

/-!
# The places of a data command

A command that reads or writes names places in memory: the sectors of the disk, the guest's
buffers, the header and the table that the controller reads again for each chunk, and what it
writes besides the data. A chunk moves a piece between the first two, and the frames stay
in an area of their own.
-/

namespace DeviceModel

namespace RwCommand

/-! ## The places that a command names -/

/-- Which way it goes. -/
def op (x : RwCommand) : Blockop := if x.fis 2 ∈ ataWrites then .write else .read

/-- It is a queued command. -/
def queued (x : RwCommand) : Bool := ataRwFpdma (x.fis 2)

/-- Its length. -/
def bytes (x : RwCommand) : Nat := x.count * 512

section Places

variable (x : RwCommand) (base : U64) (c : PortCtx)

/-- The bytes of the guest's buffers. -/
def data : List U64 := ((ahciRwTransfer c x.slot x.cfis).regions c).flatten.take x.bytes

/-- The bytes of the disk, which starts at `base`. -/
def sectors : List U64 := Mem.addrs (base + BitVec.ofNat 64 (x.lba * 512)) x.bytes

/-- Where the bytes come from, and where they go. -/
def source : List U64 := if x.op = .read then x.sectors base else x.data c
def target : List U64 := if x.op = .read then x.data c else x.sectors base

/-- What the controller reads of the command, again for each chunk: its header without
`prdbc`, and its table. -/
def control : List U64 :=
  Mem.addrs (c.hdr x.slot) 4 ++ Mem.addrs (c.hdr x.slot + 8) 8 ++
    Mem.addrs x.cfis (0x80 + 16 * c.prdtl x.slot)

/-- `prdbc`. -/
def prdbc : List U64 := Mem.addrs (c.hdr x.slot + 4) 4

/-- What the controller writes besides the data: `prdbc` and the area for received frames. -/
def status : List U64 := x.prdbc c ++ Mem.addrs c.p.rfis 0x100

end Places

/-- The guest has laid the command out properly: its buffers hold all of the data, 33 pieces
of them at least a sector, and nothing that is written overlaps what is read. -/
structure Layout (x : RwCommand) (base : U64) (c : PortCtx) : Prop where
  fits : x.bytes ≤ ((ahciRwTransfer c x.slot x.cfis).regions c).flatten.length
  covers : (ahciRwTransfer c x.slot x.cfis).Covers c
  nodup : (x.target base c).Nodup
  apart : (x.source base c).Disjoint (x.target base c)
  control : (x.target base c).Disjoint (x.control c)
  status : (x.status c).Disjoint (x.source base c ++ x.target base c ++ x.control c)
  prdbc : (x.prdbc c).Disjoint (Mem.addrs c.p.rfis 0x100)

/-! ## What the controller sees -/

/-- In `d` the command is as it is in `c`. -/
structure Sees (x : RwCommand) (c d : PortCtx) : Prop where
  frame : SameFrame c d
  control : ∀ a ∈ x.control c, d.mem a = c.mem a

section Seeing

variable {x : RwCommand} {base : U64} {c d : PortCtx}

theorem OpenedAt.bcBase {bc : BlockifCtxt} (h : OpenedAt base bc) : bc.bcBase = base :=
  congrArg BlockifCtxt.bcBase h

theorem OpenedAt.same (h : OpenedAt base c.blk.bc) (hs : SameFrame c d) : OpenedAt base d.blk.bc :=
  (congrArg (fun f => f.2.1) hs : d.blk.bc.frame = c.blk.bc.frame).trans h

theorem Sees.hdr (h : x.Sees c d) (slot : Slot) : d.hdr slot = c.hdr slot := by
  rw [PortCtx.hdr, PortCtx.hdr, h.frame.cmdLst]

theorem Sees.prdtl (h : x.Sees c d) : d.prdtl x.slot = c.prdtl x.slot := by
  have hsplit := Mem.addrs_add (c.hdr x.slot) 2 2
  have hread : d.mem.read16 (c.hdr x.slot + 2) = c.mem.read16 (c.hdr x.slot + 2) := by
    refine Mem.read16_congr fun a ha => h.control a ?_
    refine List.mem_append_left _ (List.mem_append_left _ ?_)
    rw [hsplit]
    exact List.mem_append_right _ ha
  rw [PortCtx.prdtl, PortCtx.prdtl, h.hdr, hread]

theorem Sees.slotCfis (h : x.Sees c d) : slotCfis d x.slot = slotCfis c x.slot := by
  have hread : d.mem.read64 (c.hdr x.slot + 8) = c.mem.read64 (c.hdr x.slot + 8) :=
    Mem.read64_congr fun a ha =>
      h.control a (List.mem_append_left _ (List.mem_append_right _ ha))
  rw [DeviceModel.slotCfis, DeviceModel.slotCfis, h.hdr, hread, h.frame.vmctx]

theorem Sees.cfis (h : x.Sees c d) {i : Nat} (hi : i < 0x80) : d.cfis x.cfis i = c.cfis x.cfis i := by
  refine h.control _ (List.mem_append_right _ (Mem.mem_addrs.2 ⟨i, ?_, rfl⟩))
  omega

theorem Sees.holds (h : x.Sees c d) (hc : x.Holds base c) : x.Holds base d where
  frame := fun i hi => (h.cfis (by omega)).trans (hc.frame i hi)
  opened := hc.opened.same h.frame

/-- Bytes 4 to 13 of the frame, one after another. -/
theorem Sees.readFis (h : x.Sees c d) (hc : x.Holds base c) :
    d.mem.readBytes (x.cfis + 4) 10 = (List.range 10).map fun i => x.fis (4 + i) := by
  rw [Mem.readBytes]
  refine List.map_congr_left fun i hi => ?_
  rw [List.mem_range] at hi
  have hplace : x.cfis + 4 + BitVec.ofNat 64 i = x.cfis + BitVec.ofNat 64 (4 + i) := by
    rw [BitVec.add_assoc, BitVec.ofNat_add]
    rfl
  rw [hplace]
  exact (h.holds hc).frame (4 + i) (by omega)

theorem Sees.transfer (h : x.Sees c d) (hc : x.Holds base c) :
    ahciRwTransfer d x.slot x.cfis = ahciRwTransfer c x.slot x.cfis := by
  obtain ⟨hlba, hlen⟩ := hc.decodes
  obtain ⟨hlba', hlen'⟩ := (h.holds hc).decodes
  rw [ahciRwTransfer, ahciRwTransfer, hlba, hlen, hlba', hlen', h.prdtl, h.frame.sectsz]

theorem Sees.regions (h : x.Sees c d) :
    (ahciRwTransfer c x.slot x.cfis).regions d = (ahciRwTransfer c x.slot x.cfis).regions c := by
  rw [AhciTransfer.regions, AhciTransfer.regions, h.frame.vmctx]
  refine prdtRegions_congr fun a ha => h.control a (List.mem_append_right _ ?_)
  rw [Mem.addrs_add]
  exact List.mem_append_right _ ha

/-- The start of the transfer, as an offset. -/
theorem transfer_off (hc : x.Holds base c) :
    (ahciRwTransfer c x.slot x.cfis).off = BitVec.ofNat 64 (x.lba * 512) := by
  have hoff := hc.transfer.1
  rw [← hoff, BitVec.ofNat_toNat, BitVec.setWidth_eq]

end Seeing

/-! ## One chunk -/

section Chunks

variable {x : RwCommand} {base : U64} {c : PortCtx} {start : U32} {aior : AhciIoreq}
  {breq : BlockifReq}

/-- The buffers of a chunk are a piece of the data, and its place on the disk is one of the
sectors. -/
theorem chunk_places (hc : x.Holds base c)
    (his : IsChunk (ahciRwTransfer c x.slot x.cfis) ((ahciRwTransfer c x.slot x.cfis).regions c) 512
      start aior breq) :
    bufAddrs breq.brIov = ((x.data c).drop start.toNat).take breq.brResid ∧
    Mem.addrs (base + breq.brOffset) (iovTotal breq.brIov) =
      ((x.sectors base).drop start.toNat).take breq.brResid ∧
    start.toNat + breq.brResid ≤ x.bytes := by
  have hlen := hc.transfer.2
  have hmoved := his.moved
  have hle := his.le
  have hend : start.toNat + breq.brResid ≤ x.bytes := by
    rw [bytes]
    omega
  have hstart : BitVec.ofNat 64 start.toNat = start.setWidth 64 := BitVec.ofNat_toNat 64 start
  refine ⟨?_, ?_, hend⟩
  · rw [data, List.drop_take, List.take_take, Nat.min_eq_left (by omega)]
    exact his.addrs
  · have htotal : iovTotal breq.brIov = breq.brResid := his.sum
    rw [sectors, drop_addrs (by omega), take_addrs, Nat.min_eq_left (by omega), htotal, his.offset,
      transfer_off hc, hstart, BitVec.add_assoc]

/-- **The copies of a chunk** move a piece from the source to the target. -/
theorem blockifTransfer_piece (hc : x.Holds base c) (hl : x.Layout base c) {s : BlockState}
    {be : BlockifElem} (hs : OpenedAt base s.bc) (hop : be.beOp = x.op)
    (hreq : s.reqs be.beReq = breq)
    (his : IsChunk (ahciRwTransfer c x.slot x.cfis) ((ahciRwTransfer c x.slot x.cfis).regions c) 512
      start aior breq) :
    (((x.target base c).drop start.toNat).take breq.brResid).map (blockifTransfer s be).1.mem =
        (((x.source base c).drop start.toNat).take breq.brResid).map s.mem ∧
      (∀ a, a ∉ ((x.target base c).drop start.toNat).take breq.brResid →
        (blockifTransfer s be).1.mem a = s.mem a) ∧
      (blockifTransfer s be).2 = .zero := by
  obtain ⟨hbuf, hdisk, -⟩ := chunk_places hc his
  have hnodup : (((x.target base c).drop start.toNat).take breq.brResid).Nodup :=
    (hl.nodup.sublist (List.drop_sublist _ _)).sublist (List.take_sublist _ _)
  have happart : ∀ a ∈ ((x.source base c).drop start.toNat).take breq.brResid,
      a ∉ ((x.target base c).drop start.toNat).take breq.brResid := fun a ha ha' =>
    hl.apart (List.mem_of_mem_drop (List.mem_of_mem_take ha))
      (List.mem_of_mem_drop (List.mem_of_mem_take ha'))
  rw [blockifTransfer, hop, hreq, hs.bcBase]
  by_cases hwrite : x.fis 2 ∈ ataWrites
  · have hop' : x.op = .write := if_pos hwrite
    have hsource : x.source base c = x.data c := by rw [source, hop', if_neg (by decide)]
    have htarget : x.target base c = x.sectors base := by rw [target, hop', if_neg (by decide)]
    rw [htarget, ← hdisk] at hnodup
    rw [hsource, htarget, ← hbuf, ← hdisk] at happart ⊢
    simp only [hop', hs.rdonly, Bool.false_eq_true, if_false, and_true]
    refine ⟨map_blockifCopyOut _ _ _ hnodup ?_, fun a ha => blockifCopyOut_of_notMem _ _ _ ha⟩
    exact fun a ha ha' => happart a ha' ha
  · have hop' : x.op = .read := if_neg hwrite
    have hsource : x.source base c = x.sectors base := by rw [source, if_pos hop']
    have htarget : x.target base c = x.data c := by rw [target, if_pos hop']
    rw [htarget, ← hbuf] at hnodup
    rw [hsource, htarget, ← hbuf, ← hdisk] at happart ⊢
    simp only [hop', and_true]
    refine ⟨?_, fun a ha => blockifCopyIn_of_notMem _ _ _ ha⟩
    rw [map_blockifCopyIn _ _ _ hnodup happart, Mem.readBytes_eq_map]

end Chunks

end RwCommand

/-! ## What the frames write -/

section Frames

variable {c : PortCtx} {a : U64}

/-- A frame is stored in the area for received frames. -/
theorem ahciWriteFis_mem (ft : SataFisType) (fis : List U8) (h : a ∉ Mem.addrs c.p.rfis 0x100) :
    (ahciWriteFis c ft fis).mem a = c.mem a := by
  have hblk : ∀ (d : PortCtx) (irq : U32), (ahciSetIs d irq).blk = d.blk := by
    intro d irq
    rw [ahciSetIs]
    split <;> rfl
  have harea : ∃ k, ft.offset = BitVec.ofNat 64 k ∧ k + ft.len ≤ 0x100 := by
    cases ft with
    | regD2H => exact ⟨0x40, rfl, by decide⟩
    | setDevBits => exact ⟨0x58, rfl, by decide⟩
    | pioSetup => exact ⟨0x20, rfl, by decide⟩
  rw [ahciWriteFis]
  split
  · simp only [PortCtx.mem, hblk]
    refine Mem.writeBytes_of_notMem _ _ _ fun hmem => h ?_
    obtain ⟨i, hi, rfl⟩ := Mem.mem_addrs.1 hmem
    obtain ⟨k, hk, hle⟩ := harea
    have hlen : (fis.take ft.len).length ≤ ft.len := List.length_take_le _ _
    refine Mem.mem_addrs.2 ⟨k + i, by omega, ?_⟩
    rw [hk, BitVec.ofNat_add, BitVec.add_assoc]
  · rfl

theorem ahciWriteFisD2h_mem (slot : Slot) (cfis : U64) (tfd : U32)
    (h : a ∉ Mem.addrs c.p.rfis 0x100) : (ahciWriteFisD2h c slot cfis tfd).mem a = c.mem a := by
  rw [ahciWriteFisD2h]
  simp only []
  split <;> exact ahciWriteFis_mem _ _ h

theorem ahciWriteFisD2hNcq_mem (slot : Slot) (h : a ∉ Mem.addrs c.p.rfis 0x100) :
    (ahciWriteFisD2hNcq c slot).mem a = c.mem a := by
  rw [ahciWriteFisD2hNcq]
  exact ahciWriteFis_mem _ _ h

theorem ahciWriteFisSdb_mem (slot : Slot) (cfis : U64) (tfd : U32)
    (h : a ∉ Mem.addrs c.p.rfis 0x100) : (ahciWriteFisSdb c slot cfis tfd).mem a = c.mem a := by
  rw [ahciWriteFisSdb]
  simp only []
  split <;> exact ahciWriteFis_mem _ _ h

/-- `PxIS` after its bits have been set. -/
theorem ahciSetIs_is (c : PortCtx) (irq : U32) : (ahciSetIs c irq).p.is = c.p.is ||| irq := by
  rw [ahciSetIs]
  split
  · rfl
  · next hz =>
    refine BitVec.eq_of_getLsbD_eq fun i hi => ?_
    have hbit := congrArg (·.getLsbD i) (not_not.1 hz)
    simp only [BitVec.getLsbD_and, BitVec.getLsbD_not, decide_eq_true hi, Bool.true_and] at hbit
    rw [BitVec.getLsbD_or]
    revert hbit
    cases c.p.is.getLsbD i <;> cases irq.getLsbD i <;> simp

/-- What a frame leaves as it is. -/
theorem ahciWriteFis_kept (c : PortCtx) (ft : SataFisType) (fis : List U8) :
    (ahciWriteFis c ft fis).p.dev = c.p.dev ∧ (ahciWriteFis c ft fis).p.sact = c.p.sact := by
  obtain ⟨is, sc, m, -, heq⟩ := ahciWriteFis_spec c ft fis
  rw [heq]
  exact ⟨rfl, rfl⟩

/-- A frame that the port receives. -/
theorem ahciWriteFis_received (hr : c.p.receives = true) (ft : SataFisType) (fis : List U8) :
    (ahciWriteFis c ft fis).mem = c.mem.writeBytes (c.p.rfis + ft.offset) (fis.take ft.len) ∧
      (ahciWriteFis c ft fis).p.is = c.p.is ||| fisIrq ft fis := by
  have hmem : ∀ (d : PortCtx) (irq : U32), (ahciSetIs d irq).mem = d.mem := by
    intro d irq
    rw [ahciSetIs]
    split <;> rfl
  rw [ahciWriteFis, if_pos hr]
  exact ⟨hmem _ _, ahciSetIs_is _ _⟩

/-- The bits of `PxIS` for the end of a command. -/
def d2hIrq (tfd : U32) : U32 := ahciPIxDHR ||| if tfdError tfd then ahciPIxTFE else 0

/-- What `ahci_write_fis_d2h` leaves on a port that receives frames. -/
theorem ahciWriteFisD2h_received (hr : c.p.receives = true) (slot : Slot) (cfis : U64) (tfd : U32) :
    (ahciWriteFisD2h c slot cfis tfd).mem = c.mem.writeBytes (c.p.rfis + 0x40)
        ([0x34#8, 0x40#8, tfd.setWidth 8, tfd.extractLsb' 8 8] ++ c.mem.readBytes (cfis + 4) 10 ++
          List.replicate 6 0) ∧
      (ahciWriteFisD2h c slot cfis tfd).p.dev =
        (if tfdError tfd then
          { c.p.dev with errCfis := ahciErrCfis c 0x80#8 (tfd.setWidth 8) (tfd.extractLsb' 8 8) cfis }
        else c.p.dev) ∧
      (ahciWriteFisD2h c slot cfis tfd).p.is = c.p.is ||| d2hIrq tfd := by
  have hirq : ∀ l, fisIrq .regD2H ([0x34#8, 0x40#8, tfd.setWidth 8, tfd.extractLsb' 8 8] ++ l) =
      d2hIrq tfd := by
    intro l
    have hone : ([0x34#8, 0x40#8, tfd.setWidth 8, tfd.extractLsb' 8 8] ++ l).getD 1 0 = 0x40#8 := rfl
    rw [fisIrq, hone, fisError_status, if_pos (by decide)]
    rfl
  have htake : ([0x34#8, 0x40#8, tfd.setWidth 8, tfd.extractLsb' 8 8] ++
      (c.mem.readBytes (cfis + 4) 10 ++ List.replicate 6 0)).take SataFisType.regD2H.len =
        [0x34#8, 0x40#8, tfd.setWidth 8, tfd.extractLsb' 8 8] ++
          (c.mem.readBytes (cfis + 4) 10 ++ List.replicate 6 0) :=
    List.take_of_length_le (by simp [SataFisType.len])
  -- the frame of either branch
  have hsend : ∀ d : PortCtx, d.p.receives = true → d.mem = c.mem → d.p.rfis = c.p.rfis →
      d.p.is = c.p.is →
      (ahciWriteFis d .regD2H ([0x34#8, 0x40#8, tfd.setWidth 8, tfd.extractLsb' 8 8] ++
        (c.mem.readBytes (cfis + 4) 10 ++ List.replicate 6 0))).mem = c.mem.writeBytes (c.p.rfis + 0x40)
          ([0x34#8, 0x40#8, tfd.setWidth 8, tfd.extractLsb' 8 8] ++
            (c.mem.readBytes (cfis + 4) 10 ++ List.replicate 6 0)) ∧
      (ahciWriteFis d .regD2H ([0x34#8, 0x40#8, tfd.setWidth 8, tfd.extractLsb' 8 8] ++
        (c.mem.readBytes (cfis + 4) 10 ++ List.replicate 6 0))).p.dev = d.p.dev ∧
      (ahciWriteFis d .regD2H ([0x34#8, 0x40#8, tfd.setWidth 8, tfd.extractLsb' 8 8] ++
        (c.mem.readBytes (cfis + 4) 10 ++ List.replicate 6 0))).p.is = c.p.is ||| d2hIrq tfd := by
    intro d hd hmem hrfis his
    obtain ⟨hstored, hset⟩ := ahciWriteFis_received hd .regD2H ([0x34#8, 0x40#8, tfd.setWidth 8,
      tfd.extractLsb' 8 8] ++ (c.mem.readBytes (cfis + 4) 10 ++ List.replicate 6 0))
    rw [htake, hmem, hrfis] at hstored
    rw [hirq, his] at hset
    exact ⟨hstored, (ahciWriteFis_kept d _ _).1, hset⟩
  rw [ahciWriteFisD2h, List.append_assoc]
  dsimp only
  rw [List.append_assoc]
  cases herr : tfdError tfd with
  | true =>
    rw [if_pos (bne_iff_ne.1 herr), if_pos rfl]
    exact hsend _ hr rfl rfl rfl
  | false =>
    rw [if_neg (bne_eq_false_iff_eq.1 herr ▸ fun h => h rfl), if_neg Bool.false_ne_true]
    exact hsend _ hr rfl rfl rfl

/-- The frame that `ahci_write_fis_sdb` sends for a command that has succeeded. -/
def sdbFis (slot : Slot) : List U8 :=
  [0xa1#8, 0x40#8, ataOk.setWidth 8, 0] ++ [(slotBit slot).extractLsb' 0 8,
    (slotBit slot).extractLsb' 8 8, (slotBit slot).extractLsb' 16 8, (slotBit slot).extractLsb' 24 8]

/-- What `ahci_write_fis_sdb` does to `PxSACT`, and on a port that receives frames. -/
theorem ahciWriteFisSdb_received (c : PortCtx) (slot : Slot) (cfis : U64) :
    (ahciWriteFisSdb c slot cfis ataOk).p.sact = c.p.sact &&& ~~~slotBit slot ∧
      (c.p.receives = true →
        (ahciWriteFisSdb c slot cfis ataOk).mem = c.mem.writeBytes (c.p.rfis + 0x58) (sdbFis slot) ∧
          (ahciWriteFisSdb c slot cfis ataOk).p.is = c.p.is ||| ahciPIxSDB) := by
  have hok : ataOk &&& 0x77#32 &&& ataSError = 0 := by decide
  have hirq : ∀ l, fisIrq .setDevBits ([0xa1#8, 0x40#8, ataOk.setWidth 8, 0] ++ l) = ahciPIxSDB := by
    intro l
    have hbits : ([0xa1#8, 0x40#8, ataOk.setWidth 8, 0] ++ l).getD 1 0 = 0x40#8 := rfl
    have herr : fisError ([0xa1#8, 0x40#8, ataOk.setWidth 8, 0] ++ l) = false :=
      (fisError_status _ _ _ _ _).trans (by decide)
    rw [fisIrq, hbits, herr, if_pos (by decide), if_neg Bool.false_ne_true]
    exact BitVec.or_zero
  rw [ahciWriteFisSdb]
  simp only [hok, ne_eq, not_true_eq_false, if_false]
  refine ⟨(ahciWriteFis_kept _ _ _).2, fun hr => ?_⟩
  obtain ⟨hstored, hset⟩ := @ahciWriteFis_received { c.record (.sdb slot ataOk) with
    p := { c.p with
      sact := c.p.sact &&& ~~~slotBit slot
      tfd := c.p.tfd &&& ~~~0x77#32 ||| ataOk &&& 0x77#32 } } hr .setDevBits (sdbFis slot)
  exact ⟨hstored, hset.trans (congrArg _ (hirq _))⟩

/-- The block interface only queues the request. -/
theorem ahciSubmit_mem {d t : PortCtx} {r : Nat} {op : Blockop} (ht : ahciSubmit d r op = .ok t) :
    t.mem = d.mem := by
  have hrequest : (blockifRequest d.blk r op).1.mem = d.blk.mem := by
    rw [blockifRequest]
    split <;> rfl
  obtain ⟨_, -, ht⟩ := Except.bind_eq_ok.1 ht
  cases ht
  exact hrequest

/-- Submitting a request writes at most a frame. -/
theorem ahciIssue_mem {slot : Slot} {fill : BlockifReq → Except Stop (AhciIoreq × BlockifReq)}
    {ncq : Bool} {op : Blockop} {t : PortCtx} (ht : ahciIssue c slot fill ncq op = .ok t)
    (h : a ∉ Mem.addrs c.p.rfis 0x100) : t.mem a = c.mem a := by
  obtain ⟨⟨r, d⟩, htake, ht⟩ := Except.bind_eq_ok.1 ht
  obtain ⟨⟨aior, breq⟩, -, ht⟩ := Except.bind_eq_ok.1 ht
  have hd : d.mem = c.mem ∧ d.p.rfis = c.p.rfis := by
    rw [ahciTakeIoreq] at htake
    split at htake
    · cases htake
    · cases htake
      exact ⟨rfl, rfl⟩
  rw [ahciSubmit_mem ht]
  cases ncq with
  | false => exact congrFun hd.1 a
  | true =>
    rw [if_pos rfl, ahciWriteFisD2hNcq_mem]
    · exact congrFun hd.1 a
    · exact hd.2 ▸ h

theorem ahciHandleRw_mem {slot : Slot} {cfis : U64} {done : U32} {t : PortCtx}
    (ht : ahciHandleRw c slot cfis done = .ok t) (h : a ∉ Mem.addrs c.p.rfis 0x100) :
    t.mem a = c.mem a := by
  rw [ahciHandleRw] at ht
  exact ahciIssue_mem ht h

end Frames

end DeviceModel
