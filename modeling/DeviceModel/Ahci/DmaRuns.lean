import DeviceModel.Ahci.Dma
import DeviceModel.Ahci.Exec

/-!
# Data commands of the guest

What the guest sees of a command that reads or writes: it lays the command out in memory,
writes `PxCI`, and after the next `blockif_thr` the data is where it belongs.
-/

namespace DeviceModel

/-- What `dm_loop` does about a command: the write to `PxCI`, and `blockif_thr`. The guest does
not store meanwhile. -/
def ahciCommand (fuel : Nat) (M : Nat → Mem) (s : Ahci) (slot : Slot) : Except Stop Ahci := do
  let t ← pciAhciWrite fuel (fun _ => s.blk.mem) s 5 0x138 ((slotBit slot).setWidth 64)
  let c ← blockifThr (ahciClient fuel M) fuel (t.ctx 0)
  .ok (t.put 0 c)

namespace RwCommand

/-- The guest has laid out the command on an idle port with a disk. It stays on the disk, its
buffers hold all of the data, 33 pieces of them at least a sector, and the places are apart. -/
structure Posted (x : RwCommand) (s : Ahci) : Prop where
  disk : (s.port 0).atapi = false
  frame : ∀ i, i < 20 → (s.ctx 0).cfis x.cfis i = x.fis i
  register : x.fis 0 = fisTypeRegH2D
  command : x.fis 1 &&& 0x80#8 ≠ 0
  header : slotCfis (s.ctx 0) x.slot = x.cfis
  onDisk : (x.lba + x.count) * 512 ≤ s.blk.bc.bcSize
  fits : x.bytes ≤ ((ahciRwTransfer (s.ctx 0) x.slot x.cfis).regions (s.ctx 0)).flatten.length
  covers : (ahciRwTransfer (s.ctx 0) x.slot x.cfis).Covers (s.ctx 0)
  nodup : (x.data (s.ctx 0)).Nodup
  control : (x.data (s.ctx 0)).Disjoint (x.control (s.ctx 0))
  status : (x.status (s.ctx 0)).Disjoint (x.data (s.ctx 0) ++ x.control (s.ctx 0))
  prdbc : (x.prdbc (s.ctx 0)).Disjoint (Mem.addrs (s.port 0).rfis 0x100)
  offDisk : (diskAddrs s.blk.bc).Disjoint
    (x.data (s.ctx 0) ++ x.control (s.ctx 0) ++ x.status (s.ctx 0))
  running : (s.port 0).cmd &&& ahciPCmdST ≠ 0
  idle : tfdBusy (s.port 0).tfd = false
  wait : (s.port 0).waitforclear = false
  ci : (s.port 0).ci = 0
  pending : (s.port 0).pending = 0

/-- The command has been carried out between `s` and `t`: what it reads is in the buffers, what it
writes is on the disk, `prdbc` says how much, there is one status for it, which the guest finds
in its place and in `PxIS` if the port receives frames, and nothing else has been written to. -/
structure CarriedOut (x : RwCommand) (s t : Ahci) : Prop where
  delivered : x.op = .read →
    (x.data (s.ctx 0)).map t.blk.mem = (diskIn s.blk.bc s.blk.mem).slice (x.lba * 512) x.bytes
  stored : ∀ i, i < s.blk.bc.bcSize → diskIn s.blk.bc t.blk.mem i =
    if x.op = .read then diskIn s.blk.bc s.blk.mem i
    else (diskIn s.blk.bc s.blk.mem).store (x.lba * 512) ((x.data (s.ctx 0)).map s.blk.mem) i
  others : ∀ a, a ∉ diskAddrs s.blk.bc → a ∉ x.status (s.ctx 0) →
    (x.op = .read → a ∉ x.data (s.ctx 0)) → t.blk.mem a = s.blk.mem a
  disk : t.blk.bc.frame = s.blk.bc.frame
  prdbc : t.blk.mem.read32 ((s.ctx 0).hdr x.slot + 4) = BitVec.ofNat 32 x.bytes
  ci : (t.port 0).ci = 0
  pending : (t.port 0).pending = 0
  tfd : (t.port 0).tfd = ataOk
  log : t.log = s.log ++ x.accepted (s.ctx 0) ++ [x.statusEvent]
  sact : (t.port 0).sact =
    if x.queued then (s.port 0).sact &&& ~~~slotBit x.slot else (s.port 0).sact
  received : (s.port 0).receives = true → (t.port 0).is = (s.port 0).is ||| x.statusType.irq ∧
    t.blk.mem.readBytes ((s.port 0).rfis + x.statusType.offset) x.statusType.len = x.statusFis

section

variable {x : RwCommand} {s : Ahci}

theorem length_source {base : U64} {c : PortCtx} (h : (x.data c).length = x.bytes) :
    (x.source base c).length = x.bytes := by
  rw [source]
  split
  · exact Mem.length_addrs _ _
  · exact h

theorem length_target {base : U64} {c : PortCtx} (h : (x.data c).length = x.bytes) :
    (x.target base c).length = x.bytes := by
  rw [target]
  split
  · exact h
  · exact Mem.length_addrs _ _

/-- The sectors are places of the disk. -/
theorem Posted.sectors (h : x.Posted s) (hsize : s.blk.bc.bcSize < 2 ^ 64) :
    ∀ a ∈ x.sectors s.blk.bc.bcBase, a ∈ diskAddrs s.blk.bc := by
  have hdisk := h.onDisk
  have hoff : (BitVec.ofNat 64 (x.lba * 512)).toNat = x.lba * 512 := by
    rw [BitVec.toNat_ofNat, Nat.mod_eq_of_lt (by omega)]
  rw [RwCommand.sectors]
  refine addrs_subset_disk ?_
  rw [hoff, bytes, ← Nat.add_mul]
  exact hdisk

/-- The guest's layout is a proper one. -/
theorem Posted.layout (h : x.Posted s) (hsize : s.blk.bc.bcSize < 2 ^ 64) :
    x.Layout s.blk.bc.bcBase (s.ctx 0) := by
  have hon := h.sectors hsize
  have hdata : (x.data (s.ctx 0)).Disjoint (x.sectors s.blk.bc.bcBase) := fun a ha hs =>
    h.offDisk (hon a hs) (List.mem_append_left _ (List.mem_append_left _ ha))
  have hcontrol : (x.sectors s.blk.bc.bcBase).Disjoint (x.control (s.ctx 0)) := fun a hs ha =>
    h.offDisk (hon a hs) (List.mem_append_left _ (List.mem_append_right _ ha))
  have hstatus : (x.status (s.ctx 0)).Disjoint (x.sectors s.blk.bc.bcBase) := fun a ha hs =>
    h.offDisk (hon a hs) (List.mem_append_right _ ha)
  have hsectors : (x.sectors s.blk.bc.bcBase).Nodup := by
    rw [RwCommand.sectors]
    refine Mem.nodup_addrs _ ?_
    rw [bytes]
    exact (Nat.mul_le_mul_right 512 x.count_le).trans (by decide)
  have hends : (x.status (s.ctx 0)).Disjoint (x.source s.blk.bc.bcBase (s.ctx 0) ++
      x.target s.blk.bc.bcBase (s.ctx 0) ++ x.control (s.ctx 0)) := by
    intro a ha hmem
    have hrest : a ∉ x.data (s.ctx 0) ++ x.control (s.ctx 0) := h.status ha
    rw [List.mem_append, not_or] at hrest
    rw [List.mem_append, List.mem_append, source, target] at hmem
    rcases hmem with (hmem | hmem) | hmem
    · split at hmem
      · exact hstatus ha hmem
      · exact hrest.1 hmem
    · split at hmem
      · exact hrest.1 hmem
      · exact hstatus ha hmem
    · exact hrest.2 hmem
  refine ⟨h.fits, h.covers, ?_, ?_, ?_, hends, h.prdbc⟩
  · rw [target]
    split
    · exact h.nodup
    · exact hsectors
  · rw [source, target]
    split
    · exact hdata.symm
    · exact hdata
  · rw [target]
    split
    · exact h.control
    · exact hcontrol

end

/-- The disk of a controller that some run has reached. -/
theorem opened_of_reaches {s : AhciSys} (h : Reaches AhciStep AhciInitial s) :
    OpenedAt s.dev.blk.bc.bcBase s.dev.blk.bc := by
  obtain ⟨base, ⟨-, hdisk⟩, -⟩ := h.small.guarded.requests rfl
    (fun base => @disk_rules _ (blockifOpen base).frame fun _ _ => True) fun _ => ⟨rfl, rfl⟩
  have hopened : OpenedAt base s.dev.blk.bc := hdisk
  rw [hopened.bcBase]
  exact hopened

section Runs

variable {x : RwCommand} {s : AhciSys}

/-- The disk fits into memory. -/
theorem OpenedAt.size_lt {base : U64} {bc : BlockifCtxt} (h : OpenedAt base bc) : bc.bcSize < 2 ^ 64 := by
  have hsize : bc.bcSize = 0x00d00000 := h.size
  rw [hsize]
  decide

/-- The port is ready for the command when `pci_ahci_write` has taken the lock. -/
theorem Posted.ready (hreach : Reaches AhciStep AhciInitial s) (h : x.Posted s.dev) :
    x.Ready s.dev.blk.bc.bcBase (s.dev.lockMtx.ctx 0) := by
  have hopened := opened_of_reaches hreach
  have hl := h.layout hopened.size_lt
  exact {
    holds := ⟨h.frame, hopened⟩
    layout := ⟨hl.fits, hl.covers, hl.nodup, hl.apart, hl.control, hl.status, hl.prdbc⟩
    header := h.header
    frame := (h.frame 0 (by omega)).trans h.register
    command := by
      have hbyte : (s.dev.lockMtx.ctx 0).cfis x.cfis 1 = x.fis 1 := h.frame 1 (by omega)
      rw [hbyte]
      exact h.command
    tracked := Tracks.congr hreach.tracked.tracked rfl rfl rfl rfl rfl rfl
    atapi := h.disk
    running := h.running
    idle := h.idle
    wait := h.wait
    ci := h.ci
    pending := h.pending }

/-- **The command is carried out** by the two calls. -/
theorem Posted.ends (hreach : Reaches AhciStep AhciInitial s) (h : x.Posted s.dev) {fuel : Nat}
    (hfuel : x.count + 33 ≤ fuel) (M : Nat → Mem) :
    ∃ t, ahciCommand fuel M s.dev x.slot = .ok t ∧
      x.Ended s.dev.blk.bc.bcBase (s.dev.lockMtx.ctx 0) (t.ctx 0) := by
  have hc := h.ready hreach
  obtain ⟨c, hci, hat⟩ := ci_starts hc (show 33 ≤ fuel by omega)
  have hwrite : pciAhciWrite fuel (fun _ => s.dev.blk.mem) s.dev 5 0x138
      ((slotBit x.slot).setWidth 64) = .ok (s.dev.lockMtx.put 0 c).unlockMtx := pciAhciWrite_ci hci
  -- the lock of the controller is no part of what `blockif_thr` depends on
  have hat' : x.At s.dev.blk.bc.bcBase (s.dev.lockMtx.ctx 0) ((s.dev.lockMtx.put 0 c).unlockMtx.ctx 0)
      0 := by
    rw [ctx_put_unlockMtx]
    exact hat.unlockMtx
  obtain ⟨n, rfl⟩ : ∃ n, fuel = n + 1 := ⟨fuel - 1, by omega⟩
  obtain ⟨u, hthr, hended⟩ := hat'.thr hc n M (n := n) (by omega)
  refine ⟨(s.dev.lockMtx.put 0 c).unlockMtx.put 0 u, ?_, ?_⟩
  · rw [ahciCommand, Except.bind_ok hwrite, Except.bind_ok hthr]
  · rw [Ahci.ctx_put]
    exact hended

/-- What the command leaves, as the guest sees it. -/
theorem Posted.carriedOut (h : x.Posted s.dev) (hsize : s.dev.blk.bc.bcSize < 2 ^ 64) {t : Ahci}
    (ht : x.Ended s.dev.blk.bc.bcBase (s.dev.lockMtx.ctx 0) (t.ctx 0)) : x.CarriedOut s.dev t := by
  have hlen : (x.data (s.dev.ctx 0)).length = x.bytes := by
    rw [data, List.length_take, Nat.min_eq_left h.fits]
  have hoff : (BitVec.ofNat 64 (x.lba * 512)).toNat = x.lba * 512 := by
    have hdisk := h.onDisk
    rw [BitVec.toNat_ofNat, Nat.mod_eq_of_lt (by omega)]
  have hkept : ∀ a, a ∉ x.target s.dev.blk.bc.bcBase (s.dev.ctx 0) → a ∉ x.status (s.dev.ctx 0) →
      t.blk.mem a = s.dev.blk.mem a := fun a htarget hstatus => ht.moved.kept_of_notMem htarget hstatus
  have hsectors : (x.sectors s.dev.blk.bc.bcBase).map s.dev.blk.mem =
      (diskIn s.dev.blk.bc s.dev.blk.mem).slice (x.lba * 512) x.bytes := by
    have hread := readBytes_disk s.dev.blk.bc s.dev.blk.mem (BitVec.ofNat 64 (x.lba * 512)) x.bytes
    rwa [Mem.readBytes_eq_map, hoff] at hread
  have hplace : ∀ i, i < s.dev.blk.bc.bcSize →
      s.dev.blk.bc.bcBase + BitVec.ofNat 64 i ∈ diskAddrs s.dev.blk.bc := fun i hi =>
    Mem.mem_addrs.2 ⟨i, hi, rfl⟩
  have hstatus : ∀ i, i < s.dev.blk.bc.bcSize →
      s.dev.blk.bc.bcBase + BitVec.ofNat 64 i ∉ x.status (s.dev.ctx 0) := fun i hi hmem =>
    h.offDisk (hplace i hi) (List.mem_append_right _ hmem)
  have hall : (x.target s.dev.blk.bc.bcBase (s.dev.ctx 0)).map t.blk.mem =
      (x.source s.dev.blk.bc.bcBase (s.dev.ctx 0)).map s.dev.blk.mem := by
    refine ht.moved.all ?_ ?_
    · exact (length_source hlen).le
    · exact (length_target hlen).le
  have hdisk : t.blk.bc.frame = s.dev.blk.bc.frame := congrArg (·.2.1) ht.frame
  by_cases hop : x.op = .read
  · rw [source, target, if_pos hop, if_pos hop, hsectors] at hall
    rw [target, if_pos hop] at hkept
    refine ⟨fun _ => hall, fun i hi => ?_, ?_, hdisk, ht.prdbc, ht.ci, ht.pending, ht.tfd, ht.log,
      ht.sact, ht.received⟩
    · rw [if_pos hop]
      refine hkept _ (fun hdata => ?_) (hstatus i hi)
      exact h.offDisk (hplace i hi) (List.mem_append_left _ (List.mem_append_left _ hdata))
    · exact fun a _ hs hdata => hkept a (hdata hop) hs
  · rw [source, target, if_neg hop, if_neg hop] at hall
    rw [target, if_neg hop] at hkept
    refine ⟨fun hread => absurd hread hop, fun i hi => ?_, ?_, hdisk, ht.prdbc, ht.ci, ht.pending,
      ht.tfd, ht.log, ht.sact, ht.received⟩
    · rw [if_neg hop, ← hoff]
      -- on the disk, memory is as if nothing but the sectors had been stored
      have hsame : diskIn s.dev.blk.bc t.blk.mem i = diskIn s.dev.blk.bc
          (fun a => if a ∈ x.sectors s.dev.blk.bc.bcBase then t.blk.mem a else s.dev.blk.mem a) i := by
        rw [diskIn, diskIn]
        split
        · rfl
        · next hout => exact hkept _ hout (hstatus i hi)
      rw [hsame]
      refine diskIn_store hsize.le ?_ ?_ ?_ hi
      · rw [List.length_map, hlen, hoff, bytes, ← Nat.add_mul]
        exact h.onDisk
      · rw [List.length_map, hlen, ← hall, ← RwCommand.sectors]
        exact List.map_congr_left fun a ha => if_pos ha
      · intro a ha
        rw [List.length_map, hlen] at ha
        exact if_neg ha
    · exact fun a hout hs _ => hkept a (fun hmem => hout (h.sectors hsize a hmem)) hs

/-- The two calls are a run. -/
theorem ahciCommand_reaches (hreach : Reaches AhciStep AhciInitial s) (hidle : s.serving = false)
    {fuel : Nat} {M : Nat → Mem} {slot : Slot} {t : Ahci}
    (ht : ahciCommand fuel M s.dev slot = .ok t) : Reaches AhciStep AhciInitial ⟨t, false⟩ := by
  obtain ⟨u, hwrite, ht⟩ := Except.bind_eq_ok.1 ht
  obtain ⟨c, hthr, ht⟩ := Except.bind_eq_ok.1 ht
  cases ht
  have hnext : Reaches AhciStep AhciInitial { s with dev := u } :=
    .next hreach (.write fuel _ 5 0x138 _ hidle hwrite)
  obtain ⟨ls, hrun⟩ := blockifThr_run hthr
  have hsame : ({ s with dev := u } : AhciSys) = ⟨u, false⟩ := by rw [← hidle]
  rw [hsame] at hnext
  exact hrun.extends_reaches hnext

/-- Where the two calls return, the command has been carried out. -/
theorem Posted.done (hreach : Reaches AhciStep AhciInitial s) (h : x.Posted s.dev) {fuel : Nat}
    (hfuel : x.count + 33 ≤ fuel) {M : Nat → Mem} {t : Ahci}
    (ht : ahciCommand fuel M s.dev x.slot = .ok t) : x.CarriedOut s.dev t := by
  obtain ⟨t', ht', hended⟩ := h.ends hreach hfuel M
  rw [ht] at ht'
  cases ht'
  exact h.carriedOut (opened_of_reaches hreach).size_lt hended

end Runs

end RwCommand

/-! ## Two commands -/

open RwCommand

/-- Fewer than 33 regions make no chunk of 33 pieces. -/
theorem covers_of_short {x : AhciTransfer} {c : PortCtx} (h : (x.regions c).length < 33) :
    x.Covers c := by
  intro done _ hfull
  have hle := length_ahciPieces_le (x.regions c) done.toNat (x.len.toNat - done.toNat)
  rw [hfull] at hle
  exact absurd h (Nat.not_lt.2 hle)

/-- A WRITE DMA EXT in slot 0 and a READ DMA EXT in slot 1, of sector 2. -/
def dmaFis (op : U8) (i : Nat) : U8 :=
  [0x27, 0x80, op, 0, 2, 0, 0, 0x40, 0, 0, 0, 0, 1].getD i 0

def dmaWrite : RwCommand := ⟨0, 0x2000, dmaFis 0x35, rfl⟩
def dmaRead : RwCommand := ⟨1, 0x3000, dmaFis 0x25, rfl⟩

/-- Their headers are at 0, their tables have one region each, the buffer of the first is full of
0x5a, and sector 2 of a disk at 0x1000000 full of `v`. -/
def dmaMem (v : U8) : Mem := fun a =>
  if a < 0x2000 then
    if a = 0x02 ∨ a = 0x22 then 1 else if a = 0x09 then 0x20 else if a = 0x29 then 0x30 else 0
  else if a < 0x2014 then dmaFis 0x35 (a - 0x2000).toNat
  else if a < 0x3000 then
    if a = 0x2081 then 0x80 else if a = 0x208c then 0xff else if a = 0x208d then 1 else 0
  else if a < 0x3014 then dmaFis 0x25 (a - 0x3000).toNat
  else if a < 0x8000 then
    if a = 0x3081 then 0x90 else if a = 0x308c then 0xff else if a = 0x308d then 1 else 0
  else if a < 0x8200 then 0x5a
  else if 0x1000400 ≤ a ∧ a < 0x1000600 then v else 0

/-- Ranges that follow one another are disjoint. -/
theorem addrs_disjoint {a b : U64} {n m : Nat} (hab : a.toNat + n ≤ b.toNat)
    (hb : b.toNat + m ≤ 2 ^ 64) : (Mem.addrs a n).Disjoint (Mem.addrs b m) := by
  intro y ha hy
  obtain ⟨i, hi, rfl⟩ := Mem.mem_addrs.1 ha
  obtain ⟨j, hj, heq⟩ := Mem.mem_addrs.1 hy
  have hi64 : (BitVec.ofNat 64 i).toNat = i := by rw [BitVec.toNat_ofNat, Nat.mod_eq_of_lt (by omega)]
  have hj64 : (BitVec.ofNat 64 j).toNat = j := by rw [BitVec.toNat_ofNat, Nat.mod_eq_of_lt (by omega)]
  have hnat := congrArg BitVec.toNat heq
  rw [BitVec.toNat_add, BitVec.toNat_add, hi64, hj64, Nat.mod_eq_of_lt (by omega),
    Nat.mod_eq_of_lt (by omega)] at hnat
  omega

/-- What is decided of a state in which a command of one sector is laid out below the disk: the
header, the frames that are received, the table, and the only buffer follow one another. -/
def RwCommand.LowPosted (x : RwCommand) (hdr buf : U64) (s : Ahci) : Prop :=
  ((s.port 0).atapi = false ∧ (s.port 0).cmd &&& ahciPCmdST ≠ 0 ∧ tfdBusy (s.port 0).tfd = false ∧
    (s.port 0).waitforclear = false ∧ (s.port 0).ci = 0 ∧ (s.port 0).pending = 0) ∧
  (slotCfis (s.ctx 0) x.slot = x.cfis ∧ (∀ i, i < 20 → (s.ctx 0).cfis x.cfis i = x.fis i) ∧
    x.fis 0 = fisTypeRegH2D ∧ x.fis 1 &&& 0x80#8 ≠ 0) ∧
  (s.blk.bc.bcBase = 0x1000000#64 ∧ s.blk.bc.bcSize = 0x00d00000 ∧ x.lba < 0x100 ∧ x.count = 1) ∧
  (ahciRwTransfer (s.ctx 0) x.slot x.cfis).regions (s.ctx 0) = [Mem.addrs buf 512] ∧
  (s.ctx 0).hdr x.slot = hdr ∧ (s.ctx 0).prdtl x.slot = 1 ∧ (s.port 0).rfis = 0x1000#64 ∧
  hdr.toNat ≤ 0x100 ∧ 0x2000 ≤ x.cfis.toNat ∧ x.cfis.toNat ≤ 0x7000 ∧ 0x8000 ≤ buf.toNat ∧
  buf.toNat ≤ 0x9000

instance (x : RwCommand) (hdr buf : U64) (s : Ahci) : Decidable (x.LowPosted hdr buf s) :=
  inferInstanceAs (Decidable (_ ∧ _))

/-- The buffer is the only region. -/
theorem RwCommand.LowPosted.data {x : RwCommand} {hdr buf : U64} {s : Ahci}
    (h : x.LowPosted hdr buf s) : x.data (s.ctx 0) = Mem.addrs buf 512 := by
  obtain ⟨-, -, ⟨-, -, -, hcount⟩, hregions, -⟩ := h
  rw [RwCommand.data, hregions, List.flatten_singleton, bytes, hcount,
    List.take_of_length_le (Mem.length_addrs _ _).le]

theorem RwCommand.LowPosted.posted {x : RwCommand} {hdr buf : U64} {s : Ahci}
    (h : x.LowPosted hdr buf s) : x.Posted s := by
  have hdata := h.data
  obtain ⟨⟨hatapi, hrun, hidle, hwait, hci, hpending⟩, ⟨hheader, hframe, hregister, hcommand⟩,
    ⟨hbase, hsize, hlba, hcount⟩, hregions, hhdr, hprdtl, hrfis, hlow, htable, htable', hbuf, hbuf'⟩ := h
  have hbytes : x.bytes = 512 := by rw [bytes, hcount]
  have hcontrol : x.control (s.ctx 0) = Mem.addrs hdr 4 ++ Mem.addrs (hdr + 8) 8 ++
      Mem.addrs x.cfis 0x90 := by rw [control, hhdr, hprdtl]
  have hstatus : x.status (s.ctx 0) = Mem.addrs (hdr + 4) 4 ++ Mem.addrs 0x1000#64 0x100 := by
    have hp : (s.ctx 0).p.rfis = 0x1000#64 := hrfis
    rw [status, prdbc, hhdr, hp]
  have hfour : (hdr + 4).toNat = hdr.toNat + 4 := by
    rw [BitVec.toNat_add, Nat.mod_eq_of_lt]
    · rfl
    · simp
      omega
  have height : (hdr + 8).toNat = hdr.toNat + 8 := by
    rw [BitVec.toNat_add, Nat.mod_eq_of_lt]
    · rfl
    · simp
      omega
  have hrecv : (0x1000#64).toNat = 0x1000 := rfl
  have hdisk : (0x1000000#64).toNat = 0x1000000 := rfl
  have hbefore : ∀ {a : U64} {n : Nat}, a.toNat + n ≤ 0x1000000 →
      (Mem.addrs a n).Disjoint (diskAddrs s.blk.bc) := by
    intro a n hn
    rw [diskAddrs, hbase, hsize]
    exact addrs_disjoint (by rw [hdisk]; exact hn) (by rw [hdisk]; decide)
  exact {
    disk := hatapi
    frame := hframe
    register := hregister
    command := hcommand
    header := hheader
    onDisk := by
      rw [hsize, hcount]
      omega
    fits := by rw [hregions, hbytes, List.flatten_singleton, Mem.length_addrs]
    covers := covers_of_short (by rw [hregions]; exact (by decide : 1 < 33))
    nodup := by
      rw [hdata]
      exact Mem.nodup_addrs _ (by decide)
    control := by
      rw [hdata, hcontrol, List.disjoint_append_right, List.disjoint_append_right]
      refine ⟨⟨?_, ?_⟩, ?_⟩ <;> exact (addrs_disjoint (by omega) (by omega)).symm
    status := by
      rw [hdata, hcontrol, hstatus, List.disjoint_append_left, List.disjoint_append_right,
        List.disjoint_append_right, List.disjoint_append_right, List.disjoint_append_right,
        List.disjoint_append_right, List.disjoint_append_right]
      refine ⟨⟨?_, ⟨?_, ?_⟩, ?_⟩, ?_, ⟨?_, ?_⟩, ?_⟩
      · exact addrs_disjoint (by omega) (by omega)
      · exact (addrs_disjoint (by omega) (by omega)).symm
      · exact addrs_disjoint (by omega) (by omega)
      · exact addrs_disjoint (by omega) (by omega)
      · exact addrs_disjoint (by omega) (by omega)
      · exact (addrs_disjoint (by omega) (by omega)).symm
      · exact (addrs_disjoint (by omega) (by omega)).symm
      · exact addrs_disjoint (by omega) (by omega)
    prdbc := by
      rw [prdbc, hhdr, hrfis]
      exact addrs_disjoint (by omega) (by omega)
    offDisk := by
      rw [hdata, hcontrol, hstatus]
      simp only [List.disjoint_append_right]
      refine ⟨⟨?_, ⟨?_, ?_⟩, ?_⟩, ?_, ?_⟩ <;> exact (hbefore (by omega)).symm
    running := hrun
    idle := hidle
    wait := hwait
    ci := hci
    pending := hpending }

/-- The controller of a disk at 0x1000000, after its port has been started in empty memory. -/
def dmaStart : Option AhciSys :=
  AhciSys.execAll 1 (startPort fun _ _ => 0)
    ⟨pciAhciInit ⟨0⟩ 0x1000000 false [] (fun _ => 0) (fun _ => 0), false⟩

theorem dmaStart_reaches {u : AhciSys} (hu : dmaStart = some u) : Reaches AhciStep AhciInitial u := by
  have hinit : AhciInitial
      ⟨pciAhciInit ⟨0⟩ 0x1000000 false [] (fun _ => 0) (fun _ => 0), false⟩ :=
    ⟨⟨⟨0⟩, 0x1000000, false, [], fun _ => 0, fun _ => 0, rfl⟩, rfl⟩
  exact (AhciSys.execAll_reaches (fun _ _ => True) (fun _ _ _ => trivial) (.start hinit) hu).of_guarded

end DeviceModel
