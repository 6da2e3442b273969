import DeviceModel.Ahci.DmaRuns

/-!
# The port is a disk

An abstract disk reads and writes slices of an array of bytes, one after another. The commands
that a guest issues, and what the guest does between them, refine it.
-/

namespace DeviceModel

/-! ## The abstract disk -/

/-- What is done to a disk: the place, and the bytes that are read or written. -/
inductive DiskOp : Type where
  | read (off : Nat) (data : List U8)
  | write (off : Nat) (data : List U8)

/-- One operation. -/
inductive DiskStep : Disk → DiskOp → Disk → Prop where
  | read {d : Disk} (off len : Nat) : DiskStep d (.read off (d.slice off len)) d
  | write {d : Disk} (off : Nat) (data : List U8) : DiskStep d (.write off data) (d.store off data)

/-- Two disks of `size` bytes have the same contents. -/
def Disk.Agrees (size : Nat) (d d' : Disk) : Prop := ∀ i, i < size → d i = d' i

namespace Disk.Agrees

variable {size off len : Nat} {d d' : Disk}

theorem slice (h : d.Agrees size d') (hin : off + len ≤ size) : d.slice off len = d'.slice off len :=
  List.map_congr_left fun i hi => h _ (by have hlt := List.mem_range.1 hi; omega)

theorem store (h : d.Agrees size d') (off : Nat) (data : List U8) :
    (d.store off data).Agrees size (d'.store off data) := fun i hi =>
  Disk.store_congr off data (h i hi)

end Disk.Agrees

/-! ## The controller -/

/-- The disk of the controller. -/
def Ahci.disk (s : Ahci) : Disk := diskIn s.blk.bc s.blk.mem

/-- What a command that is carried out between `s` and `t` does to the disk, with the bytes as the
guest's buffers hold them. -/
def RwCommand.diskOp (x : RwCommand) (s t : Ahci) : DiskOp :=
  if x.op = .read then .read (x.lba * 512) ((x.data (s.ctx 0)).map t.blk.mem)
  else .write (x.lba * 512) ((x.data (s.ctx 0)).map s.blk.mem)

/-- Either a data command is carried out, or anything else happens that leaves the disk as it is. -/
inductive CommandStep : AhciSys → Option DiskOp → AhciSys → Prop where
  | command {s : AhciSys} {t : Ahci} {x : RwCommand} (fuel : Nat) (M : Nat → Mem) :
      s.serving = false → x.Posted s.dev → x.count + 33 ≤ fuel →
      ahciCommand fuel M s.dev x.slot = .ok t →
      CommandStep s (some (x.diskOp s.dev t)) ⟨t, false⟩
  | other {s t : AhciSys} {l : AhciLabel} : AhciStep s l t →
      s.dev.disk.Agrees s.dev.blk.bc.bcSize t.dev.disk → CommandStep s none t

/-- The disks of the controller have one size. -/
theorem RwCommand.size_of_reaches {s : AhciSys} (h : Reaches AhciStep AhciInitial s) :
    s.dev.blk.bc.bcSize = 0x00d00000 := (opened_of_reaches h).size

/-- **One step** is one of the abstract disk, or none. -/
theorem CommandStep.refines {s t : AhciSys} {op : Option DiskOp} (hstep : CommandStep s op t)
    (hreach : Reaches AhciStep AhciInitial s) {d : Disk}
    (hd : s.dev.disk.Agrees s.dev.blk.bc.bcSize d) :
    Reaches AhciStep AhciInitial t ∧
      ∃ d', Run DiskStep d op.toList d' ∧ t.dev.disk.Agrees t.dev.blk.bc.bcSize d' := by
  have hsize := RwCommand.size_of_reaches hreach
  cases hstep with
  | other hother hsame =>
    have hnext := hreach.next hother
    refine ⟨hnext, d, .nil d, fun i hi => ?_⟩
    rw [RwCommand.size_of_reaches hnext, ← hsize] at hi
    exact (hsame i hi).symm.trans (hd i hi)
  | @command u x fuel M hidle hposted hfuel hu =>
    have hdone := hposted.done hreach hfuel hu
    have hnext := RwCommand.ahciCommand_reaches hreach hidle hu
    have hlt : ∀ i, i < u.blk.bc.bcSize → i < s.dev.blk.bc.bcSize := by
      intro i hi
      rwa [hsize, ← RwCommand.size_of_reaches hnext]
    have hbase : u.blk.bc.bcBase = s.dev.blk.bc.bcBase := congrArg (·.bcBase) hdone.disk
    have hdisk : ∀ i, Ahci.disk u i = diskIn s.dev.blk.bc u.blk.mem i := by
      intro i
      rw [Ahci.disk, diskIn, diskIn, hbase]
    refine ⟨hnext, ?_⟩
    rw [RwCommand.diskOp]
    by_cases hop : x.op = .read
    · refine ⟨d, ?_, fun i hi => ?_⟩
      · have hon : x.lba * 512 + x.bytes ≤ s.dev.blk.bc.bcSize := by
          rw [RwCommand.bytes, ← Nat.add_mul]
          exact hposted.onDisk
        rw [if_pos hop, hdone.delivered hop, ← Ahci.disk, hd.slice hon]
        exact Run.single (.read _ _)
      · rw [hdisk, hdone.stored i (hlt i hi), if_pos hop]
        exact hd i (hlt i hi)
    · refine ⟨d.store (x.lba * 512) ((x.data (s.dev.ctx 0)).map s.dev.blk.mem), ?_, fun i hi => ?_⟩
      · rw [if_neg hop]
        exact Run.single (.write _ _)
      · rw [hdisk, hdone.stored i (hlt i hi), if_neg hop]
        exact hd.store _ _ i (hlt i hi)

/-- **The port refines a disk.** In every run from a state that the controller reaches, the commands
do what the abstract disk does, in the same order and with the same bytes, and what the guest
does between them is not seen. -/
theorem ahci_refines_disk {s t : AhciSys} {ops : List (Option DiskOp)}
    (hreach : Reaches AhciStep AhciInitial s) (hrun : Run CommandStep s ops t) :
    ∃ d, Run DiskStep s.dev.disk (ops.flatMap Option.toList) d ∧
      t.dev.disk.Agrees t.dev.blk.bc.bcSize d := by
  obtain ⟨d, hdisk, -, hagrees⟩ := hrun.simulates
    (R := fun s d => Reaches AhciStep AhciInitial s ∧ s.dev.disk.Agrees s.dev.blk.bc.bcSize d)
    (fun s op t d ⟨hs, hd⟩ hstep => by
      obtain ⟨ht, d', hrun', hd'⟩ := hstep.refines hs hd
      exact ⟨d', hrun', ht, hd'⟩)
    ⟨hreach, fun _ _ => rfl⟩
  exact ⟨d, hdisk, hagrees⟩

/-- What the disk holds. -/
theorem diskIn_dmaMem {s : AhciSys} {v : U8} (hbase : s.dev.blk.bc.bcBase = 0x1000000#64)
    (hmem : s.dev.blk.mem = dmaMem v) {i : Nat} (hi : i < 0x00d00000) :
    diskIn s.dev.blk.bc s.dev.blk.mem i = if 1024 ≤ i ∧ i < 1536 then v else 0 := by
  have hdisk : (0x1000000#64).toNat = 0x1000000 := rfl
  have hoff : (BitVec.ofNat 64 i).toNat = i := by rw [BitVec.toNat_ofNat, Nat.mod_eq_of_lt (by omega)]
  have hsum : (0x1000000#64 + BitVec.ofNat 64 i).toNat = 0x1000000 + i := by
    rw [BitVec.toNat_add, hoff, hdisk, Nat.mod_eq_of_lt (by omega)]
  have hhigh : ∀ b : U64, b.toNat ≤ 0x1000000 → ¬ 0x1000000#64 + BitVec.ofNat 64 i < b := by
    intro b hb
    rw [BitVec.lt_def, hsum]
    omega
  have hrange : (0x1000400#64 ≤ 0x1000000#64 + BitVec.ofNat 64 i ∧
      0x1000000#64 + BitVec.ofNat 64 i < 0x1000600#64) ↔ 1024 ≤ i ∧ i < 1536 := by
    have hlow : (0x1000400#64).toNat = 0x1000400 := rfl
    have htop : (0x1000600#64).toNat = 0x1000600 := rfl
    rw [BitVec.le_def, BitVec.lt_def, hsum, hlow, htop]
    omega
  rw [diskIn, hmem, hbase, dmaMem, if_neg (hhigh _ (by decide)), if_neg (hhigh _ (by decide)),
    if_neg (hhigh _ (by decide)), if_neg (hhigh _ (by decide)), if_neg (hhigh _ (by decide)),
    if_neg (hhigh _ (by decide))]
  exact if_congr hrange rfl rfl
/-- After the sector has been written, the guest lays its memory out again, with the same disk. -/
theorem dma_again : ∃ s t : AhciSys, Reaches AhciStep AhciInitial s ∧ s.serving = false ∧
    dmaWrite.LowPosted 0 0x8000 s.dev ∧ s.dev.blk.mem = dmaMem 0 ∧
      ahciCommand 34 (fun _ => dmaMem 0) s.dev 0 = .ok t.dev ∧ t.serving = false ∧
        dmaRead.LowPosted 0x20 0x9000 (t.dev.setMem (dmaMem 0x5a) fun _ => 0) := by
  have hrun : dmaStart.any (fun u => !u.serving &&
      decide (dmaWrite.LowPosted 0 0x8000 (u.dev.setMem (dmaMem 0) fun _ => 0)) &&
      ((ahciCommand 34 (fun _ => dmaMem 0) (u.dev.setMem (dmaMem 0) fun _ => 0) 0).toOption.any fun t =>
        decide (dmaRead.LowPosted 0x20 0x9000 (t.setMem (dmaMem 0x5a) fun _ => 0)))) = true := by
    decide +kernel
  obtain ⟨u, hu, htest⟩ := (Option.any_eq_true _ _).1 hrun
  simp only [Bool.and_eq_true, Bool.not_eq_true', decide_eq_true_eq] at htest
  obtain ⟨⟨hidle, hwrite⟩, hcommand⟩ := htest
  obtain ⟨t, ht, hread⟩ := (Option.any_eq_true _ _).1 hcommand
  exact ⟨{ u with dev := u.dev.setMem (dmaMem 0) fun _ => 0 }, ⟨t, false⟩,
    .next (dmaStart_reaches hu) (.guest _ _), hidle, hwrite, rfl, Except.toOption_eq_some.1 ht, rfl,
    of_decide_eq_true hread⟩

/-- A sector is written, the guest goes on, and the sector is read. -/
theorem ahci_refines_disk_sector : ∃ (s t u : Ahci) (d : Disk),
    Run DiskStep s.disk [dmaWrite.diskOp s t, dmaRead.diskOp (t.setMem (dmaMem 0x5a) fun _ => 0) u] d ∧
      u.disk.Agrees u.blk.bc.bcSize d := by
  obtain ⟨s, t, hreach, hidle, hwrite, hmem, hcommand, hidle', hread⟩ := dma_again
  rw [← hmem] at hcommand
  have hdone := hwrite.posted.done hreach (show dmaWrite.count + 33 ≤ 34 by decide) hcommand
  have hsame : t = ⟨t.dev, false⟩ := by rw [← hidle']
  have hnext : Reaches AhciStep AhciInitial t := by
    rw [hsame]
    exact RwCommand.ahciCommand_reaches hreach hidle hcommand
  have hfirst : CommandStep s (some (dmaWrite.diskOp s.dev t.dev)) t := by
    have hstep := CommandStep.command 34 _ hidle hwrite.posted (by decide) hcommand
    rwa [← hsame] at hstep
  -- what the guest stores is what has been written
  have hbase : t.dev.blk.bc.bcBase = 0x1000000#64 := hread.2.2.1.1
  have hagain : CommandStep t none { t with dev := t.dev.setMem (dmaMem 0x5a) fun _ => 0 } := by
    refine .other (.guest _ _) fun i hi => ?_
    rw [RwCommand.size_of_reaches hnext] at hi
    have hstored := hdone.stored i (by rw [RwCommand.size_of_reaches hreach]; exact hi)
    have hplace : t.dev.blk.bc.bcBase = s.dev.blk.bc.bcBase := congrArg (·.bcBase) hdone.disk
    have hdata : (dmaWrite.data (s.dev.ctx 0)).map s.dev.blk.mem = List.replicate 512 0x5a := by
      rw [hwrite.data, hmem]
      decide +kernel
    have hbefore := diskIn_dmaMem (hplace ▸ hbase) hmem hi
    have hafter := diskIn_dmaMem (s := { t with dev := t.dev.setMem (dmaMem 0x5a) fun _ => 0 }) hbase
      rfl hi
    have hlba : dmaWrite.lba * 512 = 1024 := by decide
    rw [Ahci.disk, diskIn, hplace, Ahci.disk, hafter]
    refine hstored.trans ?_
    rw [if_neg (by decide), hdata, hlba, Disk.store, hbefore, List.length_replicate]
    split
    · next hin =>
      rw [List.getD_eq_getElem?_getD, List.getElem?_replicate_of_lt (by omega), Option.getD_some]
    · rfl
  obtain ⟨u, hu, -⟩ := hread.posted.ends (s := { t with dev := t.dev.setMem (dmaMem 0x5a) fun _ => 0 })
    (.next hnext (.guest _ _)) (show dmaRead.count + 33 ≤ 34 by decide) fun _ => dmaMem 0x5a
  have hlast := CommandStep.command (s := { t with dev := t.dev.setMem (dmaMem 0x5a) fun _ => 0 }) 34 _
    hidle' hread.posted (by decide) hu
  obtain ⟨d, hrun, hd⟩ := ahci_refines_disk hreach (((Run.single hfirst).snoc hagain).snoc hlast)
  exact ⟨s.dev, t.dev, u, d, hrun, hd⟩

end DeviceModel
