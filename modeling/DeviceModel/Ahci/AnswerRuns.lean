import DeviceModel.Ahci.Answers
import DeviceModel.Ahci.DmaRuns

/-!
# Answered commands of the guest

What the guest sees of a command that never gets to the disk: it lays the command out in
memory and writes `PxCI`, and when the write returns, the answer is there.
-/

namespace DeviceModel

/-! ## Given -/

namespace AhciAnswer

/-- The frame that ends the command: the status, and bytes 4 to 13 of the command's own. -/
def received (a : AhciAnswer) (fis : Nat → U8) : List U8 :=
  [0x34#8, 0x40#8, a.tfd.setWidth 8, a.tfd.extractLsb' 8 8] ++
    (List.range 10).map (fun i => editFis a.edit fis (4 + i)) ++ List.replicate 6 0

/-- The fields of the port: a command that fails is kept for the error log. -/
def devAfter (a : AhciAnswer) (fis : Nat → U8) : AhciDev :=
  if tfdError a.tfd then
    { a.dev with
      errCfis := [0x80#8, a.dev.errCfis.getD 1 0, a.tfd.setWidth 8, a.tfd.extractLsb' 8 8] ++
        (List.range 16).map fun i => editFis a.edit fis (4 + i) }
  else a.dev

/-- The answer has been given between `c` and `t`: the data is in the buffers and `prdbc` says how
much, the frame is in its place with its interrupt, the registers show the end of the command,
and nothing else has been written to. -/
structure Given (a : AhciAnswer) (slot : Slot) (cfis : U64) (c t : PortCtx) : Prop where
  delivered : ∀ buf, a.data = some buf → ((prdtAddrs c slot cfis).take buf.length).map t.mem =
    buf.take (prdtAddrs c slot cfis).length
  prdbc : ∀ buf, a.data = some buf → t.mem.read32 (c.hdr slot + 4) =
    BitVec.ofNat 32 (min buf.length (prdtAddrs c slot cfis).length)
  frame : t.mem.readBytes (c.p.rfis + 0x40) 20 = a.received (c.cfis cfis)
  table : ∀ i, i < 0x80 → t.mem (cfis + BitVec.ofNat 64 i) = editFis a.edit (c.cfis cfis) i
  others : ∀ x, x ∉ answerPlaces c slot cfis a.edit a.data → x ∉ Mem.addrs c.p.rfis 0x100 →
    t.mem x = c.mem x
  irq : t.p.is &&& d2hIrq a.tfd = d2hIrq a.tfd
  tfd : t.p.tfd = a.tfd
  dev : t.p.dev = a.devAfter (c.cfis cfis)
  ci : t.p.ci = if tfdError a.tfd then slotBit slot else 0
  wait : t.p.waitforclear = tfdError a.tfd
  pending : t.p.pending = 0
  log : t.log = c.log ++ [.cmd slot (c.mem.readBytes cfis 0x80), .d2h slot a.tfd]
  rest : SameFrame c t

end AhciAnswer

/-- The guest has laid out a command on an idle port, which runs and receives frames. -/
structure CmdPosted (c : PortCtx) (slot : Slot) (cfis : U64) : Prop where
  header : slotCfis c slot = cfis
  register : c.cfis cfis 0 = fisTypeRegH2D
  command : c.cfis cfis 1 &&& 0x80#8 ≠ 0
  layout : CmdLayout c slot cfis
  running : c.p.cmd &&& ahciPCmdST ≠ 0
  receives : c.p.receives = true
  idle : tfdBusy c.p.tfd = false
  wait : c.p.waitforclear = false
  ci : c.p.ci = 0
  pending : c.p.pending = 0

section Given

variable {a : AhciAnswer} {c d e t : PortCtx} {slot : Slot} {cfis : U64}

theorem Quiet.frame (h : Quiet c d) : SameFrame c d := by
  obtain ⟨m, dev, tfd, rfl⟩ := h
  rfl

/-- The bytes of the command's frame, one after another. -/
theorem HoldsAnswer.readBytes {edit : Option (Nat × U8)} {data : Option (List U8)} {m : Mem}
    (hl : CmdLayout c slot cfis) (h : HoldsAnswer c slot cfis edit data m) {n : Nat} (hn : n ≤ 16) :
    m.readBytes (cfis + 4) n = (List.range n).map fun i => editFis edit (c.cfis cfis) (4 + i) := by
  rw [Mem.readBytes]
  refine List.map_congr_left fun i hi => ?_
  rw [List.mem_range] at hi
  have hplace : cfis + 4 + BitVec.ofNat 64 i = cfis + BitVec.ofNat 64 (4 + i) := by
    rw [BitVec.add_assoc, BitVec.ofNat_add]
    rfl
  rw [hplace]
  exact h.fis hl (by omega)

/-- The slot's command in `ahci_handle_cmd`. -/
def answerCtx (c : PortCtx) (slot : Slot) (cfis : U64) : PortCtx :=
  cmdCtx { c with p := { c.p with ci := slotBit slot, ccs := slot }.setCmdCcs } slot cfis

/-- Nothing that an answer depends on has changed there. -/
theorem ahciAnswer_answerCtx (c : PortCtx) (slot : Slot) (cfis : U64) :
    ahciAnswer (answerCtx c slot cfis) slot cfis = ahciAnswer c slot cfis := rfl

theorem CmdLayout.answerCtx (hl : CmdLayout c slot cfis) :
    CmdLayout (answerCtx c slot cfis) slot cfis :=
  ⟨hl.nodup, hl.data, hl.status, hl.prdbc, hl.header⟩

/-- **The frame** leaves the answer that has been prepared. -/
theorem AhciAnswer.Sent.given (h : CmdPosted c slot cfis)
    (hs : a.Sent slot cfis (answerCtx c slot cfis) d) : a.Given slot cfis c d := by
  obtain ⟨e, hprep, rfl⟩ := hs
  have hl := h.layout.answerCtx
  have hset : SameFrame c (answerCtx c slot cfis) :=
    setCmdCcs_frame { c with p := { c.p with ci := slotBit slot, ccs := slot } }
  have hframe : SameFrame c e := hset.trans hprep.quiet.frame
  have hreceives : e.p.receives = true := hframe.receives.trans h.receives
  obtain ⟨hmem, hdev, hirq⟩ := ahciWriteFisD2h_received hreceives slot cfis a.tfd
  obtain ⟨is, sc, m, dev, -, hspec⟩ := ahciWriteFisD2h_spec e slot cfis a.tfd
  -- what is quiet changes none of the registers of a command
  obtain ⟨m', dev', tfd', heq⟩ := hprep.quiet
  have hci : e.p.ci = slotBit slot := by
    rw [heq]
    rfl
  have hwait : e.p.waitforclear = false := by
    rw [heq]
    exact h.wait
  have hpending : e.p.pending = 0 := by
    rw [heq]
    exact h.pending
  have hlog : e.log = c.log ++ [.cmd slot (c.mem.readBytes cfis 0x80)] := by
    rw [heq]
    rfl
  have hholds : HoldsAnswer (answerCtx c slot cfis) slot cfis a.edit a.data
      (ahciWriteFisD2h e slot cfis a.tfd).mem := by
    refine hprep.holds.frame hl fun x hx => ahciWriteFisD2h_mem slot cfis a.tfd ?_
    rw [hframe.rfis]
    exact hx
  refine ⟨hholds.delivered, hholds.prdbc, ?_, fun i hi => hholds.fis hl hi, hholds.kept, ?_, ?_, ?_,
    ?_, ?_, ?_, ?_, hframe.trans (ahciWriteFisD2h_reports e slot cfis a.tfd).frame⟩
  · -- the frame reads back
    have hread := Mem.readBytes_writeBytes ([0x34#8, 0x40#8, a.tfd.setWidth 8,
      a.tfd.extractLsb' 8 8] ++ e.mem.readBytes (cfis + 4) 10 ++ List.replicate 6 0) e.mem
      (e.p.rfis + 0x40) (by simp)
    have hlen : ([0x34#8, 0x40#8, a.tfd.setWidth 8, a.tfd.extractLsb' 8 8] ++
      e.mem.readBytes (cfis + 4) 10 ++ List.replicate 6 0).length = 20 := by simp
    rw [hlen, ← hmem, hprep.holds.readBytes hl (by decide), hframe.rfis] at hread
    exact hread
  · rw [hirq]
    refine BitVec.eq_of_getLsbD_eq fun i _ => ?_
    rw [BitVec.getLsbD_and, BitVec.getLsbD_or]
    cases e.p.is.getLsbD i <;> cases (d2hIrq a.tfd).getLsbD i <;> rfl
  · rw [hspec]
  · rw [hdev, hprep.dev, ahciErrCfis, hprep.dev, hprep.holds.readBytes hl (by decide)]
    rfl
  · rw [hspec]
    dsimp only
    rw [hci, BitVec.and_not_self]
  · rw [hspec]
    dsimp only
    rw [hwait, hreceives, Bool.false_or, Bool.true_and]
  · rw [hspec]
    exact hpending
  · rw [hspec]
    dsimp only
    rw [hlog, List.append_assoc]
    rfl

/-- `ahci_handle_slot` hands it to `ahci_handle_cmd`. -/
theorem CmdPosted.handleSlot (h : CmdPosted c slot cfis) (hopen : c.p.opened = true)
    (ht : ahciCmdSwitch (answerCtx c slot cfis) slot cfis = .ok t) :
    ahciHandleSlot { c with p := { c.p with ci := slotBit slot, ccs := slot }.setCmdCcs } slot =
      .ok t := by
  let d : PortCtx := { c with p := { c.p with ci := slotBit slot, ccs := slot }.setCmdCcs }
  have hopen' : d.p.opened = true := hopen
  have hheader : slotCfis d slot = cfis := h.header
  have hregister : d.cfis cfis 0 = fisTypeRegH2D := h.register
  have hcommand : d.cfis cfis 1 &&& 0x80#8 ≠ 0 := h.command
  show ahciHandleSlot d slot = .ok t
  rw [ahciHandleSlot, hopen']
  simp only [Bool.not_true, Bool.false_eq_true, if_false, hheader, hregister, ne_eq, not_true_eq_false]
  rw [if_pos hcommand, ahciHandleCmd]
  exact ht

/-- **A write to `PxCI`** answers the command: the loop goes round to its slot. -/
theorem CmdPosted.answered (h : CmdPosted c slot cfis) (hopen : c.p.opened = true)
    (ha : ahciAnswer c slot cfis = some a) {fuel : Nat} (hfuel : 33 ≤ fuel) :
    ∃ t, ahciPortWriteReg fuel (fun _ => c.mem) c .ci (slotBit slot) = .ok t ∧
      a.Given slot cfis c t := by
  have hor : c.p.ci ||| slotBit slot = slotBit slot := by
    rw [h.ci]
    exact BitVec.zero_or
  let d : PortCtx := { c with p := { c.p with ci := slotBit slot } }
  have hwaiting : d.p.waiting = slotBit slot := by
    have hpending : d.p.pending = 0 := h.pending
    rw [AhciPort.waiting, hpending]
    exact BitVec.and_allOnes
  obtain ⟨t, hswitch, hsent⟩ := AhciAnswer.ahciCmdSwitch_sent h.layout.answerCtx
    ((ahciAnswer_answerCtx c slot cfis).trans ha)
  have hvisit : ahciVisit { d with p := { d.p with ccs := slot } } = .ok t := by
    have hvisits : ({ d.p with ccs := slot } : AhciPort).visits = true := by
      have hsame : ({ d.p with ccs := slot } : AhciPort).waiting = d.p.waiting := rfl
      rw [AhciPort.visits, hsame, hwaiting, getLsbD_slotBit, decide_eq_true rfl]
    rw [ahciVisit, if_pos ((AhciPort.visits_iff _).1 hvisits)]
    exact h.handleSlot hopen hswitch
  have hgiven := hsent.given h
  obtain ⟨k, hk, hround⟩ : ∃ k < 32, (d.p.ccs.val + k) % 32 = slot.val := by
    have hlt := d.p.ccs.isLt
    have hslot := slot.isLt
    exact ⟨(32 + slot.val - d.p.ccs.val) % 32, by omega, by omega⟩
  have hends : t.nextCcs.p.waiting = 0 ∨ tfdBusy t.nextCcs.p.tfd = true ∨
      t.nextCcs.p.waitforclear = true := by
    cases herr : tfdError a.tfd with
    | true => exact .inr (.inr (hgiven.wait.trans herr))
    | false =>
      have hci : t.nextCcs.p.ci = 0 := by
        have hci' := hgiven.ci
        rw [herr] at hci'
        exact hci'
      refine .inl ?_
      rw [AhciPort.waiting, hci]
      exact BitVec.zero_and
  obtain ⟨n, rfl⟩ : ∃ n, fuel = n + 1 + 1 + k := ⟨fuel - k - 2, by omega⟩
  have hloop := ahciPortLoop_round (n + 1) k d hk hround hwaiting h.idle h.wait
  rw [Except.bind_ok hvisit, ahciPortLoop_returns hends] at hloop
  refine ⟨t.nextCcs, ?_, ?_⟩
  · have hrun : d.p.cmd &&& ahciPCmdST ≠ 0 := h.running
    rw [ahciPortWriteReg, hor, ahciHandlePort, if_neg hrun]
    exact hloop
  · exact ⟨hgiven.delivered, hgiven.prdbc, hgiven.frame, hgiven.table, hgiven.others, hgiven.irq,
      hgiven.tfd, hgiven.dev, hgiven.ci, hgiven.wait, hgiven.pending, hgiven.log, hgiven.rest⟩

end Given

/-! ## IDENTIFY DEVICE on a reachable controller -/

/-- The command is in slot 0. Its header is at 0, its table has one region, the buffer at
0x8000. -/
def identifyMem : Mem := fun a =>
  if a < 0x2000 then if a = 0x02 then 1 else if a = 0x09 then 0x20 else 0
  else if a < 0x2003 then [0x27, 0x80, 0xec].getD (a - 0x2000).toNat 0
  else if a = 0x2081 then 0x80 else if a = 0x208c then 0xff else if a = 0x208d then 1 else 0

/-- What is decided of the state in which it is laid out. -/
def IdentifyPosted (s : Ahci) : Prop :=
  (slotCfis (s.ctx 0) 0 = 0x2000#64 ∧ (s.ctx 0).cfis 0x2000 0 = fisTypeRegH2D ∧
    (s.ctx 0).cfis 0x2000 1 &&& 0x80#8 ≠ 0 ∧ ataCmd ((s.ctx 0).cfis 0x2000 2) = .ataIdentify) ∧
  (prdtRegions (s.ctx 0).sc.vmctx (s.ctx 0).mem 1 (0x2000 + 0x80) = [Mem.addrs 0x8000#64 512] ∧
    (s.ctx 0).hdr 0 = 0#64 ∧ (s.ctx 0).prdtl 0 = 1 ∧ (s.ctx 0).p.rfis = 0x1000#64) ∧
  (s.port 0).cmd &&& ahciPCmdST ≠ 0 ∧ (s.port 0).receives = true ∧ tfdBusy (s.port 0).tfd = false ∧
  (s.port 0).waitforclear = false ∧ (s.port 0).ci = 0 ∧ (s.port 0).pending = 0 ∧
  (s.ctx 0).p.atapi = false

instance (s : Ahci) : Decidable (IdentifyPosted s) := inferInstanceAs (Decidable (_ ∧ _))

theorem IdentifyPosted.prdtAddrs {s : Ahci} (h : IdentifyPosted s) :
    prdtAddrs (s.ctx 0) 0 0x2000 = Mem.addrs 0x8000#64 512 := by
  obtain ⟨-, ⟨hregions, -, hprdtl, -⟩, -⟩ := h
  rw [DeviceModel.prdtAddrs, hprdtl, hregions, List.flatten_singleton]

theorem IdentifyPosted.posted {s : Ahci} (h : IdentifyPosted s) :
    CmdPosted (s.ctx 0) 0 0x2000 ∧
      ahciAnswer (s.ctx 0) 0 0x2000 = some (.reply (s.ctx 0) (identifyBuf (s.ctx 0))) := by
  have hdata := h.prdtAddrs
  obtain ⟨⟨hheader, hregister, hcommand, hcode⟩, ⟨-, hhdr, hprdtl, hrfis⟩, hrun, hreceives,
    hidle, hwait, hci, hpending, hatapi⟩ := h
  have hcontrol : cmdControl (s.ctx 0) 0 0x2000 =
      Mem.addrs 0#64 4 ++ Mem.addrs 8#64 8 ++ Mem.addrs 0x2000#64 0x90 := by
    rw [cmdControl, hhdr, hprdtl]
    rfl
  have hstatus : cmdStatus (s.ctx 0) 0 = Mem.addrs 4#64 4 ++ Mem.addrs 0x1000#64 0x100 := by
    rw [cmdStatus, hhdr, hrfis]
    rfl
  refine ⟨⟨hheader, hregister, hcommand, ⟨?_, ?_, ?_, ?_, ?_⟩, hrun, hreceives, hidle, hwait, hci,
    hpending⟩, ?_⟩
  · rw [hdata]
    exact Mem.nodup_addrs _ (by decide)
  · rw [hdata, hcontrol, List.disjoint_append_right, List.disjoint_append_right]
    refine ⟨⟨?_, ?_⟩, ?_⟩ <;> exact (addrs_disjoint (by decide) (by decide)).symm
  · rw [hdata, hcontrol, hstatus, List.disjoint_append_left, List.disjoint_append_right,
      List.disjoint_append_right, List.disjoint_append_right, List.disjoint_append_right,
      List.disjoint_append_right, List.disjoint_append_right]
    refine ⟨⟨?_, ⟨?_, ?_⟩, ?_⟩, ?_, ⟨?_, ?_⟩, ?_⟩
    · exact addrs_disjoint (by decide) (by decide)
    · exact (addrs_disjoint (by decide) (by decide)).symm
    · exact addrs_disjoint (by decide) (by decide)
    · exact addrs_disjoint (by decide) (by decide)
    · exact addrs_disjoint (by decide) (by decide)
    · exact (addrs_disjoint (by decide) (by decide)).symm
    · exact (addrs_disjoint (by decide) (by decide)).symm
    · exact addrs_disjoint (by decide) (by decide)
  · rw [hhdr, hrfis]
    exact addrs_disjoint (by decide) (by decide)
  · rw [hhdr]
    exact addrs_disjoint (by decide) (by decide)
  · rw [ahciAnswer, hcode]
    dsimp only
    rw [hatapi, hprdtl]
    rfl

/-- A run reaches such a state. -/
theorem identify_reaches : ∃ s : AhciSys, Reaches AhciStep AhciInitial s ∧ s.serving = false ∧
    IdentifyPosted s.dev := by
  have hrun : dmaStart.any (fun u => !u.serving &&
      decide (IdentifyPosted (u.dev.setMem identifyMem fun _ => 0))) = true := by
    decide +kernel
  obtain ⟨u, hu, htest⟩ := (Option.any_eq_true _ _).1 hrun
  simp only [Bool.and_eq_true, Bool.not_eq_true', decide_eq_true_eq] at htest
  exact ⟨{ u with dev := u.dev.setMem identifyMem fun _ => 0 },
    .next (dmaStart_reaches hu) (.guest _ _), htest⟩

/-! ## Runs -/

/-- The write of a register of the controller, with its lock taken around the port's. -/
theorem CmdPosted.written {s : AhciSys} (hreach : Reaches AhciStep AhciInitial s) {slot : Slot} {cfis : U64}
    (h : CmdPosted (s.dev.ctx 0) slot cfis) {a : AhciAnswer}
    (ha : ahciAnswer (s.dev.ctx 0) slot cfis = some a) {fuel : Nat} (hfuel : 33 ≤ fuel) :
    ∃ t, pciAhciWrite fuel (fun _ => s.dev.blk.mem) s.dev 5 0x138 ((slotBit slot).setWidth 64) =
        .ok t ∧ a.Given slot cfis (s.dev.ctx 0) (t.ctx 0) := by
  have hopen : (s.dev.lockMtx.ctx 0).p.opened = true := hreach.tracked.tracked.opened
  -- the lock of the controller is no part of what is answered
  have hlocked : CmdPosted (s.dev.lockMtx.ctx 0) slot cfis :=
    ⟨h.header, h.register, h.command,
      ⟨h.layout.nodup, h.layout.data, h.layout.status, h.layout.prdbc, h.layout.header⟩, h.running,
      h.receives, h.idle, h.wait, h.ci, h.pending⟩
  obtain ⟨c, hci, hgiven⟩ := hlocked.answered hopen (show ahciAnswer _ slot cfis = some a from ha) hfuel
  refine ⟨(s.dev.lockMtx.put 0 c).unlockMtx, pciAhciWrite_ci hci, ?_⟩
  rw [ctx_put_unlockMtx]
  exact ⟨hgiven.delivered, hgiven.prdbc, hgiven.frame, hgiven.table, hgiven.others, hgiven.irq,
    hgiven.tfd, hgiven.dev, hgiven.ci, hgiven.wait, hgiven.pending, hgiven.log, hgiven.rest⟩

/-- **A command that does not get to the disk is answered.** In every state that the controller
reaches, the write to `PxCI` returns, and the command has been given its answer. -/
theorem ahci_answers_command {s : AhciSys} (hreach : Reaches AhciStep AhciInitial s)
    (hidle : s.serving = false) {slot : Slot} {cfis : U64} (h : CmdPosted (s.dev.ctx 0) slot cfis)
    {a : AhciAnswer} (ha : ahciAnswer (s.dev.ctx 0) slot cfis = some a) {fuel : Nat}
    (hfuel : 33 ≤ fuel) :
    ∃ t, pciAhciWrite fuel (fun _ => s.dev.blk.mem) s.dev 5 0x138 ((slotBit slot).setWidth 64) =
        .ok t ∧
      Reaches AhciStep AhciInitial { s with dev := t } ∧ a.Given slot cfis (s.dev.ctx 0) (t.ctx 0) := by
  obtain ⟨t, hwrite, hgiven⟩ := h.written hreach ha hfuel
  exact ⟨t, hwrite, .next hreach (.write fuel _ 5 0x138 _ hidle hwrite), hgiven⟩

/-- The 512 bytes of IDENTIFY DEVICE. -/
theorem ahci_answers_command_identify : ∃ (s : AhciSys) (t : Ahci),
    pciAhciWrite 33 (fun _ => s.dev.blk.mem) s.dev 5 0x138 ((slotBit 0).setWidth 64) = .ok t ∧
      Reaches AhciStep AhciInitial { s with dev := t } ∧
      (AhciAnswer.reply (s.dev.ctx 0) (identifyBuf (s.dev.ctx 0))).Given 0 0x2000 (s.dev.ctx 0)
        (t.ctx 0) := by
  obtain ⟨s, hreach, hidle, hposted⟩ := identify_reaches
  obtain ⟨hasked, hanswer⟩ := hposted.posted
  obtain ⟨t, ht⟩ := ahci_answers_command hreach hidle hasked hanswer (Nat.le_refl 33)
  exact ⟨s, t, ht⟩

end DeviceModel
