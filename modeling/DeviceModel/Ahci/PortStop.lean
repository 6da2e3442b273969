import DeviceModel.Ahci.Exec
import DeviceModel.Ahci.PortRuns

/-!
# Stopping a port

A write to `PxCMD` that clears `ST` cancels every request of the port. The loop goes along
the busy list while each cancel takes the head off it; the element of the request is on the
pending queue, so that no cancel fails.
-/

namespace DeviceModel

/-! ## `ahci_port_stop` -/

/-- `d` is `c` after its port has been stopped. -/
structure Stopped (c d : PortCtx) : Prop where
  tracked : Tracked [] d
  iobhd : d.p.iobhd = []
  pending : d.p.pending = 0
  ci : d.p.ci = 0
  sact : d.p.sact = 0
  ccs : d.p.ccs = 0
  wait : d.p.waitforclear = false
  stopped : d.p.cmd &&& (ahciPCmdST ||| ahciPCmdCR) = 0
  mem : d.mem = c.mem
  sc : d.sc = c.sc
  stack : d.stack = c.stack
  log : ∃ slots : List Slot, d.log = c.log ++ slots.map .cancel

section

variable {c d : PortCtx}

/-- No request is in flight where the busy list is empty. -/
theorem Tracked.pending_eq_zero (h : Tracked [] c) (hnone : c.p.iobhd = []) : c.p.pending = 0 := by
  refine slots_ext fun t => ?_
  have hzero : (0 : U32).getLsbD t = false := BitVec.getLsbD_zero
  rw [hzero, Bool.eq_false_iff, Ne, h.bits, hnone]
  rintro ⟨a, ha, -⟩
  exact List.not_mem_nil ha

/-- And nothing is queued. -/
theorem Tracked.pendq_eq_nil (h : Tracked [] c) (hnone : c.p.iobhd = []) :
    c.blk.bc.bcPendq = [] := by
  have hqueued := h.queued
  rw [hnone, List.perm_nil, List.map_eq_nil_iff] at hqueued
  exact hqueued

/-- One request of the busy list is cancelled. -/
theorem ahciCancel_cancels {a : Nat} {as : List Nat} (h : Tracked [] c)
    (hbusy : c.p.iobhd = a :: as) :
    ∃ d slot, ahciCancel c a = .ok d ∧ Tracked [] d ∧ d.p.iobhd = as ∧ d.p.cmd = c.p.cmd ∧
      d.mem = c.mem ∧ d.sc = c.sc ∧ d.stack = c.stack ∧ d.log = c.log ++ [.cancel slot] := by
  have ha : a ∈ c.p.iobhd := by
    rw [hbusy]
    exact List.mem_cons_self
  obtain ⟨be, hfind, -⟩ := h.find_req ha
  obtain ⟨sact, ci, hrun⟩ := ahciCancel_found hfind
  obtain ⟨htracked, hrest⟩ := (ahciCancel_tracked h hbusy).of_ok hrun
  exact ⟨_, _, hrun, htracked, hrest, rfl, rfl, rfl, rfl, rfl⟩

/-- The loop goes along the whole busy list. -/
theorem ahciCancelAll_cancels :
    ∀ (as : List Nat) (c : PortCtx), Tracked [] c → c.p.iobhd = as →
      ∃ d, ahciCancelAll as c = .ok d ∧ Tracked [] d ∧ d.p.iobhd = [] ∧ d.p.cmd = c.p.cmd ∧
        d.mem = c.mem ∧ d.sc = c.sc ∧ d.stack = c.stack ∧
        ∃ slots : List Slot, d.log = c.log ++ slots.map .cancel := by
  intro as
  induction as with
  | nil =>
    intro c h hbusy
    exact ⟨c, rfl, h, hbusy, rfl, rfl, rfl, rfl, [], by simp⟩
  | cons a as ih =>
    intro c h hbusy
    obtain ⟨d, slot, hd, htracked, hrest, hcmd, hmem, hsc, hstack, hlog⟩ := ahciCancel_cancels h hbusy
    obtain ⟨e, he, htracked', hnone, hcmd', hmem', hsc', hstack', slots, hlog'⟩ := ih d htracked hrest
    refine ⟨e, ?_, htracked', hnone, hcmd'.trans hcmd, hmem'.trans hmem, hsc'.trans hsc,
      hstack'.trans hstack, slot :: slots, ?_⟩
    · rw [ahciCancelAll, hd]
      exact he
    · rw [hlog', hlog, List.append_assoc]
      simp

/-- **`ahci_port_stop`** returns, and leaves nothing behind. -/
theorem ahciPortStop_stops (h : Tracked [] c) (hst : c.p.cmd &&& ahciPCmdST = 0)
    (hlock : c.sc.mtx.lock ≠ 0) : ∃ d, ahciPortStop c = .ok d ∧ Stopped c d := by
  have hopen : c.p.opened = true := h.opened
  obtain ⟨d, hd, htracked, hnone, hcmd, hmem, hsc, hstack, hlog⟩ :=
    ahciCancelAll_cancels c.p.iobhd c h rfl
  have hpending := htracked.pending_eq_zero hnone
  have hstop : ahciCheckStopped d.p =
      { d.p with ccs := 0, cmd := d.p.cmd &&& ~~~(ahciPCmdCR ||| ahciPCmdCCSMask), ci := 0, sact := 0
                 waitforclear := false } := by
    rw [ahciCheckStopped, if_pos ⟨by rw [hcmd, hst], hpending⟩]
  have hassert : assert "pthread_mutex_isowned_np(&p->pr_sc->mtx)" (c.sc.mtx.lock != 0) = .ok () :=
    assert_eq_ok.2 (bne_iff_ne.2 hlock)
  refine ⟨{ d with p := ahciCheckStopped d.p }, ?_, ?_⟩
  · rw [ahciPortStop, hopen]
    simp only [Bool.not_true, Bool.false_eq_true, if_false]
    rw [Except.bind_ok hassert, Except.bind_ok hd]
  · rw [hstop]
    refine ⟨Tracks.congr htracked rfl rfl rfl rfl rfl rfl, hnone, hpending, rfl, rfl, rfl, rfl, ?_,
      hmem, hsc, hstack, hlog⟩
    -- `ST` was clear, and `CR` has been cleared
    have hbits : ∀ x : U32, x &&& ~~~(ahciPCmdCR ||| ahciPCmdCCSMask) &&& (ahciPCmdST ||| ahciPCmdCR) =
        x &&& ahciPCmdST := by
      intro x
      have hmask : ~~~(ahciPCmdCR ||| ahciPCmdCCSMask) &&& (ahciPCmdST ||| ahciPCmdCR) = ahciPCmdST := by
        decide
      rw [BitVec.and_assoc, hmask]
    simp only [hbits, hcmd, hst]

/-! ## The write -/

/-- The bits of `PxCMD` that its case leaves alone after the test of `ST`. -/
theorem ahciCmdRest_bits {bit : U32} (hfr : ahciPCmdFR &&& bit = 0)
    (hnfr : ~~~ahciPCmdFR &&& bit = bit) (hclo : ~~~ahciPCmdCLO &&& bit = bit)
    (hicc : ~~~ahciPCmdICCMask &&& bit = bit) (ctx : Vmctx) (p : AhciPort) (value : U32) :
    (ahciCmdRest ctx p value).cmd &&& bit = p.cmd &&& bit := by
  have hset : ∀ x : U32, (x ||| ahciPCmdFR) &&& bit = x &&& bit := by
    intro x
    rw [BitVec.and_or_distrib_right, hfr]
    exact BitVec.or_zero
  have hclear : ∀ x : U32, x &&& ~~~ahciPCmdFR &&& bit = x &&& bit := by
    intro x
    rw [BitVec.and_assoc, hnfr]
  rw [ahciCmdRest]
  split <;> split <;> split <;> simp only [BitVec.and_assoc, hicc, hclo] <;>
    first
    | exact hset _
    | (rw [← BitVec.and_assoc]; exact hclear _)

theorem ahciCmdBits_st (p : AhciPort) (value : U32) :
    (ahciCmdBits p value).cmd &&& ahciPCmdST = value &&& ahciPCmdST := by
  have hkept : ~~~ahciPCmdWritable &&& ahciPCmdST = 0 := by decide
  have hset : ahciPCmdWritable &&& ahciPCmdST = ahciPCmdST := by decide
  rw [ahciCmdBits, BitVec.and_or_distrib_right, BitVec.and_assoc, hkept,
    BitVec.and_comm ahciPCmdWritable, BitVec.and_assoc, hset]
  simp

/-- **A write to `PxCMD`** with `ST` clear. -/
theorem ahciPortWriteReg_stops (h : Tracked [] c) (hlock : c.sc.mtx.lock ≠ 0) {value : U32}
    (hst : value &&& ahciPCmdST = 0) (fuel : Nat) (M : Nat → Mem) :
    ∃ d, ahciPortWriteReg fuel M c .cmd value = .ok d ∧ Stopped c d := by
  have hbits : Tracked [] { c with p := ahciCmdBits c.p value } :=
    Tracks.congr h rfl rfl rfl rfl rfl rfl
  obtain ⟨d, hd, hstop⟩ := ahciPortStop_stops hbits (by rw [ahciCmdBits_st, hst]) hlock
  obtain ⟨cmd, rfis, tfd, heq⟩ := ahciCmdRest_eq d.sc.vmctx d.p value
  have hcmd := @ahciCmdRest_bits (ahciPCmdST ||| ahciPCmdCR) (by decide) (by decide) (by decide)
    (by decide) d.sc.vmctx d.p value
  rw [hstop.stopped] at hcmd
  have hrest : Stopped c { d with p := ahciCmdRest d.sc.vmctx d.p value } := by
    refine ⟨hstop.tracked.cmdRest _ value, ?_, ?_, ?_, ?_, ?_, ?_, hcmd, hstop.mem, hstop.sc, hstop.stack,
      hstop.log⟩ <;> rw [heq]
    · exact hstop.iobhd
    · exact hstop.pending
    · exact hstop.ci
    · exact hstop.sact
    · exact hstop.ccs
    · exact hstop.wait
  have hidle : (ahciCmdRest d.sc.vmctx d.p value).cmd &&& ahciPCmdST = 0 := by
    have hst' := @ahciCmdRest_bits ahciPCmdST (by decide) (by decide) (by decide) (by decide) d.sc.vmctx d.p value
    have hbit : ahciPCmdST = (ahciPCmdST ||| ahciPCmdCR) &&& ahciPCmdST := by decide
    rw [hst', hbit, ← BitVec.and_assoc, hstop.stopped]
    decide
  refine ⟨_, ?_, hrest⟩
  have hwrite : ahciCmdWrite c value =
      .ok { d with p := ahciCmdRest d.sc.vmctx d.p value } := by
    rw [ahciCmdWrite]
    simp only []
    rw [if_pos hst, Except.bind_ok hd]
  rw [ahciPortWriteReg, Except.bind_ok hwrite, ahciHandlePort, if_pos hidle]

end

/-! ## Offsets -/

/-- The offset of register `r` of port `i`. -/
def ahciRegOffset (i r : Nat) : U64 := BitVec.ofNat 64 (0x100 + i * 0x80 + r)

section

variable {s : AhciHba} {i r : Nat}

theorem ahciRegOffset_toNat (hi : i < ahciMaxPorts) (hr : r < 0x80) :
    (ahciRegOffset i r).toNat = 0x100 + i * 0x80 + r := by
  rw [ahciMaxPorts] at hi
  rw [ahciRegOffset, BitVec.toNat_ofNat, Nat.mod_eq_of_lt (by omega)]

theorem ahciRegOffset_sub (hi : i < ahciMaxPorts) (hr : r < 0x80) :
    (ahciRegOffset i r - ahciOffset).toNat = i * 0x80 + r := by
  have hoff := ahciRegOffset_toNat hi hr
  have hbase : ahciOffset.toNat = 0x100 := rfl
  rw [BitVec.toNat_sub_of_le (by rw [BitVec.le_def]; omega)]
  omega

theorem ahciPortNo_regOffset (hi : i < ahciMaxPorts) (hr : r < 0x80) :
    ahciPortNo (ahciRegOffset i r) = i := by
  have hstep : ahciStep.toNat = 0x80 := rfl
  rw [ahciPortNo, BitVec.toNat_udiv, ahciRegOffset_sub hi hr, hstep]
  omega

theorem ahciPortReg_regOffset (hi : i < ahciMaxPorts) (hr : r < 0x80) :
    (ahciRegOffset i r - ahciOffset) % ahciStep = BitVec.ofNat 64 r := by
  have hstep : ahciStep.toNat = 0x80 := rfl
  apply BitVec.eq_of_toNat_eq
  rw [BitVec.toNat_umod, ahciRegOffset_sub hi hr, hstep, BitVec.toNat_ofNat,
    Nat.mod_eq_of_lt (Nat.lt_trans hr (by decide))]
  omega

/-- **A write to register `r` of port `i`.** -/
theorem AhciHba.pciAhciWrite_reg (hs : s.Ok) (hi : i < s.ports) (hr : r < 0x80) (hr4 : r % 4 = 0)
    (fuel : Nat) (M : Nat → Mem) (value : U64) :
    s.pciAhciWrite fuel M 5 (ahciRegOffset i r) value =
      (ahciPortWriteReg fuel M (s.lockMtx.ctx i) (ahciPortReg (BitVec.ofNat 64 r))
        (value.setWidth 32)).map fun c => (s.lockMtx.put i c).unlockMtx := by
  have hmost : i < ahciMaxPorts := Nat.lt_of_lt_of_le hi hs.most
  have hoff := ahciRegOffset_toNat hmost hr
  have hports : s.ports ≤ 32 := hs.most
  have hbase : ahciOffset.toNat = 0x100 := rfl
  have halign : (ahciRegOffset i r % 4 == 0) = true := by
    rw [beq_iff_eq]
    apply BitVec.eq_of_toNat_eq
    rw [BitVec.toNat_umod, hoff]
    have hfour : (4 : U64).toNat = 4 := rfl
    have hzero : (0 : U64).toNat = 0 := rfl
    rw [hfour, hzero]
    omega
  have hlow : ¬ ahciRegOffset i r < ahciOffset := by
    rw [BitVec.lt_def]
    omega
  have hend : ahciRegOffset i r < s.lockMtx.regsEnd := by
    have hregs : s.lockMtx.regsEnd.toNat = 0x100 + s.ports * 0x80 := by
      have hstep : ahciStep.toNat = 0x80 := rfl
      have hsame : s.lockMtx.ports = s.ports := rfl
      rw [AhciHba.regsEnd, BitVec.toNat_add, BitVec.toNat_mul, BitVec.toNat_ofNat, hbase, hstep, hsame]
      omega
    rw [BitVec.lt_def, hoff, hregs]
    omega
  have hbar : ((5 : Nat) == 5) = true := rfl
  rw [AhciHba.pciAhciWrite, Except.bind_ok (assert_eq_ok (u := ()) |>.2 hbar),
    Except.bind_ok (assert_eq_ok (u := ()) |>.2 halign),
    AhciHba.pciAhciWriteBody, if_neg hlow, if_pos hend, AhciHba.pciAhciPortWrite,
    ahciPortNo_regOffset hmost hr, ahciPortReg_regOffset hmost hr]
  cases ahciPortWriteReg fuel M (s.lockMtx.ctx i) (ahciPortReg (BitVec.ofNat 64 r))
    (value.setWidth 32) with
  | error e => rfl
  | ok c => rfl

end

/-! ## The result -/

/-- `t` is `s` after port `i` has been stopped: none of its requests is left, and nothing else
has happened. -/
structure AhciHba.LeavesNothing (s t : AhciHba) (i : Nat) : Prop where
  iobhd : (t.port i).iobhd = []
  iofhd : (t.port i).iofhd.Perm (List.range blockifQueuesz)
  pending : (t.port i).pending = 0
  ci : (t.port i).ci = 0
  sact : (t.port i).sact = 0
  ccs : (t.port i).ccs = 0
  wait : (t.port i).waitforclear = false
  running : (t.port i).cmd &&& ahciPCmdCR = 0
  pendq : (t.bc i).bcPendq = []
  busyq : (t.bc i).bcBusyq = []
  /-- no callback stores to memory, and none writes a status -/
  mem : t.mem = s.mem
  log : ∃ slots : List Slot, t.log i = s.log i ++ slots.map .cancel
  others : ∀ j, j ≠ i → s.SamePort t j

/-- **A port stop leaves nothing behind.** In every reachable state of a controller with any
ports, a write to `PxCMD` of an opened port that clears `ST` returns, and leaves its busy list
and the queues of its block context empty, each request structure on the free list once, and
`pending`, `PxCI`, `PxSACT`, `ccs`, `waitforclear` and `CR` clear; no callback is called, and
the other ports are as they were. -/
theorem ahci_port_stop_leaves_nothing {s : HbaSys} (h : Reaches HbaStep HbaInitial s) {i : Nat}
    (hopen : (s.dev.port i).opened = true) {value : U64}
    (hst : value.setWidth 32 &&& ahciPCmdST = 0) (fuel : Nat) (M : Nat → Mem) :
    ∃ t, s.dev.pciAhciWrite fuel M 5 (ahciRegOffset i 0x18) value = .ok t ∧
      s.dev.LeavesNothing t i := by
  have hok := h.ok
  obtain ⟨hi, hport⟩ := hok.opened i hopen
  have hlocked : PortOk i (s.dev.lockMtx.ctx i) := hport.congr rfl rfl rfl
  have hlock : (s.dev.lockMtx.ctx i).sc.mtx.lock ≠ 0 := Nat.one_ne_zero
  obtain ⟨d, hd, hstop⟩ := ahciPortWriteReg_stops hlocked.tracked hlock hst fuel M
  have hreg : ahciPortReg (BitVec.ofNat 64 0x18) = .cmd := rfl
  refine ⟨(s.dev.lockMtx.put i d).unlockMtx, ?_, ?_⟩
  · rw [AhciHba.pciAhciWrite_reg hok hi (by omega) (by omega), hreg, hd]
    rfl
  · have hp : ((s.dev.lockMtx.put i d).unlockMtx).port i = d.p := Function.update_self _ _ _
    have hbc : ((s.dev.lockMtx.put i d).unlockMtx).bc i = d.blk.bc := Function.update_self _ _ _
    have hlog : ((s.dev.lockMtx.put i d).unlockMtx).log i = d.log := Function.update_self _ _ _
    have hpart := hstop.tracked.part
    rw [hstop.iobhd, List.append_nil] at hpart
    have hcr : d.p.cmd &&& ahciPCmdCR = 0 := by
      have hbit : ahciPCmdCR = (ahciPCmdST ||| ahciPCmdCR) &&& ahciPCmdCR := by decide
      rw [hbit, ← BitVec.and_assoc, hstop.stopped]
      decide
    refine ⟨?_, ?_, ?_, ?_, ?_, ?_, ?_, ?_, ?_, ?_, hstop.mem, ?_, ?_⟩
    · rw [hp, hstop.iobhd]
    · rw [hp]
      exact hpart
    · rw [hp, hstop.pending]
    · rw [hp, hstop.ci]
    · rw [hp, hstop.sact]
    · rw [hp, hstop.ccs]
    · rw [hp, hstop.wait]
    · rw [hp, hcr]
    · rw [hbc, hstop.tracked.pendq_eq_nil hstop.iobhd]
    · rw [hbc]
      exact hstop.tracked.busyq
    · rw [hlog]
      exact hstop.log
    · intro j hj
      have hsame := s.dev.lockMtx.put_samePort d hj
      exact ⟨hsame.port, hsame.bc, hsame.reqs, hsame.log⟩

/-- The second of two disks is stopped while two queued reads are outstanding on it. -/
theorem ahci_port_stop_leaves_nothing_queued : ∃ s t, Reaches HbaStep HbaInitial s ∧
    (s.dev.bc 1).bcPendq.length = 2 ∧ (s.dev.port 1).pending = 6 ∧
    s.dev.pciAhciWrite 0 (fun _ _ => 0) 5 (ahciRegOffset 1 0x18) 0 = .ok t ∧
    s.dev.LeavesNothing t 1 := by
  have hrun : ((hbaBlank "hd:a,hd:b").dev.writes 5 (fun _ => commandMem 0x60#8)
      [(ahciRegOffset 1 0x08, 0x1000), (ahciRegOffset 1 0x18, 0x11),
        (ahciRegOffset 1 0x38, 6)]).toOption.any (fun s =>
          (s.bc 1).bcPendq.length == 2 && (s.port 1).pending == 6 && (s.port 1).opened) = true := by
    decide +kernel
  obtain ⟨s, hs, hend⟩ := (Option.any_eq_true _ _).1 hrun
  simp only [Bool.and_eq_true, beq_iff_eq] at hend
  obtain ⟨⟨hqueue, hpending⟩, hopen⟩ := hend
  have hreach := AhciHba.writes_reaches id _ (.start (hbaBlank_initial "hd:a,hd:b"))
    (Except.toOption_eq_some.1 hs)
  have hst : (0 : U64).setWidth 32 &&& ahciPCmdST = 0 := by decide
  obtain ⟨t, ht, hleaves⟩ := ahci_port_stop_leaves_nothing hreach hopen hst 0 fun _ _ => 0
  exact ⟨⟨s, false⟩, t, hreach, hqueue, hpending, ht, hleaves⟩

end DeviceModel
