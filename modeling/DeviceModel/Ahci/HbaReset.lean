import DeviceModel.Ahci.UnopenedPorts

/-!
# Resetting the controller

`ahci_reset` clears some of what commands leave in a port. After it the guest sets up one
command, starts the port and issues the command: which slot `ahci_handle_port` runs depends
on what the reset has left.
-/

namespace DeviceModel

/-! ## One port -/

/-- The command state that `pci_ahci_init` leaves. -/
structure AhciPort.CmdIdle (p : AhciPort) : Prop where
  ci : p.ci = 0
  sact : p.sact = 0
  ccs : p.ccs = 0
  wait : p.waitforclear = false
  reset : p.reset = false

/-- What a reset of the controller keeps of a port. -/
structure AhciPort.KeptByReset (p q : AhciPort) : Prop where
  opened : q.opened = p.opened
  ci : q.ci = p.ci
  ccs : q.ccs = p.ccs
  wait : q.waitforclear = p.waitforclear
  reset : q.reset = p.reset
  pending : q.pending = p.pending

namespace AhciPort.KeptByReset

variable {p q r : AhciPort}

theorem refl (p : AhciPort) : p.KeptByReset p := ⟨rfl, rfl, rfl, rfl, rfl, rfl⟩

theorem trans (h : p.KeptByReset q) (h' : q.KeptByReset r) : p.KeptByReset r :=
  ⟨h'.opened.trans h.opened, h'.ci.trans h.ci, h'.ccs.trans h.ccs, h'.wait.trans h.wait,
    h'.reset.trans h.reset, h'.pending.trans h.pending⟩

end AhciPort.KeptByReset

/-- What a reset of the port does to the two fields that no report names. -/
theorem ahciPortReset_fields (c : PortCtx) :
    (ahciPortReset c).p.sact = 0 ∧ (ahciPortReset c).p.reset = c.p.reset := by
  have hregs : (ahciPortResetRegs c.p).opened = c.p.opened := rfl
  rw [ahciPortReset]
  simp only [hregs]
  cases c.p.opened with
  | false => exact ⟨rfl, rfl⟩
  | true =>
    simp only [Bool.not_true, Bool.false_eq_true, if_false]
    rw [ahciWriteResetFisD2h]
    obtain ⟨is, sc, m, -, heq⟩ := ahciWriteFis_spec _ _ _
    rw [heq]
    exact ⟨rfl, rfl⟩

/-- What `ahci_reset` does to the command state of a port. -/
theorem ahciResetPort_kept (c : PortCtx) :
    c.p.KeptByReset (ahciResetPort c).p ∧ (ahciResetPort c).p.sact = 0 ∧
      (c.p.opened = true → tfdBusy (ahciResetPort c).p.tfd = false) := by
  rw [ahciResetPort]
  obtain ⟨hreports, -, hci, hwait, hidle⟩ := ahciPortReset_reports _
  obtain ⟨hsact, hreset⟩ := ahciPortReset_fields _
  exact ⟨⟨hreports.opened, hci, hreports.ccs, hwait, hreset, hreports.pending⟩, hsact, hidle⟩

/-- **What `ahci_reset` leaves** of the command state of a port. -/
theorem AhciHba.ahciReset_kept (s : AhciHba) {i : Nat} (hi : i < s.ports) :
    (s.port i).KeptByReset (s.ahciReset.port i) ∧ (s.ahciReset.port i).sact = 0 ∧
      ((s.port i).opened = true → tfdBusy (s.ahciReset.port i).tfd = false) := by
  have hfold : ∀ (is : List Nat) (s : AhciHba),
      (s.port i).KeptByReset
        ((is.foldl (fun s i => s.put i (ahciResetPort (s.ctx i))) s).port i) ∧
      ((i ∈ is ∨ (s.port i).sact = 0 ∧ ((s.port i).opened = true → tfdBusy (s.port i).tfd = false)) →
        ((is.foldl (fun s i => s.put i (ahciResetPort (s.ctx i))) s).port i).sact = 0 ∧
        ((s.port i).opened = true →
          tfdBusy ((is.foldl (fun s i => s.put i (ahciResetPort (s.ctx i))) s).port i).tfd =
            false)) := by
    intro is
    induction is with
    | nil => exact fun s => ⟨.refl _, fun h => h.resolve_left List.not_mem_nil⟩
    | cons j is ih =>
      intro s
      obtain ⟨hkept, hfresh⟩ := ih (s.put j (ahciResetPort (s.ctx j)))
      by_cases hij : i = j
      · subst hij
        rw [put_port] at hkept hfresh
        obtain ⟨hkept', hsact, hidle⟩ := ahciResetPort_kept (s.ctx i)
        have hopen : (ahciResetPort (s.ctx i)).p.opened = (s.port i).opened := hkept'.opened
        rw [hopen] at hfresh
        exact ⟨hkept'.trans hkept, fun _ => hfresh (.inr ⟨hsact, hidle⟩)⟩
      · rw [(s.put_samePort _ hij).port] at hkept hfresh
        refine ⟨hkept, fun h => hfresh ?_⟩
        rwa [List.mem_cons, or_iff_right hij] at h
  obtain ⟨hkept, hfresh⟩ := hfold (List.range s.ports)
    { s with sc := AhciSoftc.lower { s.sc with ghc := ahciGhcAE, is := 0 } }
  exact ⟨hkept, hfresh (.inl (List.mem_range.2 hi))⟩

/-! ## One command -/

/-- The slot of a command that is handed to `ahci_handle_cmd`. -/
def AhciEvent.cmdSlot : AhciEvent → Option Slot
  | cmd slot _ => some slot
  | _ => none

/-- The command in the slot can be run: its frame is a command, frames can be received, and
its table holds what the command asks for. -/
def PortCtx.ValidCmd (c : PortCtx) (slot : Slot) : Prop :=
  c.p.rfis ≠ 0 ∧ ∃ e, slotEnd c slot = .command e ∧ e ≠ .aborts

section

variable {busy : List BlockifElem} {c : PortCtx} {slot : Slot} {cfis : U64}

/-- A command that is run puts no other command on record. -/
theorem EndsWith.no_cmd {e : CmdEnd} {r : Except Stop PortCtx} (he : EndsWith c slot cfis e r)
    (h : Tracked busy c) (hbusy : busy.length ≤ 1) (hne : e ≠ .aborts) :
    ∃ t evs, r = .ok t ∧ t.log = c.log ++ evs ∧ evs.filterMap AhciEvent.cmdSlot = [] := by
  cases he with
  | fails ha | succeeds ha =>
    obtain ⟨tfd, hlog, -⟩ := ha.log
    exact ⟨_, _, rfl, hlog, rfl⟩
  | @trims d ncq ht =>
    have hlog : (ahciFinished d slot).log = d.log := by
      rw [ahciFinished]
    refine ⟨_, _, rfl, hlog.trans ht.log, ?_⟩
    cases ncq <;> rfl
  | @issues fill ncq op hfill hok =>
    obtain ⟨t, a, aior, breq, ht, hi, -⟩ := Tracks.issue_ok h hbusy hfill hok ncq op
    refine ⟨t, _, ht, hi.log, ?_⟩
    cases ncq <;> rfl
  | @readsNothing d fill ha hfill hok =>
    have hd : Tracked busy d := Tracked.reports h ha.reports
    obtain ⟨t, a, aior, breq, ht, hi, -⟩ := Tracks.issue_ok hd hbusy hfill hok false .read
    obtain ⟨tfd, hlog, -⟩ := ha.log
    have hlog' := hi.log
    rw [hlog, List.append_assoc] at hlog'
    exact ⟨t, _, ht, hlog', rfl⟩
  | aborts _ _ => exact absurd rfl hne

theorem cmdCtx_log (c : PortCtx) (slot : Slot) (cfis : U64) :
    ∃ table, (cmdCtx c slot cfis).log = c.log ++ [.cmd slot table] :=
  ⟨_, rfl⟩

/-- A visit to the slot of a valid command. -/
theorem ahciVisit_valid (h : Tracked [] c) (hvisits : c.p.visits = true)
    (hvalid : c.ValidCmd c.p.ccs) :
    ∃ t evs, ahciVisit c = .ok t ∧ t.log = c.log ++ evs ∧
      evs.filterMap AhciEvent.cmdSlot = [c.p.ccs] := by
  obtain ⟨-, e, hend, hne⟩ := hvalid
  have hset : SameFrame c { c with p := c.p.setCmdCcs } := setCmdCcs_frame c
  have hends := ahciVisit_ends hvisits h.opened
  rw [slotEnd_congr hset rfl, hend] at hends
  generalize ahciVisit c = r at hends ⊢
  cases hends with
  | command he =>
    have htracked : Tracked [] (cmdCtx { c with p := c.p.setCmdCcs } c.p.ccs
        (slotCfis { c with p := c.p.setCmdCcs } c.p.ccs)) := Tracks.congr h rfl rfl rfl rfl rfl rfl
    obtain ⟨t, evs, hr, hlog, hnone⟩ := he.no_cmd htracked (Nat.zero_le 1) hne
    -- `ahci_handle_cmd` has put the command itself on record
    obtain ⟨table, htable⟩ := cmdCtx_log { c with p := c.p.setCmdCcs } c.p.ccs
      (slotCfis { c with p := c.p.setCmdCcs } c.p.ccs)
    rw [htable, List.append_assoc] at hlog
    refine ⟨t, [.cmd c.p.ccs table] ++ evs, hr, hlog, ?_⟩
    rw [List.filterMap_append, hnone]
    rfl

theorem slot_add_ne (s : Slot) {k : Nat} (hk : k < 32) (hpos : k ≠ 0) :
    s + Fin.ofNat 32 k ≠ s := by
  intro h
  have hval := congrArg Fin.val h
  simp only [Fin.val_add, Fin.val_ofNat] at hval
  omega

/-- **The loop of `ahci_handle_port`** runs the one slot that waits. -/
theorem ahciPortLoop_runs (slot : Slot) (k : Nat) :
    ∀ (M : Nat → Mem) (c : PortCtx), Tracked [] c → c.p.cmd &&& ahciPCmdST ≠ 0 →
      c.p.cmd &&& ahciPCmdFRE ≠ 0 → tfdBusy c.p.tfd = false → c.p.waitforclear = false →
      c.p.waiting = slotBit slot → k < 32 → c.p.ccs + Fin.ofNat 32 k = slot →
      (c.setMem (M k)).ValidCmd slot →
      ∃ t evs, (∀ fuel, k + 1 < fuel → ahciPortLoop fuel M c = .ok t) ∧ t.log = c.log ++ evs ∧
        evs.filterMap AhciEvent.cmdSlot = [slot] := by
  induction k with
  | zero =>
    intro M c h hst hfre hidle hwait hwaiting _ hslot hvalid
    obtain rfl : c.p.ccs = slot := (Fin.add_zero _).symm.trans hslot
    have hmem : Tracked [] (c.setMem (M 0)) := Tracks.setMem h (M 0)
    have hvisits : (c.setMem (M 0)).p.visits = true := by
      have hself : c.p.waiting.getLsbD c.p.ccs = true := by
        rw [hwaiting, getLsbD_slotBit, decide_eq_true rfl]
      exact hself
    have hsome : c.p.waiting ≠ 0 := PortCtx.waiting_ne_zero (s := c.p.ccs) hvisits
    obtain ⟨t, evs, ht, hlog, hevs⟩ := ahciVisit_valid hmem hvisits hvalid
    -- the port is then busy, or it waits, or no slot does
    have hturn := ahciVisit_turn hmem (Nat.zero_le 1) hst hvisits hidle hwait
    rw [ht] at hturn
    have hstop : t.nextCcs.p.waiting = 0 ∨ tfdBusy t.nextCcs.p.tfd = true ∨
        t.nextCcs.p.waitforclear = true := by
      obtain ⟨hrfis, e, hend, -⟩ := hvalid
      have hstays : slotTurn (c.setMem (M 0)) c.p.ccs ≠ .stays := by
        have hfre' : (c.setMem (M 0)).p.cmd &&& ahciPCmdFRE ≠ 0 := hfre
        have hrec : (c.setMem (M 0)).p.receives = true := by
          rw [AhciPort.receives, bne_iff_ne.2 hrfis, bne_iff_ne.2 hfre']
          rfl
        rw [slotTurn, hend]
        cases e with
        | fails =>
          simp only [hrec, if_true]
          intro h
          cases h
        | issues ncq =>
          simp only []
          intro h
          split at h <;> cases h
        | succeeds | trims _ | readsNothing | aborts =>
          intro h
          cases h
      have hccs : (c.setMem (M 0)).p.ccs = c.p.ccs := rfl
      rw [hccs] at hturn
      generalize slotTurn (c.setMem (M 0)) c.p.ccs = turn at hturn hstays
      cases hturn with
      | stays => exact absurd rfl hstays
      | goes _ _ hgone _ _ =>
        refine .inl ?_
        have hgone' : t.p.waiting = c.p.waiting &&& ~~~slotBit c.p.ccs := hgone
        have hzero : t.p.waiting = 0 := by
          rw [hgone', hwaiting]
          simp
        exact hzero
      | busy hb => exact .inr (.inl hb)
      | waits hw => exact .inr (.inr hw)
    refine ⟨t.nextCcs, evs, fun fuel hfuel => ?_, hlog, hevs⟩
    obtain ⟨fuel, rfl⟩ : ∃ n, fuel = n + 1 + 1 := ⟨fuel - 2, by omega⟩
    rw [ahciPortLoop_step hsome hidle hwait, Except.bind_ok ht, ahciPortLoop_returns hstop]
  | succ k ih =>
    intro M c h hst hfre hidle hwait hwaiting hk hslot hvalid
    -- the slot is further on, and no other one waits
    have hne : slot ≠ c.p.ccs := by
      rw [← hslot]
      exact slot_add_ne c.p.ccs hk (Nat.succ_ne_zero k)
    have hpass : c.p.visits = false := by
      rw [AhciPort.visits, hwaiting, getLsbD_slotBit, decide_eq_false (Ne.symm hne)]
    have hsome : c.p.waiting ≠ 0 := by
      refine PortCtx.waiting_ne_zero (s := slot) ?_
      rw [PortCtx.SlotWaits, hwaiting, getLsbD_slotBit, decide_eq_true rfl]
    have hnext : (c.setMem (M 0)).nextCcs.p.ccs = c.p.ccs + 1 := rfl
    have htracked : Tracked [] (c.setMem (M 0)).nextCcs := Tracks.congr h rfl rfl rfl rfl rfl rfl
    have hvalid' : ((c.setMem (M 0)).nextCcs.setMem (M (k + 1))).ValidCmd slot := by
      obtain ⟨hrfis, e, hend, hne⟩ := hvalid
      refine ⟨hrfis, e, ?_, hne⟩
      have hframe : SameFrame (c.setMem (M (k + 1)))
          ((c.setMem (M 0)).nextCcs.setMem (M (k + 1))) := rfl
      rw [← hend]
      exact slotEnd_congr hframe rfl slot
    obtain ⟨t, evs, ht, hlog, hevs⟩ := ih (fun j => M (j + 1)) (c.setMem (M 0)).nextCcs htracked hst hfre
      hidle hwait hwaiting (by omega) (by rw [hnext, slot_add_succ, hslot]) hvalid'
    refine ⟨t, evs, fun fuel hfuel => ?_, hlog, hevs⟩
    obtain ⟨fuel, rfl⟩ : ∃ n, fuel = n + 1 := ⟨fuel - 1, by omega⟩
    rw [ahciPortLoop_pass hsome hidle hwait hpass]
    exact ht fuel (by omega)

end

/-! ## Setting up a command -/

/-- The guest sets up a command on port `i`: it stores to memory, and accesses configuration
space and registers, but none that starts or issues a command. -/
inductive SetsUp (i : Nat) : AhciLabel → Prop where
  | guest (mem : Mem) (stack : Nat → U8) : SetsUp i (.guest mem stack)
  | read (baridx : Nat) (regoff : U64) (size : Nat) : SetsUp i (.read baridx regoff size)
  | config (command : BitVec 16) (msi : PciMsi) (msixEnabled : Bool) :
      SetsUp i (.config command msi msixEnabled)
  | ghc (M : Nat → Mem) (value : U64) : value.setWidth 32 &&& ahciGhcHR = 0 →
      SetsUp i (.write M 5 0x04 value)
  | reg (M : Nat → Mem) (r : Nat) (value : U64) : r < 0x80 → r % 4 = 0 →
      ahciPortReg (BitVec.ofNat 64 r) ∈ [.clb, .clbu, .fb, .fbu, .is, .ie, .serr] →
      SetsUp i (.write M 5 (ahciRegOffset i r) value)

/-- The port is opened, and has nothing to do. -/
structure AhciPort.Ready (p : AhciPort) : Prop extends p.CmdIdle where
  opened : p.opened = true
  pending : p.pending = 0
  idle : tfdBusy p.tfd = false

section

variable {s : AhciHba} {c : PortCtx} {i : Nat}

/-- A write to `GHC`. -/
theorem AhciHba.pciAhciWrite_ghc (s : AhciHba) (fuel : Nat) (M : Nat → Mem) (value : U64) :
    s.pciAhciWrite fuel M 5 0x04 value =
      .ok (s.lockMtx.pciAhciHostWrite 0x04 value).unlockMtx := by
  have hbar : ((5 : Nat) == 5) = true := rfl
  have halign : ((0x04 : U64) % 4 == 0) = true := by decide
  have hlow : (0x04 : U64) < ahciOffset := by decide
  rw [pciAhciWrite, Except.bind_ok (assert_eq_ok (u := ()) |>.2 hbar),
    Except.bind_ok (assert_eq_ok (u := ()) |>.2 halign), pciAhciWriteBody, if_pos hlow]
  rfl

/-- A register that sets up a command leaves the port with nothing to do. -/
theorem ahciPortWriteReg_ready {reg : AhciPortReg} (h : c.p.Ready)
    (hreg : reg ∈ [AhciPortReg.clb, .clbu, .fb, .fbu, .is, .ie, .serr]) (fuel : Nat) (M : Nat → Mem)
    (value : U32) : IfReturns (fun t => t.p.Ready) (ahciPortWriteReg fuel M c reg value) := by
  have hopen := h.opened
  obtain ⟨⟨hci, hsact, hccs, hwait, hreset⟩, -, hpending, hidle⟩ := h
  have hintr : ∀ p : AhciPort, p.Ready → IfReturns (fun t => t.p.Ready) (ahciPortIntrOn { c with p := p }) := by
    intro p hp
    rw [ahciPortIntrOn_opened (c := { c with p := p }) hp.opened]
    exact hp
  simp only [List.mem_cons, List.not_mem_nil, or_false] at hreg
  rcases hreg with rfl | rfl | rfl | rfl | rfl | rfl | rfl
  case inr.inr.inr.inr.inl | inr.inr.inr.inr.inr.inl =>
    exact hintr _ ⟨⟨hci, hsact, hccs, hwait, hreset⟩, hopen, hpending, hidle⟩
  all_goals exact ⟨⟨hci, hsact, hccs, hwait, hreset⟩, hopen, hpending, hidle⟩

/-- **Setting up a command** leaves the port with nothing to do. -/
theorem SetsUp.ready {s t : HbaSys} {l : AhciLabel} (hl : SetsUp i l) (hs : s.dev.Ok)
    (h : (s.dev.port i).Ready) (hstep : HbaStep s l t) : (t.dev.port i).Ready := by
  cases hl with
  | guest => cases hstep; exact h
  | config => cases hstep; exact h
  | read =>
    cases hstep with
    | read _ _ _ _ hr =>
      obtain ⟨_, -, hr⟩ := Except.bind_eq_ok.1 hr
      obtain ⟨_, -, hr⟩ := Except.bind_eq_ok.1 hr
      obtain ⟨_, -, hr⟩ := Except.bind_eq_ok.1 hr
      cases hr
      exact h
  | ghc M value hhr =>
    cases hstep with
    | write fuel _ _ _ _ _ hw =>
      rw [AhciHba.pciAhciWrite_ghc, AhciHba.pciAhciHostWrite, if_pos rfl, if_neg (not_not.2 hhr)] at hw
      cases hw
      exact h
  | reg M r value hr hr4 hreg =>
    cases hstep with
    | write fuel _ _ _ _ _ hw =>
      have hi := (hs.opened i h.opened).1
      rw [AhciHba.pciAhciWrite_reg hs hi hr hr4] at hw
      have hready : (s.dev.lockMtx.ctx i).p.Ready := h
      have hport := ahciPortWriteReg_ready hready hreg fuel M (value.setWidth 32)
      cases hc : ahciPortWriteReg fuel M (s.dev.lockMtx.ctx i) (ahciPortReg (BitVec.ofNat 64 r))
          (value.setWidth 32) with
      | error e =>
        rw [hc] at hw
        cases hw
      | ok c =>
        rw [hc] at hw
        cases hw
        have hp : ((s.dev.lockMtx.put i c).unlockMtx).port i = c.p := Function.update_self _ _ _
        rw [hp]
        exact hport.of_ok hc

/-- **Starting** a port that has nothing to do. -/
theorem ahciPortWriteReg_start {value : U32} (h : c.p.Ready) (hst : value &&& ahciPCmdST ≠ 0)
    (hfre : value &&& ahciPCmdFRE ≠ 0) :
    ∃ d, (∀ fuel M, 0 < fuel → ahciPortWriteReg fuel M c .cmd value = .ok d) ∧ d.p.Ready ∧
      d.p.cmd &&& ahciPCmdST ≠ 0 ∧ d.p.cmd &&& ahciPCmdFRE ≠ 0 := by
  have hrun : (ahciCmdRun c.sc.vmctx c.p value).cmd &&& ahciPCmdST ≠ 0 := by
    rw [@ahciCmdRun_bit ahciPCmdST (by decide) (by decide) (by decide) (by decide) (by decide)
      (by decide)]
    exact hst
  have hrec : (ahciCmdRun c.sc.vmctx c.p value).cmd &&& ahciPCmdFRE ≠ 0 := by
    rw [@ahciCmdRun_bit ahciPCmdFRE (by decide) (by decide) (by decide) (by decide) (by decide)
      (by decide)]
    exact hfre
  have htfd : tfdBusy (ahciCmdRun c.sc.vmctx c.p value).tfd = false :=
    (ahciCmdRest_tfdBusy c.sc.vmctx (ahciCmdStart c.sc.vmctx (ahciCmdBits c.p value)) value).2
      (.inr h.idle)
  obtain ⟨cmd, cmdLst, rfis, tfd, heq⟩ := ahciCmdRun_eq c.sc.vmctx c.p value
  have hready : (ahciCmdRun c.sc.vmctx c.p value).Ready := by
    rw [heq] at htfd ⊢
    exact ⟨⟨h.ci, h.sact, h.ccs, h.wait, h.reset⟩, h.opened, h.pending, htfd⟩
  have hnone : (ahciCmdRun c.sc.vmctx c.p value).waiting = 0 := by
    rw [AhciPort.waiting, hready.ci]
    exact BitVec.zero_and
  refine ⟨{ c with p := ahciCmdRun c.sc.vmctx c.p value }, fun fuel M hfuel => ?_, hready, hrun, hrec⟩
  obtain ⟨fuel, rfl⟩ : ∃ n, fuel = n + 1 := ⟨fuel - 1, by omega⟩
  rw [ahciPortWriteReg_run hst, ahciHandlePort, if_neg hrun,
    ahciPortLoop_returns (c := { c with p := ahciCmdRun c.sc.vmctx c.p value }) (.inl hnone)]

/-- **Issuing** one command on a port that has nothing else to do. -/
theorem ahciPortWriteReg_issue (h : Tracked [] c) (hready : c.p.Ready)
    (hst : c.p.cmd &&& ahciPCmdST ≠ 0) (hfre : c.p.cmd &&& ahciPCmdFRE ≠ 0) (slot : Slot)
    {M : Nat → Mem} (hvalid : (c.setMem (M slot)).ValidCmd slot) :
    ∃ t evs, (∀ fuel, 32 < fuel → ahciPortWriteReg fuel M c .ci (slotBit slot) = .ok t) ∧
      t.log = c.log ++ evs ∧ evs.filterMap AhciEvent.cmdSlot = [slot] := by
  have hset : Tracked [] { c with p := { c.p with ci := c.p.ci ||| slotBit slot } } :=
    Tracks.congr h rfl rfl rfl rfl rfl rfl
  have hwaiting : ({ c.p with ci := c.p.ci ||| slotBit slot } : AhciPort).waiting = slotBit slot := by
    have hzero : (0 : U32) ||| slotBit slot = slotBit slot := BitVec.zero_or
    have hones : ~~~(0 : U32) = BitVec.allOnes 32 := rfl
    rw [AhciPort.waiting, hready.ci, hready.pending, hzero, hones, BitVec.and_allOnes]
  have hslot : ({ c.p with ci := c.p.ci ||| slotBit slot } : AhciPort).ccs + Fin.ofNat 32 slot = slot := by
    have hofNat : Fin.ofNat 32 slot.val = slot := Fin.ofNat_val_eq_self slot
    rw [hready.ccs, hofNat]
    exact Fin.zero_add slot
  have hvalid' : (PortCtx.setMem { c with p := { c.p with ci := c.p.ci ||| slotBit slot } }
      (M slot)).ValidCmd slot := by
    obtain ⟨hrfis, e, hend, hne⟩ := hvalid
    have hframe : SameFrame (c.setMem (M slot))
        (PortCtx.setMem { c with p := { c.p with ci := c.p.ci ||| slotBit slot } } (M slot)) := rfl
    exact ⟨hrfis, e, (slotEnd_congr hframe rfl slot).trans hend, hne⟩
  obtain ⟨t, evs, ht, hlog, hevs⟩ := ahciPortLoop_runs slot slot.val M _ hset hst hfre hready.idle
    hready.wait hwaiting slot.isLt hslot hvalid'
  refine ⟨t, evs, fun fuel hfuel => ?_, hlog, hevs⟩
  rw [ahciPortWriteReg, ahciHandlePort, if_neg hst]
  exact ht fuel (by omega)

end

/-! ## The result -/

/-- The command state of port `i` is that of a new controller: so when the guest sets up a single
valid command, starts the port and writes `PxCI`, `ahci_handle_port` runs its slot and no other. -/
structure Restored (s : HbaSys) (i : Nat) : Prop where
  idle : (s.dev.port i).CmdIdle
  runs : ∀ ls u, Run HbaStep s ls u → (∀ l ∈ ls, SetsUp i l) →
    ∀ value : U64, value.setWidth 32 &&& ahciPCmdST ≠ 0 → value.setWidth 32 &&& ahciPCmdFRE ≠ 0 →
      ∃ v, (∀ fuel M, 0 < fuel →
          u.dev.pciAhciWrite fuel M 5 (ahciRegOffset i 0x18) value = .ok v) ∧
        ∀ (slot : Slot) (M : Nat → Mem), ((v.ctx i).setMem (M slot)).ValidCmd slot →
          ∃ w evs, (∀ fuel, 32 < fuel →
              v.pciAhciWrite fuel M 5 (ahciRegOffset i 0x38) ((slotBit slot).setWidth 64) = .ok w) ∧
            w.log i = v.log i ++ evs ∧ evs.filterMap AhciEvent.cmdSlot = [slot]

/-- A port that has nothing to do is restored. -/
theorem Restored.of_ready {s : HbaSys} {i : Nat} (h : Reaches HbaStep HbaInitial s)
    (hready : (s.dev.port i).Ready) : Restored s i := by
  refine ⟨hready.toCmdIdle, fun ls u hrun hsets value hst hfre => ?_⟩
  -- setting up keeps the port ready
  have hu : Reaches HbaStep HbaInitial u ∧ (u.dev.port i).Ready := by
    clear hst hfre
    induction hrun with
    | nil => exact ⟨h, hready⟩
    | snoc hrun hstep ih =>
      obtain ⟨ht, hport⟩ := ih fun l hl => hsets l (List.mem_append_left _ hl)
      have hlast := hsets _ (List.mem_append_right _ (List.mem_singleton_self _))
      exact ⟨.next ht hstep, hlast.ready ht.ok hport hstep⟩
  obtain ⟨hreach, hport⟩ := hu
  have hok := hreach.ok
  obtain ⟨hi, hpok⟩ := hok.opened i hport.opened
  have hlock : PortOk i (u.dev.lockMtx.ctx i) := hpok.congr rfl rfl rfl
  have hcmd : ahciPortReg (BitVec.ofNat 64 0x18) = .cmd := rfl
  have hci : ahciPortReg (BitVec.ofNat 64 0x38) = .ci := rfl
  obtain ⟨d, hd, hready', hst', hfre'⟩ :=
    ahciPortWriteReg_start (c := u.dev.lockMtx.ctx i) hport hst hfre
  have hdok : PortOk i d := (hlock.writeReg 1 (fun _ => d.mem) .cmd _).of_ok (hd 1 _ Nat.one_pos)
  have hvok : ((u.dev.lockMtx.put i d).unlockMtx).Ok :=
    (AhciHba.Ok.put (hok.shared _ _ _) hport.opened hdok).shared _ _ _
  refine ⟨(u.dev.lockMtx.put i d).unlockMtx, fun fuel M hfuel => ?_, fun slot M hvalid => ?_⟩
  · rw [AhciHba.pciAhciWrite_reg hok hi (by omega) (by omega), hcmd, hd fuel M hfuel]
    rfl
  · have hp : ((u.dev.lockMtx.put i d).unlockMtx).port i = d.p := Function.update_self _ _ _
    have hctx : ((u.dev.lockMtx.put i d).unlockMtx.lockMtx.ctx i).p = d.p := hp
    have hi' : i < (u.dev.lockMtx.put i d).unlockMtx.ports := hi
    have hpok' : PortOk i ((u.dev.lockMtx.put i d).unlockMtx.lockMtx.ctx i) :=
      (hvok.opened i (by rw [hp]; exact hready'.opened)).2.congr rfl rfl rfl
    have hvalid' : (((u.dev.lockMtx.put i d).unlockMtx.lockMtx.ctx i).setMem (M slot)).ValidCmd slot := by
      obtain ⟨hrfis, e, hend, hne⟩ := hvalid
      have hframe : SameFrame (((u.dev.lockMtx.put i d).unlockMtx.ctx i).setMem (M slot))
          (((u.dev.lockMtx.put i d).unlockMtx.lockMtx.ctx i).setMem (M slot)) := rfl
      exact ⟨hrfis, e, (slotEnd_congr hframe rfl slot).trans hend, hne⟩
    rw [← hctx] at hready' hst' hfre'
    obtain ⟨t, evs, ht, hlog, hevs⟩ :=
      ahciPortWriteReg_issue hpok'.tracked hready' hst' hfre' slot hvalid'
    have hbit : ((slotBit slot).setWidth 64 : U64).setWidth 32 = slotBit slot := by simp
    refine ⟨((u.dev.lockMtx.put i d).unlockMtx.lockMtx.put i t).unlockMtx, evs, fun fuel hfuel => ?_, ?_,
      hevs⟩
    · rw [AhciHba.pciAhciWrite_reg hvok hi' (by omega) (by omega), hci, hbit, ht fuel hfuel]
      rfl
    · have hlog' : ((u.dev.lockMtx.put i d).unlockMtx.lockMtx.put i t).unlockMtx.log i = t.log :=
        Function.update_self _ _ _
      rw [hlog', hlog]
      rfl

/-- **When a reset of the controller restores command processing.** With no request in flight, a
write to `GHC` with `HR` set returns, and an opened port is as `pci_ahci_init` has left it exactly
if `PxCI`, `ccs`, `waitforclear` and the software-reset flag were clear before. -/
theorem hba_reset_restores_iff {s : HbaSys} (h : Reaches HbaStep HbaInitial s)
    (hserving : s.serving = false) (hpending : ∀ i < s.dev.ports, (s.dev.port i).pending = 0)
    {value : U64} (hhr : value.setWidth 32 &&& ahciGhcHR ≠ 0) :
    ∃ t, (∀ fuel M, s.dev.pciAhciWrite fuel M 5 0x04 value = .ok t) ∧
      ∀ i, (s.dev.port i).opened = true →
        (Restored ⟨t, false⟩ i ↔
          (s.dev.port i).ci = 0 ∧ (s.dev.port i).ccs = 0 ∧ (s.dev.port i).waitforclear = false ∧
            (s.dev.port i).reset = false) := by
  have hwrite : ∀ fuel M, s.dev.pciAhciWrite fuel M 5 0x04 value =
      .ok s.dev.lockMtx.ahciReset.unlockMtx := by
    intro fuel M
    rw [AhciHba.pciAhciWrite_ghc, AhciHba.pciAhciHostWrite, if_pos rfl, if_pos hhr]
  refine ⟨_, hwrite, fun i hopen => ?_⟩
  have hi := (h.ok.opened i hopen).1
  obtain ⟨hkept, hsact, hidle⟩ := s.dev.lockMtx.ahciReset_kept hi
  have hstep : HbaStep s (.write (fun _ _ => 0) 5 0x04 value)
      ⟨s.dev.lockMtx.ahciReset.unlockMtx, false⟩ := by
    rw [← hserving]
    exact .write 0 _ 5 0x04 value hserving (hwrite 0 _)
  constructor
  · intro hrestored
    obtain ⟨hci, -, hccs, hwait, hreset⟩ := hrestored.idle
    exact ⟨hkept.ci.symm.trans hci, hkept.ccs.symm.trans hccs, hkept.wait.symm.trans hwait,
      hkept.reset.symm.trans hreset⟩
  · rintro ⟨hci, hccs, hwait, hreset⟩
    refine .of_ready (.next h hstep) ⟨⟨?_, hsact, ?_, ?_, ?_⟩, ?_, ?_, hidle hopen⟩
    · exact hkept.ci.trans hci
    · exact hkept.ccs.trans hccs
    · exact hkept.wait.trans hwait
    · exact hkept.reset.trans hreset
    · exact hkept.opened.trans hopen
    · exact hkept.pending.trans (hpending i hi)

/-- Three commands have run, the port has been stopped, and a bit of `PxSACT` has been set: the
reset restores the port. -/
theorem hba_reset_restores_iff_stopped : ∃ s t, Reaches HbaStep HbaInitial s ∧
    (s.dev.log 0).filterMap AhciEvent.cmdSlot = [0, 1, 2] ∧ (s.dev.port 0).sact = 4 ∧
    (∀ fuel M, s.dev.pciAhciWrite fuel M 5 0x04 1 = .ok t) ∧ Restored ⟨t, false⟩ 0 := by
  have hrun : ((hbaBlank "hd:a").dev.writes 5 (fun _ => commandMem 0xe5#8)
      [(0x108, 0x1000), (0x118, 0x11), (0x138, 7), (0x118, 0x10), (0x134, 4)]).toOption.any (fun s =>
        (s.log 0).filterMap AhciEvent.cmdSlot == [0, 1, 2] && (s.port 0).sact == 4 &&
          (s.port 0).opened && ((s.port 0).ci == 0 && (s.port 0).ccs == 0 &&
            !(s.port 0).waitforclear && !(s.port 0).reset) &&
          (List.range s.ports).all fun i => (s.port i).pending == 0) = true := by
    decide +kernel
  obtain ⟨s, hs, hend⟩ := (Option.any_eq_true _ _).1 hrun
  simp only [Bool.and_eq_true, List.all_eq_true, List.mem_range, beq_iff_eq, Bool.not_eq_true'] at hend
  obtain ⟨⟨⟨⟨hlog, hsact⟩, hopen⟩, ⟨⟨hci, hccs⟩, hwait⟩, hreset⟩, hpending⟩ := hend
  have hreach := AhciHba.writes_reaches id _ (.start (hbaBlank_initial "hd:a"))
    (Except.toOption_eq_some.1 hs)
  have hhr : (1 : U64).setWidth 32 &&& ahciGhcHR ≠ 0 := by decide
  obtain ⟨t, ht, hrestored⟩ := hba_reset_restores_iff hreach rfl hpending hhr
  exact ⟨⟨s, false⟩, t, hreach, hlog, hsact, ht, (hrestored 0 hopen).2 ⟨hci, hccs, hwait, hreset⟩⟩

/-! ## After a command has failed -/

/-- A command that the disk does not have fails, and the controller is reset: the port still
waits for the error to be cleared. -/
theorem hba_reset_keeps_waitforclear :
    ¬ ∀ s, Reaches HbaStep HbaInitial s → s.serving = false →
      (∀ i < s.dev.ports, (s.dev.port i).pending = 0) → ∀ fuel M t,
        s.dev.pciAhciWrite fuel M 5 0x04 1 = .ok t → ∀ i, (s.dev.port i).opened = true →
          (t.port i).CmdIdle := by
  intro h
  have hrun : ((hbaBlank "hd:a").dev.writes 2 (fun _ => commandMem 0xff#8)
      [(0x108, 0x1000), (0x118, 0x11), (0x138, 1)]).toOption.any (fun s =>
        (s.port 0).waitforclear && (s.port 0).opened &&
          (List.range s.ports).all fun i => (s.port i).pending == 0) = true := by
    decide +kernel
  obtain ⟨s, hs, hend⟩ := (Option.any_eq_true _ _).1 hrun
  simp only [Bool.and_eq_true, List.all_eq_true, List.mem_range, beq_iff_eq] at hend
  obtain ⟨⟨hwait, hopen⟩, hpending⟩ := hend
  have hreach := AhciHba.writes_reaches id _ (.start (hbaBlank_initial "hd:a"))
    (Except.toOption_eq_some.1 hs)
  have hwrite := s.pciAhciWrite_ghc 0 (fun _ _ => 0) 1
  rw [AhciHba.pciAhciHostWrite, if_pos rfl, if_pos (by decide)] at hwrite
  have hidle := h ⟨s, false⟩ hreach rfl hpending 0 _ _ hwrite 0 hopen
  obtain ⟨hkept, -, -⟩ := s.lockMtx.ahciReset_kept (hreach.ok.opened 0 hopen).1
  have hclear := hidle.wait.symm.trans hkept.wait
  have hset : (s.lockMtx.port 0).waitforclear = true := hwait
  rw [hset] at hclear
  cases hclear

end DeviceModel
