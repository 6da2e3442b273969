import DeviceModel.Library.RoundRobin
import DeviceModel.Ahci.Exec
import DeviceModel.Ahci.TrackedRuns

/-!
# When `ahci_handle_port` ends

The loop goes round the slots. A slot that waits and is neither served, nor makes the port
busy or wait, is looked at again and again: a slot whose frame is not a host to device
frame, and a command that fails while the port does not receive frames.
-/

namespace DeviceModel

/-! ## What a visit depends on -/

/-- The part of a port's view that the end of a slot depends on. -/
def PortCtx.seen (c : PortCtx) : PortCtx where
  sc := ⟨pciDevinstInit, c.sc.vmctx, pthreadMutexInit, 0, 0, false⟩
  p := { ahciPortZero with opened := c.p.opened, atapi := c.p.atapi, cmdLst := c.p.cmdLst }
  blk := ⟨{ blockifOpen 0 with bcSectsz := c.blk.bc.bcSectsz }, fun _ => ⟨0, 0, []⟩, c.mem⟩
  stack := c.stack
  log := []

theorem readLogPage_isNone (c d : PortCtx) (page : U8) :
    (readLogPage c page).isNone = (readLogPage d page).isNone := by
  rw [readLogPage, readLogPage]
  split
  · rfl
  · split
    · rfl
    · split <;> rfl

theorem ataSetfeatures_status (c : PortCtx) (cfis : U64) :
    (ataSetfeatures c cfis).2 = (ataSetfeatures c.seen cfis).2 := by
  rw [ataSetfeatures, ataSetfeatures, show c.seen.cfis cfis = c.cfis cfis from rfl]
  repeat' split
  all_goals rfl

theorem ataSetMulti_status (c : PortCtx) (cfis : U64) :
    (ataSetMulti c cfis).2 = (ataSetMulti c.seen cfis).2 := by
  rw [ataSetMulti, ataSetMulti, show c.seen.cfis cfis = c.cfis cfis from rfl]
  split <;> rfl

theorem cmdEnd_seen (c : PortCtx) (slot : Slot) (cfis : U64) :
    cmdEnd c slot cfis = cmdEnd c.seen slot cfis := by
  rw [cmdEnd, cmdEnd, readLogPage_isNone c c.seen, ataSetfeatures_status, ataSetMulti_status]
  rfl

theorem slotEnd_seen (c : PortCtx) (slot : Slot) : slotEnd c slot = slotEnd c.seen slot := by
  have hcmd : cmdEnd (cmdCtx c slot (slotCfis c slot)) slot (slotCfis c slot) =
      cmdEnd (cmdCtx c.seen slot (slotCfis c.seen slot)) slot (slotCfis c.seen slot) :=
    (cmdEnd_seen (cmdCtx c slot (slotCfis c slot)) slot (slotCfis c slot)).trans
      (cmdEnd_seen (cmdCtx c.seen slot (slotCfis c.seen slot)) slot (slotCfis c.seen slot)).symm
  rw [slotEnd, slotEnd, hcmd]
  rfl

/-- The end of a slot depends on memory and the frame. -/
theorem slotEnd_congr {c d : PortCtx} (h : SameFrame c d) (hmem : d.mem = c.mem) (slot : Slot) :
    slotEnd d slot = slotEnd c slot := by
  have hseen : d.seen = c.seen := by
    rw [PortCtx.seen, PortCtx.seen, h.vmctx, h.opened, h.atapi, h.cmdLst, h.sectsz, h.stack, hmem]
  rw [slotEnd_seen, slotEnd_seen c, hseen]

/-! ## One visit -/

/-- What a visit does to a slot that waits. -/
def slotTurn (c : PortCtx) (slot : Slot) : Turn :=
  match slotEnd c slot with
  | .ignores => .stays
  | .control => .goes
  | .command .fails => if c.p.receives then .ends else .stays
  | .command .succeeds | .command (.trims _) | .command .readsNothing => .goes
  | .command (.issues ncq) => if ncq then .goes else .ends
  | .command .aborts => .ends

/-- What a turn says of a visit to the slot `c.p.ccs`. -/
inductive TurnEnds (c : PortCtx) : Turn → Except Stop PortCtx → Prop where
  | stays {t : PortCtx} : SameFrame c t → t.p.ccs = c.p.ccs → t.p.waiting = c.p.waiting →
      tfdBusy t.p.tfd = false → t.p.waitforclear = false → TurnEnds c .stays (.ok t)
  | goes {t : PortCtx} : SameFrame c t → t.p.ccs = c.p.ccs →
      t.p.waiting = c.p.waiting &&& ~~~slotBit c.p.ccs →
      tfdBusy t.p.tfd = false → t.p.waitforclear = false → TurnEnds c .goes (.ok t)
  | error {e : Stop} : e ≠ .outOfFuel → TurnEnds c .ends (.error e)
  | busy {t : PortCtx} : tfdBusy t.p.tfd = true → TurnEnds c .ends (.ok t)
  | waits {t : PortCtx} : t.p.waitforclear = true → TurnEnds c .ends (.ok t)

section

variable {busy : List BlockifElem} {c d t : PortCtx} {slot : Slot} {cfis : U64}

/-- A slot whose bit of `PxCI` is cleared waits no more. -/
theorem waiting_clear {p q : AhciPort} (hci : q.ci = p.ci &&& ~~~slotBit slot)
    (hpending : q.pending = p.pending ∨ q.pending = p.pending ||| slotBit slot) :
    q.waiting = p.waiting &&& ~~~slotBit slot := by
  refine slots_ext fun s => ?_
  rw [getLsbD_and_not_slotBit, AhciPort.getLsbD_waiting, AhciPort.getLsbD_waiting, hci,
    getLsbD_and_not_slotBit]
  rcases hpending with hp | hp <;> rw [hp]
  · cases p.ci.getLsbD s <;> cases p.pending.getLsbD s <;> cases decide (s = slot) <;> rfl
  · rw [getLsbD_or_slotBit]
    cases p.ci.getLsbD s <;> cases p.pending.getLsbD s <;> cases decide (s = slot) <;> rfl

theorem tfdBusy_or (tfd : U32) : tfdBusy (tfd ||| ataSBusy) = true := by
  have hbit : (tfd ||| ataSBusy).getLsbD 7 = true := by
    rw [BitVec.getLsbD_or]
    have hbusy : ataSBusy.getLsbD 7 = true := by decide
    rw [hbusy, Bool.or_true]
  rw [tfdBusy, bne_iff_ne]
  intro hz
  have hand : ((tfd ||| ataSBusy) &&& (ataSBusy ||| ataSDrq)).getLsbD 7 = true := by
    have hmask : (ataSBusy ||| ataSDrq).getLsbD 7 = true := by decide
    rw [BitVec.getLsbD_and, hbit, hmask, Bool.true_and]
  rw [hz] at hand
  exact absurd hand (by decide)

/-- A command, from the state in which `ahci_handle_cmd` starts on its `switch`. -/
theorem EndsWith.turn {e : CmdEnd} {r : Except Stop PortCtx}
    (he : EndsWith (cmdCtx c c.p.ccs cfis) c.p.ccs cfis e r) (h : Tracked busy c)
    (hbusy : busy.length ≤ 1) (hrun : c.p.cmd &&& ahciPCmdST ≠ 0)
    (hwait : c.p.waitforclear = false) (hturn : slotEnd c c.p.ccs = .command e) :
    TurnEnds c (slotTurn c c.p.ccs) r := by
  have hctx : SameFrame c (cmdCtx c c.p.ccs cfis) := rfl
  have htracked : Tracked busy (cmdCtx c c.p.ccs cfis) := Tracks.congr h rfl rfl rfl rfl rfl rfl
  have hfinal : tfdBusy (cmdCtx c c.p.ccs cfis).p.tfd = true := tfdBusy_or c.p.tfd
  have hok : tfdBusy ataOk = false := by decide
  rw [slotTurn, hturn]
  cases he with
  | fails ha =>
    simp only []
    have hw := ha.wait
    have hrec : (cmdCtx c c.p.ccs cfis).p.receives = c.p.receives := rfl
    rw [Bool.and_true, hrec] at hw
    split
    · next hyes =>
      refine .waits ?_
      rw [hw, hyes, Bool.or_true]
    · next hno =>
      refine .stays (hctx.trans ha.reports.frame) ha.reports.ccs ?_ ha.busy ?_
      · rw [AhciPort.waiting, ha.reports.pending, ha.ci]
        rfl
      · rw [hw, Bool.eq_false_iff.2 hno, Bool.or_false]
        exact hwait
  | succeeds ha =>
    refine .goes (hctx.trans ha.reports.frame) ha.reports.ccs ?_ ha.busy ?_
    · exact waiting_clear ha.ci (.inl ha.reports.pending)
    · rw [ha.wait, Bool.and_false, Bool.or_false]
      exact hwait
  | @trims d ncq ht =>
    have hrun' : d.p.cmd &&& ahciPCmdST ≠ 0 := by
      rw [(hctx.trans ht.reports.frame).running]
      exact hrun
    rw [ahciFinished_running _ hrun']
    have hframe : SameFrame c d := hctx.trans ht.reports.frame
    refine .goes hframe ht.reports.ccs ?_ (ht.busy rfl) (ht.wait.trans hwait)
    have hci := ht.ci
    rw [Bool.not_true, Bool.and_false, if_neg Bool.false_ne_true] at hci
    refine slots_ext fun s => ?_
    rw [getLsbD_and_not_slotBit, AhciPort.getLsbD_waiting, AhciPort.getLsbD_waiting]
    simp only [hci, getLsbD_and_not_slotBit, ht.reports.pending]
    simp only [cmdCtx, PortCtx.record]
    cases c.p.ci.getLsbD s <;> cases c.p.pending.getLsbD s <;> cases decide (s = c.p.ccs) <;> rfl
  | @issues fill ncq op hfill hisok =>
    obtain ⟨t, a, aior, breq, ht, hi, -, -⟩ := Tracks.issue_ok htracked hbusy hfill hisok ncq op
    rw [ht]
    have htfd := hi.tfd
    cases ncq with
    | false =>
      rw [if_neg Bool.false_ne_true] at htfd
      refine .busy ?_
      rw [htfd]
      exact hfinal
    | true =>
      have hci := hi.ci
      rw [if_pos rfl] at htfd hci
      refine .goes (hctx.trans hi.frame) hi.ccs (waiting_clear hci (.inr hi.pending)) ?_ ?_
      · rw [htfd]
        exact hok
      · exact hi.wait.trans hwait
  | @readsNothing d fill ha hfill hisok =>
    obtain ⟨t, a, aior, breq, ht, hi, -, -⟩ :=
      Tracks.issue_ok (Tracked.reports htracked ha.reports) hbusy hfill hisok false .read
    rw [ht]
    have htfd := hi.tfd
    have hci := hi.ci
    rw [if_neg Bool.false_ne_true] at htfd hci
    refine .goes ((hctx.trans ha.reports.frame).trans hi.frame) (hi.ccs.trans ha.reports.ccs) ?_ ?_ ?_
    · refine waiting_clear (hci.trans ha.ci) (.inr ?_)
      rw [hi.pending, ha.reports.pending]
      rfl
    · rw [htfd]
      exact ha.busy
    · rw [hi.wait, ha.wait, Bool.and_false, Bool.or_false]
      exact hwait
  | aborts hfill hisok =>
    rw [Tracks.issue_error htracked hfill hisok]
    exact .error (by decide)

/-- **A visit** to a slot that waits, on a running port that is neither busy nor waiting. -/
theorem ahciVisit_turn (h : Tracked busy c) (hbusy : busy.length ≤ 1)
    (hrun : c.p.cmd &&& ahciPCmdST ≠ 0) (hvisits : c.p.visits = true)
    (hidle : tfdBusy c.p.tfd = false) (hwait : c.p.waitforclear = false) :
    TurnEnds c (slotTurn c c.p.ccs) (ahciVisit c) := by
  have hset : SameFrame c { c with p := c.p.setCmdCcs } := setCmdCcs_frame c
  have htracked : Tracked busy { c with p := c.p.setCmdCcs } :=
    Tracks.congr h rfl rfl rfl rfl rfl rfl
  have hrun' : c.p.setCmdCcs.cmd &&& ahciPCmdST ≠ 0 := by
    rw [hset.running]
    exact hrun
  have hsame : slotTurn { c with p := c.p.setCmdCcs } c.p.ccs = slotTurn c c.p.ccs := by
    have hrec : c.p.setCmdCcs.receives = c.p.receives := hset.receives
    rw [slotTurn, slotTurn, slotEnd_congr hset rfl, hrec]
  have hends := ahciVisit_ends hvisits h.opened
  -- the visit is one of the state whose `PxCMD` names the slot
  have hturn : TurnEnds { c with p := c.p.setCmdCcs } (slotTurn c c.p.ccs) (ahciVisit c) := by
    rw [← hsame]
    generalize hend : slotEnd { c with p := c.p.setCmdCcs } c.p.ccs = e at hends
    generalize ahciVisit c = r at hends ⊢
    cases hends with
    | ignores =>
      rw [slotTurn, hend]
      exact .stays rfl rfl rfl hidle hwait
    | control hr hlog hci hb hw =>
      rw [slotTurn, hend]
      exact .goes hr.frame hr.ccs (waiting_clear hci (.inl hr.pending)) (hb hidle) (hw.trans hwait)
    | command he =>
      exact he.turn (c := { c with p := c.p.setCmdCcs }) htracked hbusy hrun' hwait hend
  generalize slotTurn c c.p.ccs = turn at hturn
  generalize ahciVisit c = r at hturn
  cases hturn with
  | stays hf hccs hwaiting hi hw => exact .stays (hset.trans hf) hccs hwaiting hi hw
  | goes hf hccs hwaiting hi hw => exact .goes (hset.trans hf) hccs hwaiting hi hw
  | error he => exact .error he
  | busy hb => exact .busy hb
  | waits hw => exact .waits hw

end

/-! ## The loop -/

/-- The slot that iteration `k` looks at. -/
def portTurn (c : PortCtx) : Nat → Slot
  | 0 => c.p.ccs
  | k + 1 => portTurn c k + 1

/-- What iteration `k` does to that slot if it waits. On a port that is not opened it follows
a null pointer. -/
def portFate (M : Nat → Mem) (c : PortCtx) (k : Nat) : Turn :=
  if c.p.opened then slotTurn (c.setMem (M k)) (portTurn c k) else .ends

/-- The slot waits when `ahci_handle_port` starts. -/
def PortCtx.SlotWaits (c : PortCtx) (s : Slot) : Prop := c.p.waiting.getLsbD s = true

/-- The port is opened only if its requests are tracked. -/
def Walkable (c : PortCtx) : Prop :=
  c.p.opened = true → ∃ busy : List BlockifElem, busy.length ≤ 1 ∧ Tracked busy c

/-- Iteration `k` of the loop that starts in `c₀` starts in `c`. -/
structure InLoop (M : Nat → Mem) (c₀ : PortCtx) (k : Nat) (c : PortCtx) : Prop where
  walkable : Walkable c
  frame : SameFrame c₀ c
  ccs : c.p.ccs = portTurn c₀ k
  waits : ∀ s, c.SlotWaits s ↔ Waits c₀.SlotWaits (portTurn c₀) (portFate M c₀) k s
  idle : tfdBusy c.p.tfd = false
  wait : c.p.waitforclear = false

section

variable {M : Nat → Mem} {c₀ c t : PortCtx} {k : Nat}

/-- What a visit ends in, by what the loop will do at this turn. -/
theorem InLoop.turn (h : InLoop M c₀ k c) (hrun : c₀.p.cmd &&& ahciPCmdST ≠ 0)
    (hvisits : c.p.visits = true) :
    TurnEnds (c.setMem (M k)) (portFate M c₀ k) (ahciVisit (c.setMem (M k))) := by
  rw [portFate, ← h.frame.opened]
  cases hopen : c.p.opened with
  | true =>
    obtain ⟨busy, hlen, htracked⟩ := h.walkable hopen
    have hmem : Tracked busy (c.setMem (M k)) := Tracks.setMem htracked (M k)
    have hturn := ahciVisit_turn hmem hlen (h.frame.running ▸ hrun) hvisits h.idle h.wait
    have hsame : slotTurn (c.setMem (M k)) (c.setMem (M k)).p.ccs =
        slotTurn (c₀.setMem (M k)) (portTurn c₀ k) := by
      have hframe : SameFrame (c₀.setMem (M k)) (c.setMem (M k)) := h.frame
      have hccs : (c.setMem (M k)).p.ccs = portTurn c₀ k := h.ccs
      rw [slotTurn, slotTurn, hccs, slotEnd_congr hframe rfl, hframe.receives]
    rw [hsame] at hturn
    rw [if_pos rfl]
    exact hturn
  | false =>
    have hnull : ahciVisit (c.setMem (M k)) = .error .undefined := by
      have hvisits' := (AhciPort.visits_iff (c.setMem (M k)).p).1 hvisits
      have hopen' : (c.setMem (M k)).p.setCmdCcs.opened = false := hopen
      rw [ahciVisit, if_pos hvisits', ahciHandleSlot, hopen']
      rfl
    rw [hnull]
    exact .error (by decide)

/-- The slot that the loop looks at. -/
theorem InLoop.visits (h : InLoop M c₀ k c) :
    c.p.visits = true ↔ Waits c₀.SlotWaits (portTurn c₀) (portFate M c₀) k (portTurn c₀ k) := by
  rw [← h.waits, ← h.ccs]
  rfl

theorem Walkable.visited (h : Walkable c) (ht : ahciVisit c = .ok t) : Walkable t.nextCcs := by
  cases hopen : c.p.opened with
  | true =>
    obtain ⟨busy, hlen, htracked⟩ := h hopen
    have hvisit := (ahciVisit_tracked htracked hlen).of_ok ht
    exact fun _ => ⟨busy, hlen, Tracks.congr hvisit rfl rfl rfl rfl rfl rfl⟩
  | false =>
    rw [ahciVisit] at ht
    split at ht
    · have hopen' : c.p.setCmdCcs.opened = false := hopen
      rw [ahciHandleSlot, hopen'] at ht
      cases ht
    · cases ht
      intro hyes
      exact absurd (hopen.symm.trans hyes) Bool.false_ne_true

/-- A turn that does not end the loop. -/
theorem InLoop.next (h : InLoop M c₀ k c) (hrun : c₀.p.cmd &&& ahciPCmdST ≠ 0)
    (hgoes : ¬ EndsAt c₀.SlotWaits (portTurn c₀) (portFate M c₀) k) :
    ∃ t, ahciVisit (c.setMem (M k)) = .ok t ∧ InLoop M c₀ (k + 1) t.nextCcs := by
  have hwalk : Walkable (c.setMem (M k)) := fun hopen => by
    obtain ⟨busy, hlen, htracked⟩ := h.walkable hopen
    exact ⟨busy, hlen, Tracks.setMem htracked (M k)⟩
  -- the state after the turn, by what it leaves of the slots that wait
  have hnext : ∀ t, ahciVisit (c.setMem (M k)) = .ok t → SameFrame c t → t.p.ccs = c.p.ccs →
      (∀ s, t.SlotWaits s ↔ c.SlotWaits s ∧ (portTurn c₀ k = s → portFate M c₀ k = .stays)) →
      tfdBusy t.p.tfd = false → t.p.waitforclear = false →
      ∃ t, ahciVisit (c.setMem (M k)) = .ok t ∧ InLoop M c₀ (k + 1) t.nextCcs := by
    intro t ht hframe hccs hwaits hidle hwait
    refine ⟨t, ht, hwalk.visited ht, h.frame.trans hframe, ?_, fun s => ?_, hidle, hwait⟩
    · rw [portTurn, ← h.ccs, ← hccs]
      rfl
    · rw [waits_succ, ← h.waits]
      exact hwaits s
  cases hvisits : c.p.visits with
  | false =>
    refine hnext _ (ahciVisit_passes hvisits) rfl rfl (fun s => ?_) h.idle h.wait
    refine ⟨fun hs => ⟨hs, ?_⟩, And.left⟩
    rintro rfl
    rw [← h.ccs] at hs
    exact absurd (hvisits.symm.trans hs) Bool.false_ne_true
  | true =>
    have hturn := h.turn hrun hvisits
    have hfate : portFate M c₀ k ≠ .ends := fun hends => hgoes (.inr ⟨h.visits.1 hvisits, hends⟩)
    generalize portFate M c₀ k = fate at hturn hfate hnext
    generalize hr : ahciVisit (c.setMem (M k)) = r at hturn
    cases hturn with
    | stays hf hccs hwaiting hi hw =>
      refine hr ▸ hnext _ hr hf hccs (fun s => ?_) hi hw
      rw [PortCtx.SlotWaits, hwaiting]
      exact ⟨fun hs => ⟨hs, fun _ => rfl⟩, And.left⟩
    | goes hf hccs hwaiting hi hw =>
      refine hr ▸ hnext _ hr hf hccs (fun s => ?_) hi hw
      have hccs' : (c.setMem (M k)).p.ccs = portTurn c₀ k := h.ccs
      rw [PortCtx.SlotWaits, hwaiting, getLsbD_and_not_slotBit, Bool.and_eq_true, Bool.not_eq_true',
        decide_eq_false_iff_not, hccs']
      refine and_congr_right fun _ => ⟨fun hne heq => absurd heq.symm hne, fun hstays heq => ?_⟩
      cases hstays heq.symm
    | error | busy | waits => exact absurd rfl hfate

/-- An iteration that looks at a slot. -/
theorem ahciPortLoop_step {N : Nat → Mem} (hsome : c.p.waiting ≠ 0) (hidle : tfdBusy c.p.tfd = false)
    (hwait : c.p.waitforclear = false) (fuel : Nat) :
    ahciPortLoop (fuel + 1) N c =
      (ahciVisit (c.setMem (N 0)) >>= fun t => ahciPortLoop fuel (fun j => N (j + 1)) t.nextCcs) := by
  have hidle' : ¬ c.p.tfd &&& (ataSBusy ||| ataSDrq) ≠ 0 := bne_eq_false_iff_eq.1 hidle ▸ fun h => h rfl
  rw [ahciPortLoop, if_neg hsome, if_neg hidle', hwait, if_neg Bool.false_ne_true]

/-- The loop returns where no slot waits, and where the port is busy or waits. -/
theorem ahciPortLoop_returns {N : Nat → Mem}
    (h : c.p.waiting = 0 ∨ tfdBusy c.p.tfd = true ∨ c.p.waitforclear = true) (fuel : Nat) :
    ahciPortLoop (fuel + 1) N c = .ok c := by
  rw [ahciPortLoop]
  rcases h with hnone | hbusy | hwait
  · rw [if_pos hnone]
  · rw [if_pos (bne_iff_ne.1 hbusy), ite_self]
  · rw [if_pos hwait, ite_self, ite_self]

theorem PortCtx.waiting_ne_zero {s : Slot} (h : c.SlotWaits s) : c.p.waiting ≠ 0 := by
  intro hz
  rw [PortCtx.SlotWaits, hz] at h
  exact absurd (BitVec.getLsbD_zero.symm.trans h) Bool.false_ne_true

/-- The loop goes round to the only slot that waits. -/
theorem ahciPortLoop_round {slot : Slot} (fuel : Nat) : ∀ (k : Nat) (c : PortCtx), k < 32 →
    (c.p.ccs.val + k) % 32 = slot.val → c.p.waiting = slotBit slot → tfdBusy c.p.tfd = false →
    c.p.waitforclear = false →
    ahciPortLoop (fuel + 1 + k) (fun _ => c.mem) c =
      (ahciVisit { c with p := { c.p with ccs := slot } } >>= fun t =>
        ahciPortLoop fuel (fun _ => c.mem) t.nextCcs) := by
  intro k
  induction k with
  | zero =>
    intro c _ hround hwaiting hidle hwait
    have hccs : c.p.ccs = slot := Fin.ext (by omega)
    have hsome : c.p.waiting ≠ 0 := by
      refine PortCtx.waiting_ne_zero (s := slot) ?_
      rw [PortCtx.SlotWaits, hwaiting, getLsbD_slotBit, decide_eq_true rfl]
    have hhere : ({ c with p := { c.p with ccs := slot } } : PortCtx) = c := by rw [← hccs]
    rw [hhere]
    exact ahciPortLoop_step hsome hidle hwait fuel
  | succ k ih =>
    intro c hk hround hwaiting hidle hwait
    have hlt := c.p.ccs.isLt
    have hccs : c.p.ccs ≠ slot := by
      intro heq
      rw [← heq] at hround
      omega
    have hsome : c.p.waiting ≠ 0 := by
      refine PortCtx.waiting_ne_zero (s := slot) ?_
      rw [PortCtx.SlotWaits, hwaiting, getLsbD_slotBit, decide_eq_true rfl]
    have hpass : ahciVisit (c.setMem c.mem) = .ok c := by
      refine ahciVisit_passes (c := c) ?_
      rw [AhciPort.visits, hwaiting, getLsbD_slotBit, decide_eq_false hccs]
    have hadd : c.nextCcs.p.ccs.val = (c.p.ccs.val + 1) % 32 := Fin.val_add _ _
    rw [← Nat.add_assoc, ahciPortLoop_step hsome hidle hwait, Except.bind_ok hpass]
    exact ih c.nextCcs (by omega) (by omega) hwaiting hidle hwait

/-- **A turn that ends the loop.** -/
theorem InLoop.ends (h : InLoop M c₀ k c) (hrun : c₀.p.cmd &&& ahciPCmdST ≠ 0)
    (hends : EndsAt c₀.SlotWaits (portTurn c₀) (portFate M c₀) k) (fuel : Nat) :
    ahciPortLoop (fuel + 1 + 1) (fun j => M (k + j)) c ≠ .error .outOfFuel := by
  intro hstop
  rcases hends with hnone | ⟨hwaits, hfate⟩
  · have hzero : c.p.waiting = 0 := by
      refine slots_ext fun s => ?_
      have hs : c.p.waiting.getLsbD s = false :=
        Bool.eq_false_iff.2 fun hyes => hnone s ((h.waits s).1 hyes)
      exact hs.trans BitVec.getLsbD_zero.symm
    rw [ahciPortLoop_returns (.inl hzero)] at hstop
    cases hstop
  · have hturn := h.turn hrun (h.visits.2 hwaits)
    have hsome : c.p.waiting ≠ 0 := PortCtx.waiting_ne_zero ((h.waits _).2 hwaits)
    rw [ahciPortLoop_step hsome h.idle h.wait, Nat.add_zero] at hstop
    rw [hfate] at hturn
    generalize ahciVisit (c.setMem (M k)) = r at hturn hstop
    -- the next iteration finds the port busy, or waiting
    have hnext : ∀ t : PortCtx, tfdBusy t.p.tfd = true ∨ t.p.waitforclear = true →
        ahciPortLoop (fuel + 1) (fun j => M (k + (j + 1))) t.nextCcs = .ok t.nextCcs :=
      fun t ht => ahciPortLoop_returns (c := t.nextCcs) (.inr ht) fuel
    cases hturn with
    | error he => exact he (Except.error.inj hstop)
    | @busy t hbusy => exact absurd ((hnext t (.inl hbusy)).symm.trans hstop) (fun h => nomatch h)
    | @waits t hwait => exact absurd ((hnext t (.inr hwait)).symm.trans hstop) (fun h => nomatch h)

/-- An iteration that is not the last one. -/
theorem InLoop.goes_on (h : InLoop M c₀ k c) (hrun : c₀.p.cmd &&& ahciPCmdST ≠ 0)
    (hgoes : ¬ EndsAt c₀.SlotWaits (portTurn c₀) (portFate M c₀) k) :
    ∃ t, InLoop M c₀ (k + 1) t ∧ ∀ fuel, ahciPortLoop (fuel + 1) (fun j => M (k + j)) c =
      ahciPortLoop fuel (fun j => M (k + 1 + j)) t := by
  obtain ⟨t, ht, hnext⟩ := h.next hrun hgoes
  have hsome : c.p.waiting ≠ 0 := by
    intro hz
    refine hgoes (.inl fun s hs => ?_)
    exact absurd hz (PortCtx.waiting_ne_zero ((h.waits s).2 hs))
  refine ⟨t.nextCcs, hnext, fun fuel => ?_⟩
  rw [ahciPortLoop_step hsome h.idle h.wait, Nat.add_zero, ht]
  have hshift : (fun j => M (k + (j + 1))) = fun j => M (k + 1 + j) := by
    funext j
    rw [Nat.add_assoc, Nat.add_comm 1]
  rw [← hshift]
  rfl

/-- Some turn ends the loop: it ends. -/
theorem InLoop.terminates (hrun : c₀.p.cmd &&& ahciPCmdST ≠ 0) :
    ∀ (n k : Nat) (c : PortCtx), InLoop M c₀ k c →
      EndsAt c₀.SlotWaits (portTurn c₀) (portFate M c₀) (k + n) →
      ∃ fuel, ahciPortLoop fuel (fun j => M (k + j)) c ≠ .error .outOfFuel := by
  intro n
  induction n with
  | zero => exact fun k c h hends => ⟨0 + 1 + 1, h.ends hrun hends 0⟩
  | succ n ih =>
    intro k c h hends
    by_cases hnow : EndsAt c₀.SlotWaits (portTurn c₀) (portFate M c₀) k
    · exact ⟨0 + 1 + 1, h.ends hrun hnow 0⟩
    · obtain ⟨t, ht, hstep⟩ := h.goes_on hrun hnow
      rw [Nat.add_comm n 1, ← Nat.add_assoc] at hends
      obtain ⟨fuel, hfuel⟩ := ih (k + 1) t ht hends
      exact ⟨fuel + 1, by rw [hstep]; exact hfuel⟩

/-- No turn ends the loop: it never ends. -/
theorem InLoop.never (hrun : c₀.p.cmd &&& ahciPCmdST ≠ 0)
    (hnever : ∀ k, ¬ EndsAt c₀.SlotWaits (portTurn c₀) (portFate M c₀) k) :
    ∀ (fuel k : Nat) (c : PortCtx), InLoop M c₀ k c →
      ahciPortLoop fuel (fun j => M (k + j)) c = .error .outOfFuel := by
  intro fuel
  induction fuel with
  | zero => exact fun _ _ _ => rfl
  | succ fuel ih =>
    intro k c h
    obtain ⟨t, ht, hstep⟩ := h.goes_on hrun (hnever k)
    rw [hstep]
    exact ih (k + 1) t ht

/-- **When `ahci_handle_port` ends.** -/
theorem ahciPortLoop_ends_iff (hwalk : Walkable c) (hrun : c.p.cmd &&& ahciPCmdST ≠ 0)
    (hidle : tfdBusy c.p.tfd = false) (hwait : c.p.waitforclear = false) (M : Nat → Mem) :
    (∃ fuel, ahciPortLoop fuel M c ≠ .error .outOfFuel) ↔
      ∃ k, EndsAt c.SlotWaits (portTurn c) (portFate M c) k := by
  have hstart : InLoop M c 0 c :=
    ⟨hwalk, rfl, rfl, fun s => waits_zero.symm, hidle, hwait⟩
  have hM : (fun j => M (0 + j)) = M := by
    funext j
    rw [Nat.zero_add]
  constructor
  · rintro ⟨fuel, hfuel⟩
    by_contra hno
    have hnever := InLoop.never hrun (not_exists.1 hno) fuel 0 c hstart
    rw [hM] at hnever
    exact hfuel hnever
  · rintro ⟨k, hends⟩
    obtain ⟨fuel, hfuel⟩ := InLoop.terminates hrun k 0 c hstart (by rw [Nat.zero_add]; exact hends)
    rw [hM] at hfuel
    exact ⟨fuel, hfuel⟩

end

/-! ## Runs -/

/-- The states in which the loop of `ahci_handle_port` may be, on any port of a controller
that some run has reached. -/
inductive AtPortLoop : PortCtx → Prop where
  /-- `PxCI` is written -/
  | ci {s : AhciSys} (i : Nat) (value : U32) : Reaches AhciStep AhciInitial s → s.serving = false →
      AtPortLoop { s.dev.lockMtx.ctx i with
        p := { s.dev.port i with ci := (s.dev.port i).ci ||| value } }
  /-- `PxCMD` is written -/
  | cmd {s : AhciSys} {t : PortCtx} (i : Nat) (value : U32) : Reaches AhciStep AhciInitial s →
      s.serving = false → ahciCmdWrite (s.dev.lockMtx.ctx i) value = .ok t → AtPortLoop t
  /-- the callback of a request goes on with the next command -/
  | callback {s : AhciSys} {t : PortCtx} {be : BlockifElem} {q : List BlockifElem} :
      Reaches AhciStep AhciInitial s → s.dev.blk.bc.bcPendq = be :: q →
      ahciIoreqBody (serveEntry (s.dev.ctx 0) be q).lockMtx be.beReq (serveErr (s.dev.ctx 0) be) =
        .ok (t, true) → AtPortLoop t
  /-- a slot has been looked at -/
  | visit {c t : PortCtx} (m : Mem) : AtPortLoop c → ahciVisit (c.setMem m) = .ok t →
      AtPortLoop t.nextCcs

/-- The port of a controller whose requests are tracked. -/
theorem Ahci.TrackedDev.port {s : Ahci} (h : s.TrackedDev) (i : Nat) :
    (i = 0 ∧ Tracked [] (s.ctx i)) ∨ (s.port i).opened = false := by
  by_cases hi : i = 0
  · rw [hi]
    exact .inl ⟨rfl, h.tracked⟩
  · exact .inr (h.closed i hi)

theorem AtPortLoop.walkable {c : PortCtx} (h : AtPortLoop c) : Walkable c := by
  have hnone : ([] : List BlockifElem).length ≤ 1 := Nat.zero_le 1
  induction h with
  | ci i value hs =>
    intro hopen
    rcases hs.tracked.port i with ⟨rfl, htracked⟩ | hclosed
    · exact ⟨[], hnone, Tracks.congr htracked rfl rfl rfl rfl rfl rfl⟩
    · exact absurd (hclosed.symm.trans hopen) Bool.false_ne_true
  | @cmd s t i value hs _ ht =>
    intro hopen
    rcases hs.tracked.port i with ⟨rfl, htracked⟩ | hclosed
    · have hlock : Tracked [] (s.dev.lockMtx.ctx 0) := Tracks.congr htracked rfl rfl rfl rfl rfl rfl
      exact ⟨[], hnone, (ahciCmdWrite_tracked hlock value).of_ok ht⟩
    · have hclosed' : t.p.opened = false :=
        ((ahciCmdWrite_closed (c := s.dev.lockMtx.ctx i) hclosed value).of_ok ht).closed
      exact absurd (hclosed'.symm.trans hopen) Bool.false_ne_true
  | @callback s t be q hs hpend ht =>
    intro _
    have hone : [{ be with beStatus := Blockstat.done }].length ≤ 1 := Nat.le_refl 1
    have hbody := ahciIoreqBody_tracked (hs.tracked.tracked.reap hpend) hone
      (serveErr (s.dev.ctx 0) be)
    exact ⟨_, hone, hbody.of_ok ht⟩
  | visit m _ ht ih =>
    refine Walkable.visited (c := PortCtx.setMem _ m) (fun hopen => ?_) ht
    obtain ⟨busy, hlen, htracked⟩ := ih hopen
    exact ⟨busy, hlen, Tracks.setMem htracked m⟩

/-- Why the loop of `ahci_handle_port` that starts in `c` and finds `M` in memory ends. -/
def PortLoopEnds (M : Nat → Mem) (c : PortCtx) : Prop :=
  c.p.cmd &&& ahciPCmdST = 0 ∨ tfdBusy c.p.tfd = true ∨ c.p.waitforclear = true ∨
    (∃ k, Waits c.SlotWaits (portTurn c) (portFate M c) k (portTurn c k) ∧
      portFate M c k = .ends) ∨
    ∀ s, c.SlotWaits s → ∃ k, portTurn c k = s ∧ portFate M c k ≠ .stays

/-- The slot is out of the way: it does not wait any more, or the loop stops here. -/
def PortCtx.Handled (c : PortCtx) (slot : Slot) : Prop :=
  ¬ c.SlotWaits slot ∨ tfdBusy c.p.tfd = true ∨ c.p.waitforclear = true

/-- **`ahci_handle_port` ends** exactly if the port does not run, is busy or waits, or some
iteration makes it so, or each slot that waits is served some time. A visit serves its slot, or
stops the loop, exactly if the slot is not one that stays. -/
theorem ahci_handle_port_ends {c : PortCtx} (h : AtPortLoop c) (M : Nat → Mem) :
    ((∃ fuel, ahciHandlePort fuel M c ≠ .error .outOfFuel) ↔ PortLoopEnds M c) ∧
    (c.p.cmd &&& ahciPCmdST ≠ 0 → tfdBusy c.p.tfd = false → c.p.waitforclear = false →
      c.p.visits = true → ∀ t, ahciVisit (c.setMem (M 0)) = .ok t →
      (t.Handled c.p.ccs ↔ portFate M c 0 ≠ .stays)) := by
  constructor
  · by_cases hrun : c.p.cmd &&& ahciPCmdST = 0
    · have hret : ∀ fuel, ahciHandlePort fuel M c = .ok c := fun fuel => by
        rw [ahciHandlePort, if_pos hrun]
      exact ⟨fun _ => .inl hrun, fun _ => ⟨0, by rw [hret]; intro h; cases h⟩⟩
    have hloop : ∀ fuel, ahciHandlePort fuel M c = ahciPortLoop fuel M c := fun fuel => by
      rw [ahciHandlePort, if_neg hrun]
    simp only [hloop]
    cases hidle : tfdBusy c.p.tfd with
    | true =>
      refine ⟨fun _ => .inr (.inl hidle), fun _ => ⟨0 + 1, ?_⟩⟩
      rw [ahciPortLoop_returns (.inr (.inl hidle))]
      intro h
      cases h
    | false =>
      cases hwait : c.p.waitforclear with
      | true =>
        refine ⟨fun _ => .inr (.inr (.inl hwait)), fun _ => ⟨0 + 1, ?_⟩⟩
        rw [ahciPortLoop_returns (.inr (.inr hwait))]
        intro h
        cases h
      | false =>
        rw [ahciPortLoop_ends_iff h.walkable hrun hidle hwait, exists_endsAt_iff, PortLoopEnds, hidle,
          hwait]
        simp only [hrun, Bool.false_eq_true, false_or]
  · intro hrun hidle hwait hvisits t ht
    have hstart : InLoop M c 0 c :=
      ⟨h.walkable, rfl, rfl, fun s => waits_zero.symm, hidle, hwait⟩
    have hturn := hstart.turn hrun hvisits
    rw [ht] at hturn
    generalize portFate M c 0 = fate at hturn
    cases hturn with
    | stays _ _ hwaiting hi hw =>
      refine ⟨?_, fun hne => absurd rfl hne⟩
      rintro (hgone | hbusy | hwaits)
      · rw [PortCtx.SlotWaits, hwaiting] at hgone
        exact absurd hvisits hgone
      · exact absurd (hi.symm.trans hbusy) Bool.false_ne_true
      · exact absurd (hw.symm.trans hwaits) Bool.false_ne_true
    | goes _ _ hwaiting _ _ =>
      refine ⟨fun _ h => (by cases h), fun _ => .inl fun hs => ?_⟩
      have hccs : (c.setMem (M 0)).p.ccs = c.p.ccs := rfl
      rw [PortCtx.SlotWaits, hwaiting, getLsbD_and_not_slotBit, hccs, decide_eq_true rfl,
        Bool.not_true, Bool.and_false] at hs
      cases hs
    | busy hbusy => exact ⟨fun _ h => (by cases h), fun _ => .inr (.inl hbusy)⟩
    | waits hwaits => exact ⟨fun _ h => (by cases h), fun _ => .inr (.inr hwaits)⟩

/-- Port 0, where `value` has been written to its `PxCI`. -/
def ciWritten (s : AhciSys) (value : U32) : PortCtx :=
  { s.dev.lockMtx.ctx 0 with p := { s.dev.port 0 with ci := (s.dev.port 0).ci ||| value } }

/-- The port runs, and three CHECK POWER MODE commands wait: `ahci_handle_port` ends, and its
first visit serves the first of them. -/
theorem ahci_handle_port_ends_served : ∃ c M, AtPortLoop c ∧
    c.p.cmd &&& ahciPCmdST ≠ 0 ∧ c.p.waiting = 7 ∧
    (∃ fuel, ahciHandlePort fuel M c ≠ .error .outOfFuel) ∧
    ∃ t, ahciVisit (c.setMem (M 0)) = .ok t ∧ t.Handled c.p.ccs := by
  have hserved : ((ahciBlank false).execAll 1 (startPort fun _ => commandMem 0xe5#8)).any (fun s =>
      !s.serving && (ciWritten s 7).p.cmd &&& ahciPCmdST != 0 && (ciWritten s 7).p.waiting == 7 &&
      !tfdBusy (ciWritten s 7).p.tfd && !(ciWritten s 7).p.waitforclear && (ciWritten s 7).p.visits &&
      (ahciVisit ((ciWritten s 7).setMem (commandMem 0xe5#8))).toOption.isSome &&
      (List.finRange 32).all fun t => !(ciWritten s 7).p.waiting.getLsbD t ||
        portTurn (ciWritten s 7) t == t &&
          portFate (fun _ => commandMem 0xe5#8) (ciWritten s 7) t != .stays) = true := by
    decide +kernel
  obtain ⟨s, hs, hend⟩ := (Option.any_eq_true _ _).1 hserved
  simp only [Bool.and_eq_true, Bool.not_eq_true', bne_iff_ne, beq_iff_eq, List.all_eq_true,
    Bool.or_eq_true, Option.isSome_iff_exists, Except.toOption_eq_some] at hend
  obtain ⟨⟨⟨⟨⟨⟨⟨hserving, hrun⟩, hwaiting⟩, hidle⟩, hwait⟩, hvisits⟩, t, ht⟩, hfates⟩ := hend
  have hloop : AtPortLoop (ciWritten s 7) := .ci 0 7 (ahciBlank_reaches hs) hserving
  have hends := ahci_handle_port_ends hloop fun _ => commandMem 0xe5#8
  have hserves : ∀ u, (ciWritten s 7).SlotWaits u → ∃ k, portTurn (ciWritten s 7) k = u ∧
      portFate (fun _ => commandMem 0xe5#8) (ciWritten s 7) k ≠ .stays := fun u hu => by
    rcases hfates u (List.mem_finRange u) with hno | hyes
    · exact absurd (hno.symm.trans hu) Bool.false_ne_true
    · exact ⟨u, hyes⟩
  refine ⟨ciWritten s 7, fun _ => commandMem 0xe5#8, hloop, hrun, hwaiting,
    hends.1.2 (.inr (.inr (.inr (.inr hserves)))), t, ht, ?_⟩
  refine (hends.2 hrun hidle hwait hvisits t ht).2 ?_
  rcases hfates 0 (List.mem_finRange 0) with hno | hyes
  · rw [hwaiting] at hno
    exact absurd hno (by decide)
  · exact hyes.2

/-- In a memory full of zeros no slot holds a frame: a slot that waits stays. -/
theorem portFate_zero {c : PortCtx} (hopen : c.p.opened = true) (k : Nat) :
    portFate (fun _ _ => 0) c k = .stays := by
  have hignores : slotEnd (c.setMem fun _ => 0) (portTurn c k) = .ignores := by
    have hframe : (c.setMem fun _ => 0).cfis (slotCfis (c.setMem fun _ => 0) (portTurn c k)) 0 ≠
        fisTypeRegH2D := by
      rw [PortCtx.cfis]
      exact show (0 : U8) ≠ fisTypeRegH2D by decide
    rw [slotEnd, if_pos hframe]
  rw [portFate, if_pos hopen, slotTurn, hignores]

/-- A port runs, its command list is full of zeros, and a command is issued: `ahci_handle_port`
never ends. -/
theorem ahci_handle_port_loops :
    ∃ c, AtPortLoop c ∧ ∃ M, ∀ fuel, ahciHandlePort fuel M c = .error .outOfFuel := by
  have hrun : ((ahciBlank false).execAll 1 (startPort fun _ _ => 0)).any (fun s => !s.serving &&
      (ciWritten s 1).p.opened && (ciWritten s 1).p.cmd &&& ahciPCmdST != 0 &&
      !tfdBusy (ciWritten s 1).p.tfd && !(ciWritten s 1).p.waitforclear &&
      (ciWritten s 1).p.waiting == 1) = true := by
    decide +kernel
  obtain ⟨s, hs, hend⟩ := (Option.any_eq_true _ _).1 hrun
  simp only [Bool.and_eq_true, Bool.not_eq_true', bne_iff_ne, beq_iff_eq] at hend
  obtain ⟨⟨⟨⟨⟨hserving, hopen⟩, hrun⟩, hidle⟩, hwait⟩, hwaiting⟩ := hend
  have hloop : AtPortLoop (ciWritten s 1) := .ci 0 1 (ahciBlank_reaches hs) hserving
  refine ⟨_, hloop, fun _ _ => 0, ?_⟩
  by_contra hends
  simp only [not_forall] at hends
  obtain ⟨fuel, hfuel⟩ := hends
  rw [ahciHandlePort, if_neg hrun] at hfuel
  -- slot 0 waits, and no iteration serves it
  have hend := (ahciPortLoop_ends_iff hloop.walkable hrun hidle hwait _).1 ⟨fuel, hfuel⟩
  rcases exists_endsAt_iff.1 hend with ⟨k, -, hfate⟩ | hserved
  · exact absurd ((portFate_zero hopen k).symm.trans hfate) (by decide)
  · obtain ⟨k, -, hfate⟩ := hserved 0 (by rw [PortCtx.SlotWaits, hwaiting]; decide)
    exact hfate (portFate_zero hopen k)

end DeviceModel
