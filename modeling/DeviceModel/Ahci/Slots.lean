import DeviceModel.Ahci.Issue

/-!
# How a visit to a slot ends

`slotEnd` and `visitEnd` say what `ahci_handle_port` will do with the slot it looks at.
An invariant of the port is checked against the ends, once for each.
-/

namespace DeviceModel

/-- How a call of `ahci_handle_slot` ends. -/
inductive SlotEnd : Type where
  /-- the frame is not a host to device register frame: nothing happens -/
  | ignores
  /-- the frame is not a command -/
  | control
  | command (e : CmdEnd)
  deriving DecidableEq, Repr

/-- The end of a slot. -/
def slotEnd (c : PortCtx) (slot : Slot) : SlotEnd :=
  let cfis := slotCfis c slot
  if c.cfis cfis 0 ≠ fisTypeRegH2D then .ignores
  else if c.cfis cfis 1 &&& 0x80#8 ≠ 0 then .command (cmdEnd (cmdCtx c slot cfis) slot cfis)
  else .control

/-- What an end says of a call of `ahci_handle_slot`. -/
inductive SlotEnds (c : PortCtx) (slot : Slot) : SlotEnd → Except Stop PortCtx → Prop where
  | ignores : SlotEnds c slot .ignores (.ok c)
  | control {d : PortCtx} : Reports c d → d.log = c.log → d.p.ci = c.p.ci &&& ~~~slotBit slot →
      (tfdBusy c.p.tfd = false → tfdBusy d.p.tfd = false) →
      d.p.waitforclear = c.p.waitforclear → SlotEnds c slot .control (.ok d)
  | command {e : CmdEnd} {r : Except Stop PortCtx} :
      EndsWith (cmdCtx c slot (slotCfis c slot)) slot (slotCfis c slot) e r →
      SlotEnds c slot (.command e) r

theorem ahciHandleControl_ends {c : PortCtx} (slot : Slot) (cfis : U64)
    (hopen : c.p.opened = true) : SlotEnds c slot .control (.ok (ahciHandleControl c slot cfis)) := by
  rw [ahciHandleControl]
  split
  · exact .control ⟨.refl c.sc _ _ _, rfl⟩ rfl rfl id rfl
  · split
    · obtain ⟨hrep, hlog, hci, hwait, hbusy⟩ :=
        ahciPortReset_reports { c with p := { c.p with reset := false } }
      refine .control ⟨hrep.posts, hrep.base⟩ hlog ?_ (fun _ => hbusy hopen) hwait
      simp only [hci]
    · exact .control ⟨.refl c.sc _ _ _, rfl⟩ rfl rfl id rfl

/-- **The end of every slot**, on a port that is opened. -/
theorem ahciHandleSlot_ends {c : PortCtx} (slot : Slot) (hopen : c.p.opened = true) :
    SlotEnds c slot (slotEnd c slot) (ahciHandleSlot c slot) := by
  rw [ahciHandleSlot, slotEnd, hopen]
  simp only [Bool.not_true, Bool.false_eq_true, if_false]
  split
  · exact .ignores
  · split
    · exact .command (ahciCmdSwitch_ends _ slot _)
    · exact ahciHandleControl_ends slot _ hopen

/-! ## Visits -/

/-- The slot that `ahci_handle_port` looks at waits. -/
def AhciPort.visits (p : AhciPort) : Bool := p.waiting.getLsbD p.ccs

theorem AhciPort.visits_iff (p : AhciPort) : p.visits = true ↔ p.waiting &&& slotBit p.ccs ≠ 0 := by
  rw [AhciPort.visits]
  constructor
  · intro h hz
    have hbit : (p.waiting &&& slotBit p.ccs).getLsbD p.ccs = true := by
      rw [BitVec.getLsbD_and, getLsbD_slotBit, h, Bool.true_and]
      exact decide_eq_true rfl
    rw [hz] at hbit
    simp at hbit
  · intro hne
    by_contra hclear
    refine hne (slots_ext fun t => ?_)
    have hzero : (0 : U32).getLsbD t = false := BitVec.getLsbD_zero
    rw [BitVec.getLsbD_and, getLsbD_slotBit, hzero]
    by_cases ht : t = p.ccs
    · rw [ht, Bool.eq_false_iff.2 hclear, Bool.false_and]
    · rw [decide_eq_false ht, Bool.and_false]

/-- A slot that waits is issued and not in flight. -/
theorem AhciPort.getLsbD_waiting (p : AhciPort) (t : Slot) :
    p.waiting.getLsbD t = (p.ci.getLsbD t && !p.pending.getLsbD t) := by
  rw [AhciPort.waiting, BitVec.getLsbD_and, BitVec.getLsbD_not, decide_eq_true t.isLt, Bool.true_and]

/-- A visit passes over a slot that does not wait. -/
theorem ahciVisit_passes {c : PortCtx} (h : c.p.visits = false) : ahciVisit c = .ok c := by
  rw [ahciVisit, if_neg]
  intro hne
  rw [(AhciPort.visits_iff c.p).2 hne] at h
  cases h

/-- A visit to a slot that waits. -/
theorem ahciVisit_ends {c : PortCtx} (h : c.p.visits = true) (hopen : c.p.opened = true) :
    SlotEnds { c with p := c.p.setCmdCcs } c.p.ccs
      (slotEnd { c with p := c.p.setCmdCcs } c.p.ccs) (ahciVisit c) := by
  rw [ahciVisit, if_pos ((AhciPort.visits_iff c.p).1 h)]
  exact ahciHandleSlot_ends c.p.ccs hopen

end DeviceModel
