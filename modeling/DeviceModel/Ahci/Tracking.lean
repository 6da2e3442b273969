import Mathlib.Data.List.NodupEquivFin
import Mathlib.Data.Fintype.Card
import DeviceModel.Block.Queue
import DeviceModel.Ahci.Slots

/-!
# Requests are tracked

A request structure is on the free list or on the busy list; the bits of `pending` are
the slots of the busy ones, and the block interface holds an element for each of those.
So a command finds a free structure, and the block interface a free element: the
assertions on the two never fail.
-/

namespace DeviceModel

/-! ## The invariant -/

/-- The lists of the port, `pd` in the place of `pending`, and the queues of the block
interface agree. `busy` is what the block interface is serving: its request structure
may have been freed already. -/
structure Tracks (pd : U32) (busy : List BlockifElem) (c : PortCtx) : Prop where
  opened : c.p.opened = true
  part : (c.p.iofhd ++ c.p.iobhd).Perm (List.range blockifQueuesz)
  slots : (c.p.iobhd.map fun a => (c.p.ioreq a).slot).Nodup
  bits : ∀ t : Slot, pd.getLsbD t = true ↔ ∃ a ∈ c.p.iobhd, (c.p.ioreq a).slot = t
  queue : QueueOk c.blk.bc c.blk.reqs
  busyq : c.blk.bc.bcBusyq = busy
  queued : (c.blk.bc.bcPendq.map (·.beReq)).Perm c.p.iobhd

/-- The stops of a port function other than the two assertions on what it submits. -/
def IssueSafe (e : Stop) : Prop :=
  e ≠ .assertion "aior != NULL" ∧ e ≠ .assertion "err == 0"

instance (e : Stop) : Decidable (IssueSafe e) := inferInstanceAs (Decidable (_ ∧ _))

namespace Tracks

variable {pd : U32} {busy : List BlockifElem} {c d t : PortCtx} {slot : Slot}

theorem nodup (h : Tracks pd busy c) : (c.p.iofhd ++ c.p.iobhd).Nodup :=
  h.part.nodup_iff.2 List.nodup_range

theorem disjoint (h : Tracks pd busy c) {a : Nat} (ha : a ∈ c.p.iofhd) : a ∉ c.p.iobhd := fun hb =>
  List.disjoint_of_nodup_append h.nodup ha hb

/-- There are more request structures than slots. -/
theorem iobhd_length (h : Tracks pd busy c) : c.p.iobhd.length ≤ 32 := by
  have hlen := h.slots.length_le_card
  rwa [List.length_map, Fintype.card_fin] at hlen

theorem iofhd_ne_nil (h : Tracks pd busy c) : c.p.iofhd ≠ [] := by
  intro hnil
  have hlen := h.part.length_eq
  have hbusy := h.iobhd_length
  rw [hnil, List.nil_append, List.length_range, blockifQueuesz, blockifMaxreq] at hlen
  omega

/-- There are more elements than request structures. -/
theorem freeq_ne_nil (h : Tracks pd busy c) (hbusy : busy.length ≤ 1) :
    c.blk.bc.bcFreeq ≠ [] := by
  intro hnil
  have helems := h.queue.length
  have hpend := h.queued.length_eq
  have hslots := h.iobhd_length
  rw [h.busyq, hnil, List.length_nil, blockifMaxreq] at helems
  rw [List.length_map] at hpend
  omega

/-- One and only one busy request has a slot that is in flight. -/
theorem existsUnique (h : Tracks pd busy c) (t : Slot) :
    pd.getLsbD t = true ↔ ∃! a, a ∈ c.p.iobhd ∧ (c.p.ioreq a).slot = t := by
  rw [h.bits]
  constructor
  · rintro ⟨a, ha, hslot⟩
    refine ⟨a, ⟨ha, hslot⟩, ?_⟩
    rintro b ⟨hb, hslot'⟩
    exact List.inj_on_of_nodup_map h.slots hb ha (hslot'.trans hslot.symm)
  · rintro ⟨a, ha, -⟩
    exact ⟨a, ha⟩

/-! ## What keeps it -/

/-- The invariant reads the lists, the request structures and the queues. -/
theorem congr (h : Tracks pd busy c) (hopen : d.p.opened = c.p.opened)
    (hfree : d.p.iofhd = c.p.iofhd) (hbusy : d.p.iobhd = c.p.iobhd)
    (hioreq : d.p.ioreq = c.p.ioreq) (hbc : d.blk.bc = c.blk.bc) (hreqs : d.blk.reqs = c.blk.reqs) :
    Tracks pd busy d := by
  refine ⟨hopen ▸ h.opened, ?_, ?_, ?_, ?_, ?_, ?_⟩
  · rw [hfree, hbusy]
    exact h.part
  · rw [hbusy, hioreq]
    exact h.slots
  · rw [hbusy, hioreq]
    exact h.bits
  · rw [hbc, hreqs]
    exact h.queue
  · rw [hbc]
    exact h.busyq
  · rw [hbc, hbusy]
    exact h.queued

theorem reports (h : Tracks pd busy c) (hr : Reports c d) : Tracks pd busy d :=
  h.congr hr.opened hr.iofhd hr.iobhd hr.ioreq hr.bc hr.reqs

theorem setMem (h : Tracks pd busy c) (m : Mem) : Tracks pd busy (c.setMem m) :=
  h.congr rfl rfl rfl rfl rfl rfl

theorem checkStopped (h : Tracks pd busy c) :
    Tracks pd busy { c with p := ahciCheckStopped c.p } := by
  rw [ahciCheckStopped]
  split
  · exact h.congr rfl rfl rfl rfl rfl rfl
  · exact h

theorem finished (h : Tracks pd busy c) (slot : Slot) : Tracks pd busy (ahciFinished c slot) := by
  have hclear : Tracks pd busy
      { c with p := { c.p with pending := c.p.pending &&& ~~~slotBit slot } } :=
    h.congr rfl rfl rfl rfl rfl rfl
  exact hclear.checkStopped

/-- Submitting a request for a slot that is not in flight. -/
theorem issued {a : Nat} {aior : AhciIoreq} {breq : BlockifReq} {ncq : Bool} {op : Blockop}
    (h : Tracks pd busy c) (hi : Issued c t slot a aior breq ncq op) (hslot : aior.slot = slot)
    (hclear : pd.getLsbD slot = false) : Tracks (pd ||| slotBit slot) busy t := by
  have ha : a ∉ c.p.iobhd := h.disjoint (by rw [hi.iofhd]; exact List.mem_cons_self)
  have hother : ∀ b ∈ c.p.iobhd, t.p.ioreq b = c.p.ioreq b := by
    intro b hb
    rw [hi.ioreq, Function.update_of_ne]
    rintro rfl
    exact ha hb
  have hself : (t.p.ioreq a).slot = slot := by rw [hi.ioreq, Function.update_self, hslot]
  have hmap : (t.p.iobhd.map fun b => (t.p.ioreq b).slot) =
      slot :: c.p.iobhd.map fun b => (c.p.ioreq b).slot := by
    rw [hi.iobhd, List.map_cons, hself]
    exact congrArg _ (List.map_congr_left fun b hb => by rw [hother b hb])
  obtain ⟨be, rest, hfree, hbc⟩ := hi.bc
  have hpend : t.blk.bc.bcPendq.map (·.beReq) = c.blk.bc.bcPendq.map (·.beReq) ++ [a] := by
    rw [hbc]
    exact List.map_append
  refine ⟨hi.frame.opened.trans h.opened, ?_, ?_, ?_, ?_, ?_, ?_⟩
  · have hpart := h.part
    rw [hi.iofhd] at hpart
    rw [hi.iobhd]
    exact List.perm_middle.trans hpart
  · rw [hmap, List.nodup_cons]
    refine ⟨fun hmem => ?_, h.slots⟩
    obtain ⟨b, hb, hbslot⟩ := List.mem_map.1 hmem
    have hset := (h.bits slot).2 ⟨b, hb, hbslot⟩
    rw [hclear] at hset
    cases hset
  · intro s
    rw [getLsbD_or_slotBit, Bool.or_eq_true, decide_eq_true_eq, h.bits, hi.iobhd]
    constructor
    · rintro (⟨b, hb, hbslot⟩ | rfl)
      · exact ⟨b, List.mem_cons_of_mem a hb, by rw [hother b hb, hbslot]⟩
      · exact ⟨a, List.mem_cons_self, hself⟩
    · rintro ⟨b, hb, hbslot⟩
      rcases List.mem_cons.1 hb with rfl | hb
      · exact .inr (hbslot.symm.trans hself)
      · exact .inl ⟨b, hb, by rw [← hother b hb, hbslot]⟩
  · -- the new structure is not that of a queued element, so the offsets there are the same
    have hsame : ∀ e ∈ c.blk.bc.bcPendq, t.blk.reqs e.beReq = c.blk.reqs e.beReq := by
      intro e he
      rw [hi.reqs, Function.update_of_ne]
      rintro rfl
      exact ha (h.queued.mem_iff.1 (List.mem_map_of_mem he))
    have hqueue : QueueOk c.blk.bc.lockMtx t.blk.reqs :=
      h.queue.congr rfl rfl rfl fun e he => congrArg _ (hsame e he)
    rw [hbc]
    exact (hqueue.enqueue hfree a op).congr rfl rfl rfl fun _ _ => rfl
  · rw [hbc]
    exact h.busyq
  · rw [hpend, hi.iobhd]
    exact (List.perm_append_singleton a _).trans (h.queued.cons a)

/-- A command finds a structure and an element. -/
theorem issue_ok (h : Tracks pd busy c) (hbusy : busy.length ≤ 1) {cfis : U64}
    {fill : BlockifReq → Except Stop (AhciIoreq × BlockifReq)} (hfill : Filling slot cfis fill)
    (hok : (fill ⟨0, 0, []⟩).isOk = true) (ncq : Bool) (op : Blockop) :
    ∃ t a aior breq, ahciIssue c slot fill ncq op = .ok t ∧ Issued c t slot a aior breq ncq op ∧
      aior.slot = slot ∧ aior.cfis = cfis := by
  obtain ⟨a, free, hfree⟩ := List.exists_cons_of_ne_nil h.iofhd_ne_nil
  obtain ⟨be, rest, hbe⟩ := List.exists_cons_of_ne_nil (h.freeq_ne_nil hbusy)
  have hok' : (fill (c.blk.reqs a)).isOk = true := (hfill.uniform _ _).trans hok
  cases hr : fill (c.blk.reqs a) with
  | error e =>
    rw [hr] at hok'
    cases hok'
  | ok r =>
    obtain ⟨aior, breq⟩ := r
    obtain ⟨u, hu, hissued⟩ := @issueCtx_issued c slot ncq op a free aior breq be rest hfree hbe
    obtain ⟨hslot, hcfis⟩ := hfill.isFor _ _ _ hr
    exact ⟨u, a, aior, breq, (ahciIssue_eq hfree hr).trans hu, hissued, hslot, hcfis⟩

/-- A command that cannot be filled in. -/
theorem issue_error (h : Tracks pd busy c) {cfis : U64}
    {fill : BlockifReq → Except Stop (AhciIoreq × BlockifReq)} (hfill : Filling slot cfis fill)
    (hok : (fill ⟨0, 0, []⟩).isOk = false) (ncq : Bool) (op : Blockop) :
    ahciIssue c slot fill ncq op = .error (.assertion "todo > 0") := by
  obtain ⟨a, free, hfree⟩ := List.exists_cons_of_ne_nil h.iofhd_ne_nil
  have hok' : (fill (c.blk.reqs a)).isOk = false := (hfill.uniform _ _).trans hok
  cases hr : fill (c.blk.reqs a) with
  | ok r =>
    rw [hr] at hok'
    cases hok'
  | error e =>
    rw [ahciIssue, ahciTakeIoreq, hfree, ← hfill.stops _ _ hr]
    simp only [bind, Except.bind, hr]

theorem issue (h : Tracks pd busy c) (hbusy : busy.length ≤ 1) (hclear : pd.getLsbD slot = false)
    {cfis : U64} {fill : BlockifReq → Except Stop (AhciIoreq × BlockifReq)}
    (hfill : Filling slot cfis fill) (ncq : Bool) (op : Blockop) :
    Ensures IssueSafe
      (fun t => Tracks (pd ||| slotBit slot) busy t ∧ t.p.pending = c.p.pending ||| slotBit slot)
      (ahciIssue c slot fill ncq op) := by
  cases hok : (fill ⟨0, 0, []⟩).isOk with
  | false =>
    rw [h.issue_error hfill hok ncq op]
    exact Ensures.error (by decide)
  | true =>
    obtain ⟨t, a, aior, breq, ht, hissued, hslot, -⟩ := h.issue_ok hbusy hfill hok ncq op
    rw [ht]
    exact Ensures.ok ⟨h.issued hissued hslot hclear, hissued.pending⟩

end Tracks

/-! ## The loop -/

/-- The invariant between commands. -/
def Tracked (busy : List BlockifElem) (c : PortCtx) : Prop := Tracks c.p.pending busy c

/-- The invariant while the command in `slot` has no request, whatever `pending` says. -/
def TrackedBut (slot : Slot) (busy : List BlockifElem) (c : PortCtx) : Prop :=
  Tracks (c.p.pending &&& ~~~slotBit slot) busy c

section

variable {busy : List BlockifElem} {c d : PortCtx} {slot : Slot}

theorem Tracked.reports (h : Tracked busy c) (hr : Reports c d) : Tracked busy d := by
  rw [Tracked, hr.pending]
  exact Tracks.reports h hr

theorem Tracked.but (h : Tracked busy c) (hclear : c.p.pending.getLsbD slot = false) :
    TrackedBut slot busy c := by
  have hsame : c.p.pending &&& ~~~slotBit slot = c.p.pending := by
    refine slots_ext fun t => ?_
    rw [getLsbD_and_not_slotBit]
    by_cases ht : t = slot
    · rw [ht, hclear, Bool.false_and]
    · rw [decide_eq_false ht, Bool.not_false, Bool.and_true]
  rw [TrackedBut, hsame]
  exact h

namespace TrackedBut

theorem reports (h : TrackedBut slot busy c) (hr : Reports c d) : TrackedBut slot busy d := by
  rw [TrackedBut, hr.pending]
  exact Tracks.reports h hr

/-- The command goes on: it has a request again. -/
theorem issue (h : TrackedBut slot busy c) (hbusy : busy.length ≤ 1) {cfis : U64}
    {fill : BlockifReq → Except Stop (AhciIoreq × BlockifReq)} (hfill : Filling slot cfis fill)
    (ncq : Bool) (op : Blockop) :
    Ensures IssueSafe (Tracked busy) (ahciIssue c slot fill ncq op) := by
  have hclear : (c.p.pending &&& ~~~slotBit slot).getLsbD slot = false := by
    rw [getLsbD_and_not_slotBit, decide_eq_true rfl, Bool.not_true, Bool.and_false]
  have hset : c.p.pending &&& ~~~slotBit slot ||| slotBit slot = c.p.pending ||| slotBit slot := by
    refine slots_ext fun t => ?_
    simp only [getLsbD_or_slotBit, getLsbD_and_not_slotBit]
    cases c.p.pending.getLsbD t <;> cases decide (t = slot) <;> rfl
  refine (Tracks.issue h hbusy hclear hfill ncq op).mono fun t ⟨ht, hpending⟩ => ?_
  rw [Tracked, hpending, ← hset]
  exact ht

/-- The command ends: it is not in flight any more. -/
theorem finished (h : TrackedBut slot busy c) : Tracked busy (ahciFinished c slot) := by
  have hpending : (ahciFinished c slot).p.pending = c.p.pending &&& ~~~slotBit slot := by
    rw [ahciFinished, ahciCheckStopped]
    split <;> rfl
  rw [Tracked, hpending]
  exact Tracks.finished h slot

end TrackedBut

/-- Every command keeps it. -/
theorem EndsWith.tracked {cfis : U64} {e : CmdEnd} {r : Except Stop PortCtx}
    (he : EndsWith c slot cfis e r) (h : Tracked busy c) (hbusy : busy.length ≤ 1)
    (hclear : c.p.pending.getLsbD slot = false) : Ensures IssueSafe (Tracked busy) r := by
  have hbut : TrackedBut slot busy c := h.but hclear
  cases he with
  | fails ha | succeeds ha => exact Ensures.ok (h.reports ha.reports)
  | trims ht => exact Ensures.ok (hbut.reports ht.reports).finished
  | issues hfill _ | aborts hfill _ => exact hbut.issue hbusy hfill _ _
  | readsNothing ha hfill _ => exact (hbut.reports ha.reports).issue hbusy hfill _ _

theorem ahciVisit_tracked (h : Tracked busy c) (hbusy : busy.length ≤ 1) :
    Ensures IssueSafe (Tracked busy) (ahciVisit c) := by
  cases hvisits : c.p.visits with
  | false =>
    rw [ahciVisit_passes hvisits]
    exact h
  | true =>
    have hclear : c.p.pending.getLsbD c.p.ccs = false := by
      rw [AhciPort.visits, AhciPort.getLsbD_waiting, Bool.and_eq_true, Bool.not_eq_true'] at hvisits
      exact hvisits.2
    have hset : Tracked busy { c with p := c.p.setCmdCcs } :=
      Tracks.congr h rfl rfl rfl rfl rfl rfl
    have hends := ahciVisit_ends hvisits h.opened
    generalize ahciVisit c = r at hends ⊢
    generalize slotEnd _ _ = e at hends
    cases hends with
    | ignores => exact hset
    | control hr _ _ _ _ => exact hset.reports hr
    | command he =>
      exact he.tracked (c := cmdCtx _ _ _) (Tracks.congr hset rfl rfl rfl rfl rfl rfl) hbusy hclear

/-- **`ahci_handle_port`** keeps it. -/
theorem ahciPortLoop_tracked (hbusy : busy.length ≤ 1) :
    ∀ (fuel : Nat) (M : Nat → Mem) (c : PortCtx), Tracked busy c →
      Ensures IssueSafe (Tracked busy) (ahciPortLoop fuel M c) := by
  intro fuel
  induction fuel with
  | zero => exact fun _ _ _ => Ensures.error (by decide)
  | succ fuel ih =>
    intro M c h
    rw [ahciPortLoop]
    split
    · exact h
    · split
      · exact h
      · split
        · exact h
        · have hmem : Tracked busy (c.setMem (M 0)) := Tracks.setMem h (M 0)
          refine (ahciVisit_tracked hmem hbusy).bind fun t ht => ih _ _ ?_
          exact Tracks.congr ht rfl rfl rfl rfl rfl rfl

theorem ahciHandlePort_tracked (h : Tracked busy c) (hbusy : busy.length ≤ 1) (fuel : Nat)
    (M : Nat → Mem) : Ensures IssueSafe (Tracked busy) (ahciHandlePort fuel M c) := by
  rw [ahciHandlePort]
  split
  · exact h
  · exact ahciPortLoop_tracked hbusy fuel M c h

end

end DeviceModel
