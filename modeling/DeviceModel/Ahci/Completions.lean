import DeviceModel.Ahci.Continuations
import DeviceModel.Ahci.SmallExec

/-!
# Every command completes once

The record of a slot is a run of a small automaton: a command is answered at once, or a
request is submitted for it, and that request is completed or cancelled. The invariant
puts the automaton in step with the requests in flight, and each event of the controller
moves both.
-/

namespace DeviceModel

/-! ## The record of a slot -/

/-- The slot that an event is about. -/
def AhciEvent.slot : AhciEvent → Slot
  | cmd slot _ | d2h slot _ | d2hNcq slot | sdb slot _ | cancel slot => slot

/-- What is on record for slot `t`. -/
def slotEvents (log : List AhciEvent) (t : Slot) : List AhciEvent := log.filter (·.slot = t)

/-- The command in a table is a queued one. -/
def tableNcq (table : List U8) : Bool := ataNcq (table.getD 2 0)

/-- The record of slot `t`, and the table of the command whose request is outstanding. -/
inductive SlotLog (t : Slot) : Option (List U8) → List AhciEvent → Prop where
  | nil : SlotLog t none []
  /-- a command is answered at once, a queued one with an error -/
  | answered {log : List AhciEvent} {table : List U8} (tfd : U32) : SlotLog t none log →
      (tableNcq table = true → tfdError tfd = true) →
      SlotLog t none (log ++ [.cmd t table, .d2h t tfd])
  /-- a request is submitted, and a queued command is acknowledged -/
  | submitted {log : List AhciEvent} (table : List U8) : SlotLog t none log →
      SlotLog t (some table) (log ++ .cmd t table :: if tableNcq table then [.d2hNcq t] else [])
  /-- its last request has been served -/
  | completed {log : List AhciEvent} {table : List U8} (tfd : U32) : SlotLog t (some table) log →
      SlotLog t none (log ++ [if tableNcq table then .sdb t tfd else .d2h t tfd])
  /-- `ahci_port_stop` has cancelled it -/
  | cancelled {log : List AhciEvent} {table : List U8} : SlotLog t (some table) log →
      SlotLog t none (log ++ [.cancel t])

/-- An event hands a command over. -/
def AhciEvent.handed : AhciEvent → Bool
  | cmd _ _ => true
  | _ => false

/-- An event is a terminating status, or the cancellation of a command. -/
def AhciEvent.terminates : AhciEvent → Bool
  | d2h _ _ | sdb _ _ | cancel _ => true
  | _ => false

/-- The table of the last command of a record. -/
def lastTable (log : List AhciEvent) : List U8 :=
  log.foldl (fun table e => match e with | .cmd _ table' => table' | _ => table) []

section

variable {t : Slot} {o : Option (List U8)} {log evs : List AhciEvent}

/-- **One terminating status** for each command that is not outstanding. -/
theorem SlotLog.balanced (h : SlotLog t o log) :
    log.countP AhciEvent.handed = log.countP AhciEvent.terminates + o.toList.length := by
  induction h with
  | nil => rfl
  | answered tfd _ _ ih =>
    simp only [List.countP_append, ih]
    simp [List.countP_cons, AhciEvent.handed, AhciEvent.terminates]
  | submitted table _ ih =>
    simp only [List.countP_append, ih]
    split <;> simp [List.countP_cons, AhciEvent.handed, AhciEvent.terminates]
  | completed tfd _ ih | cancelled _ ih =>
    simp only [List.countP_append, ih]
    repeat' split
    all_goals simp [List.countP_cons, AhciEvent.handed, AhciEvent.terminates]

/-- The command that is outstanding is the last one. -/
theorem SlotLog.lastTable {table : List U8} (h : SlotLog t (some table) log) :
    lastTable log = table := by
  cases h with
  | submitted _ _ =>
    rw [DeviceModel.lastTable, List.foldl_append]
    split <;> rfl

/-- A queued command that is outstanding does not end with a frame of the other kind. -/
theorem SlotLog.not_d2h {table : List U8} (h : SlotLog t (some table) log)
    (hncq : tableNcq table = true) (tfd : U32) : ¬ SlotLog t o (log ++ [.d2h t tfd]) := by
  intro hend
  generalize hevs : log ++ [AhciEvent.d2h t tfd] = evs at hend
  cases hend with
  | nil => exact absurd hevs (by simp)
  | @answered log' table' tfd' hlog' _ =>
    -- the last event of `log` would be `cmd`, and it is the acknowledgement
    have hlast : log = log' ++ [.cmd t table'] := by
      rw [List.append_cons log' _ [_]] at hevs
      exact (List.append_inj' hevs rfl).1
    cases h with
    | submitted _ _ =>
      rw [hncq, if_pos rfl, List.append_cons _ _ [_]] at hlast
      exact absurd (List.append_inj' hlast rfl).2 (by simp)
  | @submitted log' table' hlog' =>
    split at hevs
    · rw [List.append_cons log' _ [_]] at hevs
      exact absurd (List.append_inj' hevs rfl).2 (by simp)
    · exact absurd (List.append_inj' hevs rfl).2 (by simp)
  | @completed log' table' tfd' hlog' =>
    obtain ⟨rfl, hlast⟩ := List.append_inj' hevs rfl
    have htable : table' = table := hlog'.lastTable.symm.trans h.lastTable
    rw [htable, hncq, if_pos rfl] at hlast
    exact absurd hlast (by simp)
  | @cancelled log' table' hlog' => exact absurd (List.append_inj' hevs rfl).2 (by simp)

theorem slotEvents_append (log evs : List AhciEvent) (t : Slot) :
    slotEvents (log ++ evs) t = slotEvents log t ++ slotEvents evs t :=
  List.filter_append log evs

/-- Events of the slot are put on its record. -/
theorem slotEvents_self (hevs : ∀ e ∈ evs, e.slot = t) : slotEvents evs t = evs :=
  List.filter_eq_self.2 fun e he => decide_eq_true (hevs e he)

/-- Events of another slot are not. -/
theorem slotEvents_other {u : Slot} (hevs : ∀ e ∈ evs, e.slot = t) (hu : u ≠ t) :
    slotEvents evs u = [] := by
  refine List.filter_eq_nil_iff.2 fun e he => ?_
  rw [hevs e he, decide_eq_true_eq]
  exact hu.symm

end

/-! ## The invariant -/

/-- A request that is queued is for the last command of its slot. -/
def QueuedFor (v : RequestView) (x : Nat × Blockop) : Prop :=
  ∃ table, SlotLog (v.ioreq x.1).slot (some table) (slotEvents v.log (v.ioreq x.1).slot) ∧
    (v.atapi = false → AtaMore (table.getD 2 0) (v.ioreq x.1) x.2)

/-- The record is in step with the requests of all slots but `t`, which has none. -/
structure RecordedBut (t : Slot) (v : RequestView) : Prop where
  idle : ∀ u : Slot, u ≠ t → v.pending.getLsbD u = false → SlotLog u none (slotEvents v.log u)
  queued : ∀ x ∈ v.queue, (v.ioreq x.1).slot ≠ t ∧ QueuedFor v x

/-- The record is in step with the requests. -/
structure Recorded (v : RequestView) : Prop where
  idle : ∀ u : Slot, v.pending.getLsbD u = false → SlotLog u none (slotEvents v.log u)
  queued : ∀ x ∈ v.queue, QueuedFor v x

/-- Clearing the bit of a slot leaves the others alone. -/
theorem getLsbD_clear_ne (x : U32) {s u : Slot} (hu : u ≠ s) :
    (x &&& ~~~slotBit s).getLsbD u = x.getLsbD u := by
  rw [getLsbD_and_not_slotBit, decide_eq_false hu, Bool.not_false, Bool.and_true]

namespace RecordedBut

variable {t : Slot} {v : RequestView} {evs : List AhciEvent}

/-- What is put on the record of slot `t` is not on that of another. -/
theorem other (hevs : ∀ e ∈ evs, e.slot = t) {u : Slot} (hu : u ≠ t) :
    slotEvents (v.log ++ evs) u = slotEvents v.log u := by
  rw [slotEvents_append, slotEvents_other hevs hu, List.append_nil]

/-- The command in slot `t` is over. -/
theorem ends (h : RecordedBut t v) {pending : U32}
    (hpending : ∀ u : Slot, u ≠ t → pending.getLsbD u = v.pending.getLsbD u)
    (hevs : ∀ e ∈ evs, e.slot = t) (hlog : SlotLog t none (slotEvents v.log t ++ evs)) :
    Recorded { v with pending := pending, log := v.log ++ evs } where
  idle := by
    intro u hclear
    by_cases hu : u = t
    · rw [hu, slotEvents_append, slotEvents_self hevs]
      exact hlog
    · rw [other hevs hu]
      apply h.idle u hu
      rw [← hpending u hu]
      exact hclear
  queued := by
    intro x hx
    obtain ⟨hne, table, hslot, hmore⟩ := h.queued x hx
    refine ⟨table, ?_, hmore⟩
    rw [other hevs hne]
    exact hslot

/-- A request is submitted for it. -/
theorem submitted (h : RecordedBut t v) {a : Nat} {aior : AhciIoreq} {op : Blockop}
    {table : List U8} (iobhd : List Nat) (ha : ∀ x ∈ v.queue, x.1 ≠ a) (hslot : aior.slot = t)
    (hevs : ∀ e ∈ evs, e.slot = t) (hlog : SlotLog t (some table) (slotEvents v.log t ++ evs))
    (hmore : v.atapi = false → AtaMore (table.getD 2 0) aior op) :
    Recorded { v with
      pending := v.pending ||| slotBit t
      ioreq := Function.update v.ioreq a aior
      iobhd := iobhd
      queue := v.queue ++ [(a, op)]
      log := v.log ++ evs } where
  idle := by
    intro u hclear
    rw [getLsbD_or_slotBit, Bool.or_eq_false_iff, decide_eq_false_iff_not] at hclear
    obtain ⟨hclear, hu⟩ := hclear
    rw [other hevs hu]
    exact h.idle u hu hclear
  queued := by
    intro x hx
    rcases List.mem_append.1 hx with hold | hnew
    · obtain ⟨hne, table', hslot', hmore'⟩ := h.queued x hold
      refine ⟨table', ?_, ?_⟩
      · simp only [Function.update_of_ne (ha x hold)]
        rw [other hevs hne]
        exact hslot'
      · simp only [Function.update_of_ne (ha x hold)]
        exact hmore'
    · rw [List.mem_singleton.1 hnew]
      refine ⟨table, ?_, ?_⟩
      · simp only [Function.update_self, hslot]
        rw [slotEvents_append, slotEvents_self hevs]
        exact hlog
      · simp only [Function.update_self]
        exact hmore

end RecordedBut

section

variable {c d t : PortCtx} {slot : Slot} {pd : U32} {busy : List BlockifElem}

/-- The slots of the queued requests are in flight. -/
theorem Tracks.queued_slot (h : Tracks pd busy c) {x : Nat × Blockop} (hx : x ∈ c.view.queue) :
    pd.getLsbD (c.p.ioreq x.1).slot = true := by
  obtain ⟨be, hbe, heq⟩ := List.mem_map.1 hx
  refine (h.bits _).2 ⟨x.1, h.queued.mem_iff.1 ?_, rfl⟩
  rw [← heq]
  exact List.mem_map_of_mem hbe

/-- Their slots differ. -/
theorem Tracks.queued_nodup (h : Tracks pd busy c) :
    (c.view.queue.map fun x => (c.p.ioreq x.1).slot).Nodup := by
  have hperm := (h.queued.map fun a => (c.p.ioreq a).slot).nodup_iff.2 h.slots
  rw [List.map_map] at hperm
  have hmap : (c.view.queue.map fun x => (c.p.ioreq x.1).slot) =
      c.blk.bc.bcPendq.map ((fun a => (c.p.ioreq a).slot) ∘ (·.beReq)) := by
    rw [PortCtx.view, queueOps, List.map_map]
    rfl
  rw [hmap]
  exact hperm

/-- A slot that is not in flight has no request. -/
theorem Recorded.but (h : Recorded c.view) (htracked : Tracked busy c)
    (hclear : c.p.pending.getLsbD slot = false) : RecordedBut slot c.view where
  idle := fun u _ hu => h.idle u hu
  queued := by
    intro x hx
    refine ⟨?_, h.queued x hx⟩
    rintro rfl
    have hset := Tracks.queued_slot htracked hx
    exact Bool.false_ne_true (hclear.symm.trans hset)

/-- Nor has one whose request is taken off the queue. -/
theorem Recorded.taken {v : RequestView} (h : Recorded v) {l r : List (Nat × Blockop)}
    {x : Nat × Blockop} (hqueue : v.queue = l ++ x :: r)
    (hnodup : (v.queue.map fun x => (v.ioreq x.1).slot).Nodup) (iobhd : List Nat) :
    RecordedBut (v.ioreq x.1).slot { v with iobhd := iobhd, queue := l ++ r } where
  idle := fun u _ hu => h.idle u hu
  queued := by
    intro y hy
    have hmem : y ∈ v.queue := by
      rw [hqueue]
      rcases List.mem_append.1 hy with hl | hr
      · exact List.mem_append_left _ hl
      · exact List.mem_append_right _ (List.mem_cons_of_mem _ hr)
    refine ⟨fun heq => ?_, h.queued y hmem⟩
    rw [hqueue] at hnodup
    have hcons := (List.perm_middle.map fun y : Nat × Blockop => (v.ioreq y.1).slot).nodup_iff.1 hnodup
    rw [List.map_cons, List.nodup_cons, ← heq] at hcons
    exact hcons.1 (List.mem_map_of_mem hy)

end

/-! ## Commands -/

/-- What the end of a command says of whether it is a queued one. -/
def CmdEnd.Suits (ncq : Bool) : CmdEnd → Prop
  | succeeds => ncq = false
  | trims ncq' | issues ncq' => ncq' = ncq
  | fails | readsNothing | aborts => True

/-- The cases with one code that the ends of commands look at again. -/
theorem ataCmd_code : ∀ cmd : U8, (ataCmd cmd = .dataSetManagement → cmd = 0x06#8) ∧
    (ataCmd cmd = .sendFpdmaQueued → cmd = 0x64#8) ∧ (ataCmd cmd = .packetCmd → cmd = 0xa0#8) := by
  decide +kernel

/-- The queued commands are READ, WRITE and SEND FPDMA QUEUED. -/
theorem ataNcq_eq_false {cmd : U8} (hrw : ataCmd cmd ≠ .rw) (hsend : ataCmd cmd ≠ .sendFpdmaQueued) :
    ataNcq cmd = false := by
  rw [ataNcq]
  by_contra h
  rw [Bool.not_eq_false, Bool.or_eq_true, Bool.or_eq_true, beq_iff_eq, beq_iff_eq, beq_iff_eq] at h
  rcases h with (rfl | rfl) | rfl
  · exact hrw rfl
  · exact hrw rfl
  · exact hsend rfl

theorem ataNcq_rw {cmd : U8} (h : ataCmd cmd = .rw) : ataNcq cmd = ataRwFpdma cmd := by
  have hsend : cmd ≠ 0x64#8 := ne_of_apply_ne ataCmd (by rw [h]; decide)
  rw [ataNcq, beq_eq_false_iff_ne.2 hsend, Bool.or_false, ataRwFpdma]

theorem answerEnd_suits (err : Bool) : (answerEnd err).Suits false := by
  cases err with
  | true => exact trivial
  | false => rfl

theorem fillEnd_suits (fill : BlockifReq → Except Stop (AhciIoreq × BlockifReq)) (ncq : Bool) :
    (fillEnd fill ncq).Suits ncq := by
  rw [fillEnd]
  split
  · rfl
  · exact trivial

section

variable {c : PortCtx} {slot : Slot} {cfis : U64}

theorem trimEnd_suits {ncq : Bool} (h : ahciTrimNcq c cfis = ncq) :
    (trimEnd c slot cfis).Suits ncq := by
  rw [trimEnd]
  split
  · exact h
  · exact h
  · exact trivial

theorem packetEnd_suits : (packetEnd c slot cfis).Suits false := by
  rw [packetEnd]
  split
  case h_1 | h_2 | h_3 | h_4 | h_5 => rfl
  case h_8 =>
    split
    · exact trivial
    · exact fillEnd_suits _ false
  case h_12 => exact trivial
  all_goals exact answerEnd_suits _

/-- **Every command** ends as its kind says. -/
theorem cmdEnd_suits (c : PortCtx) (slot : Slot) (cfis : U64) :
    (cmdEnd c slot cfis).Suits (ataNcq (c.cfis cfis 2)) := by
  cases hcmd : ataCmd (c.cfis cfis 2) with
  | rw =>
    rw [cmdEnd, hcmd, ataNcq_rw hcmd]
    exact fillEnd_suits _ _
  | sendFpdmaQueued =>
    have hncq : ahciTrimNcq c cfis = ataNcq (c.cfis cfis 2) := by
      rw [ahciTrimNcq, (ataCmd_code _).2.1 hcmd]
      rfl
    rw [cmdEnd, hcmd]
    simp only []
    split
    · exact trimEnd_suits hncq
    · exact trivial
  | dataSetManagement =>
    have hncq : ahciTrimNcq c cfis = ataNcq (c.cfis cfis 2) := by
      rw [ahciTrimNcq, (ataCmd_code _).1 hcmd]
      rfl
    rw [cmdEnd, hcmd]
    simp only []
    split
    · exact trimEnd_suits hncq
    · exact trivial
  | packetCmd =>
    have hncq : ataNcq (c.cfis cfis 2) = false := by
      apply ataNcq_eq_false <;> simp [hcmd]
    rw [cmdEnd, hcmd, hncq]
    simp only []
    split
    · exact trivial
    · exact packetEnd_suits
  | ataIdentify | setfeatures | setMulti | readLog | atapiIdentify =>
    have hncq : ataNcq (c.cfis cfis 2) = false := by
      apply ataNcq_eq_false <;> simp [hcmd]
    rw [cmdEnd, hcmd, hncq]
    exact answerEnd_suits _
  | flushcache | checkPowerMode | standby =>
    have hncq : ataNcq (c.cfis cfis 2) = false := by
      apply ataNcq_eq_false <;> simp [hcmd]
    rw [cmdEnd, hcmd, hncq]
    rfl
  | securityFreezeLock | unsupported =>
    rw [cmdEnd, hcmd]
    exact trivial

theorem answerEnd_ne (err : Bool) : answerEnd err ≠ .readsNothing := by
  cases err <;> simp [answerEnd]

theorem fillEnd_ne (fill : BlockifReq → Except Stop (AhciIoreq × BlockifReq)) (ncq : Bool) :
    fillEnd fill ncq ≠ .readsNothing := by
  rw [fillEnd]
  split <;> simp

theorem trimEnd_ne : trimEnd c slot cfis ≠ .readsNothing := by
  rw [trimEnd]
  split <;> simp

/-- What is read by a packet command that reads nothing. -/
theorem packetEnd_readsNothing (h : packetEnd c slot cfis = .readsNothing) :
    scsiCmd (acmd c cfis 0) = .read ∧ atapiReadLen c cfis = 0 := by
  cases hcmd : scsiCmd (acmd c cfis 0) with
  | read =>
    rw [packetEnd, hcmd] at h
    simp only [] at h
    split at h
    · next hlen => exact ⟨rfl, hlen⟩
    · exact absurd h (fillEnd_ne _ _)
  | inquiry | readToc | startStopUnit | modeSense | getEventStatusNotification =>
    rw [packetEnd, hcmd] at h
    exact absurd h (answerEnd_ne _)
  | testUnitReady | readCapacity | preventAllow | reportLuns | requestSense | other =>
    rw [packetEnd, hcmd] at h
    cases h

/-- Only a packet command reads nothing. -/
theorem cmdEnd_readsNothing (h : cmdEnd c slot cfis = .readsNothing) :
    c.p.atapi = true ∧ c.cfis cfis 2 = 0xa0#8 ∧ scsiCmd (acmd c cfis 0) = .read ∧
      atapiReadLen c cfis = 0 := by
  cases hcmd : ataCmd (c.cfis cfis 2) with
  | packetCmd =>
    rw [cmdEnd, hcmd] at h
    simp only [] at h
    split at h
    · cases h
    · next hport =>
      have hatapi : c.p.atapi = true := by simpa using hport
      exact ⟨hatapi, (ataCmd_code _).2.2 hcmd, packetEnd_readsNothing h⟩
  | rw =>
    rw [cmdEnd, hcmd] at h
    exact absurd h (fillEnd_ne _ _)
  | dataSetManagement | sendFpdmaQueued =>
    rw [cmdEnd, hcmd] at h
    simp only [] at h
    split at h
    · exact absurd h trimEnd_ne
    · cases h
  | ataIdentify | setfeatures | setMulti | readLog | atapiIdentify =>
    rw [cmdEnd, hcmd] at h
    exact absurd h (answerEnd_ne _)
  | flushcache | checkPowerMode | standby | securityFreezeLock | unsupported =>
    rw [cmdEnd, hcmd] at h
    cases h

/-! ## What a command leaves -/

/-- The request that a handler has submitted is what it adds. -/
theorem Adds.of_issued {Q : AhciIoreq → Blockop → Prop} {t : PortCtx} {a : Nat} {aior : AhciIoreq}
    {breq : BlockifReq} {ncq : Bool} {op : Blockop} (h : Adds Q c t)
    (hissued : Issued c t slot a aior breq ncq op) : Q aior op := by
  have hqueue : t.view.queue = c.view.queue ++ [(a, op)] := by
    have hview := congrArg RequestView.queue hissued.view
    exact hview
  cases h with
  | keeps hsame _ =>
    rw [hsame] at hqueue
    have hlen := congrArg List.length hqueue
    simp at hlen
  | adds _ hqueue' hioreq hq =>
    rw [hqueue] at hqueue'
    cases List.append_cancel_left hqueue'
    have haior := congrFun (hissued.ioreq.symm.trans hioreq) a
    rw [Function.update_self, Function.update_self] at haior
    rw [haior]
    exact hq

/-- A request is submitted after `evs` has been put on record. -/
theorem Issued.recorded {t : PortCtx} {a : Nat} {aior : AhciIoreq} {breq : BlockifReq} {ncq : Bool}
    {op : Blockop} {pd : U32} {busy : List BlockifElem} {v : RequestView} {evs : List AhciEvent}
    {table : List U8} (hissued : Issued c t slot a aior breq ncq op) (htracked : Tracks pd busy c)
    (hview : c.view = { v with log := v.log ++ evs }) (hevs : ∀ e ∈ evs, e.slot = slot)
    (hbut : RecordedBut slot v) (hslot : aior.slot = slot)
    (hlog : SlotLog slot (some table)
      (slotEvents v.log slot ++ (evs ++ if ncq then [.d2hNcq slot] else [])))
    (hmore : v.atapi = false → AtaMore (table.getD 2 0) aior op) : Recorded t.view := by
  have ha : a ∈ c.p.iofhd := by
    rw [hissued.iofhd]
    exact List.mem_cons_self
  have hfresh : ∀ x ∈ v.queue, x.1 ≠ a := by
    intro x hx
    refine htracked.queue_ne ha ?_
    rw [hview]
    exact hx
  have hall : ∀ e ∈ evs ++ if ncq then [AhciEvent.d2hNcq slot] else [], e.slot = slot := by
    intro e he
    rcases List.mem_append.1 he with hold | hnew
    · exact hevs e hold
    · cases ncq with
      | true =>
        rw [List.mem_singleton.1 hnew]
        rfl
      | false => exact absurd hnew List.not_mem_nil
  have hnext := hbut.submitted (a :: c.p.iobhd) hfresh hslot hall hlog hmore
  have hpending : c.p.pending = v.pending := congrArg RequestView.pending hview
  have hioreq : c.p.ioreq = v.ioreq := congrArg RequestView.ioreq hview
  have hlogc : c.log = v.log ++ evs := congrArg RequestView.log hview
  rw [hissued.view, hview, hpending, hioreq, hlogc, List.append_assoc]
  exact hnext

/-- **A command** puts its slot's record and its requests in step again. -/
theorem EndsWith.recorded {e : CmdEnd} {r : Except Stop PortCtx} {pd : U32}
    {busy : List BlockifElem} {v : RequestView} {table : List U8} (he : EndsWith c slot cfis e r)
    (htracked : Tracks pd busy c) (hview : c.view = { v with log := v.log ++ [.cmd slot table] })
    (hbut : RecordedBut slot v) (hlog : SlotLog slot none (slotEvents v.log slot))
    (hsuits : e.Suits (tableNcq table)) (hne : e ≠ .readsNothing)
    (hadds : v.atapi = false → IfReturns (Adds (AtaMore (table.getD 2 0)) c) r) :
    IfReturns (fun t => Recorded t.view) r := by
  have hlogc : c.log = v.log ++ [.cmd slot table] := congrArg RequestView.log hview
  -- a command that is over at once
  have hover : ∀ {d : PortCtx} {pending : U32} {evs : List AhciEvent}, Reports c d →
      d.log = c.log ++ evs → (∀ e ∈ evs, e.slot = slot) →
      (∀ u : Slot, u ≠ slot → pending.getLsbD u = v.pending.getLsbD u) →
      SlotLog slot none (slotEvents v.log slot ++ (.cmd slot table :: evs)) →
      Recorded { d.view with pending := pending } := by
    intro d pending evs hrep hd hevs hpending hslotlog
    have hall : ∀ e ∈ AhciEvent.cmd slot table :: evs, e.slot = slot := by
      intro e he
      rcases List.mem_cons.1 he with rfl | he
      · rfl
      · exact hevs e he
    rw [hrep.view_log, hview, hd, hlogc, List.append_assoc]
    exact hbut.ends hpending hall hslotlog
  have hanswer : ∀ {d : PortCtx} {err : Bool}, Answers c d slot err →
      (tableNcq table = true → err = true) → Recorded d.view := by
    intro d err ha herr
    obtain ⟨tfd, hd, htfd⟩ := ha.log
    have hpending : d.view.pending = v.pending :=
      ha.reports.pending.trans (congrArg RequestView.pending hview)
    have hrec := hover ha.reports hd (by simp [AhciEvent.slot]) (fun _ _ => rfl)
      (.answered tfd hlog fun hq => htfd.trans (herr hq))
    rw [← hpending] at hrec
    exact hrec
  cases he with
  | fails ha => exact hanswer ha fun _ => rfl
  | succeeds ha =>
    refine hanswer ha fun hq => ?_
    have hplain : tableNcq table = false := hsuits
    rw [hplain] at hq
    cases hq
  | @trims d ncq ht =>
    have hq : ncq = tableNcq table := hsuits
    have hpending : d.p.pending = v.pending :=
      ht.reports.pending.trans (congrArg RequestView.pending hview)
    have hclear : ∀ u : Slot, u ≠ slot →
        (d.p.pending &&& ~~~slotBit slot).getLsbD u = v.pending.getLsbD u := by
      intro u hu
      rw [getLsbD_clear_ne _ hu, hpending]
    have hrec : Recorded { d.view with pending := d.p.pending &&& ~~~slotBit slot } := by
      refine hover ht.reports ht.log ?_ hclear ?_
      · cases ncq <;> simp [AhciEvent.slot]
      · cases ncq with
        | false =>
          refine .answered ataOk hlog fun h => ?_
          rw [← hq] at h
          cases h
        | true =>
          have hdone := (SlotLog.submitted table hlog).completed ataOk
          rw [← hq] at hdone
          simpa using hdone
    refine Ensures.ok ?_
    rw [ahciFinished_view]
    exact hrec
  | @issues fill ncq op hfill _ =>
    have hq : ncq = tableNcq table := hsuits
    rw [ifReturns_iff] at hadds ⊢
    intro t ht
    obtain ⟨a, free, aior, breq, breq', -, hok, hissued⟩ := ahciIssue_issued ht
    have hslotlog : SlotLog slot (some table)
        (slotEvents v.log slot ++ ([.cmd slot table] ++ if ncq then [.d2hNcq slot] else [])) := by
      rw [hq]
      exact .submitted table hlog
    exact hissued.recorded htracked hview (by simp [AhciEvent.slot]) hbut
      (hfill.isFor _ _ _ hok).1 hslotlog fun hdisk => (hadds hdisk t ht).of_issued hissued
  | readsNothing => exact absurd rfl hne
  | aborts hfill hstop =>
    rw [ifReturns_iff]
    intro t ht
    obtain ⟨a, free, aior, breq, breq', -, hok, -⟩ := ahciIssue_issued ht
    have huniform := hfill.uniform breq ⟨0, 0, []⟩
    rw [hok, hstop] at huniform
    cases huniform

end

/-! ## Visits -/

/-- `ahci_handle_port` looks at a slot with a packet command that reads nothing. -/
structure EmptyRead (c : PortCtx) : Prop where
  waits : c.p.visits = true
  frame : c.cfis (slotCfis c c.p.ccs) 0 = fisTypeRegH2D
  command : c.cfis (slotCfis c c.p.ccs) 1 &&& 0x80#8 ≠ 0
  atapi : c.p.atapi = true
  packet : c.cfis (slotCfis c c.p.ccs) 2 = 0xa0#8
  read : scsiCmd (acmd c (slotCfis c c.p.ccs) 0) = .read
  empty : atapiReadLen c (slotCfis c c.p.ccs) = 0

theorem Mem.getD_readBytes (m : Mem) (a : U64) {n i : Nat} (h : i < n) :
    (m.readBytes a n).getD i 0 = m (a + BitVec.ofNat 64 i) := by
  simp [Mem.readBytes, h]

section

variable {c : PortCtx} {busy : List BlockifElem}

/-- **A visit** keeps record and requests in step. -/
theorem ahciVisit_recorded (h : Recorded c.view) (htracked : Tracked busy c)
    (hvisits : c.p.visits = true) (hno : ¬ EmptyRead c) (hsectsz : c.blk.bc.bcSectsz = 512) :
    IfReturns (fun t => Recorded t.view) (ahciVisit c) := by
  have hopen : c.p.setCmdCcs.opened = true := htracked.opened
  have hclear : c.p.pending.getLsbD c.p.ccs = false := by
    rw [AhciPort.visits, AhciPort.getLsbD_waiting] at hvisits
    simpa using (Bool.and_eq_true_iff.1 hvisits).2
  rw [ahciVisit, if_pos ((AhciPort.visits_iff c.p).1 hvisits), ahciHandleSlot]
  simp only [hopen, Bool.not_true, Bool.false_eq_true, if_false]
  split
  · exact Ensures.ok h
  · next hframe =>
    split
    · next hcommand =>
      have hends := ahciCmdSwitch_ends (cmdCtx { c with p := c.p.setCmdCcs } c.p.ccs
        (slotCfis { c with p := c.p.setCmdCcs } c.p.ccs)) c.p.ccs
        (slotCfis { c with p := c.p.setCmdCcs } c.p.ccs)
      have hsuits := cmdEnd_suits (cmdCtx { c with p := c.p.setCmdCcs } c.p.ccs
        (slotCfis { c with p := c.p.setCmdCcs } c.p.ccs)) c.p.ccs
        (slotCfis { c with p := c.p.setCmdCcs } c.p.ccs)
      have hcmd : (c.mem.readBytes (slotCfis c c.p.ccs) 0x80).getD 2 0 =
          c.cfis (slotCfis c c.p.ccs) 2 := Mem.getD_readBytes _ _ (by simp)
      have hctx : Tracked busy (cmdCtx { c with p := c.p.setCmdCcs } c.p.ccs
          (slotCfis { c with p := c.p.setCmdCcs } c.p.ccs)) :=
        Tracks.congr htracked rfl rfl rfl rfl rfl rfl
      refine @EndsWith.recorded _ _ _ _ _ _ busy c.view
        (c.mem.readBytes (slotCfis c c.p.ccs) 0x80) hends hctx rfl (h.but htracked hclear)
        (h.idle _ hclear) ?_ ?_ ?_
      · rw [tableNcq, hcmd]
        exact hsuits
      · intro hnothing
        obtain ⟨hatapi, hpacket, hread, hempty⟩ := cmdEnd_readsNothing hnothing
        exact hno ⟨hvisits, not_not.1 hframe, hcommand, hatapi, hpacket, hread, hempty⟩
      · intro hdisk
        rw [hcmd]
        exact ahciCmdSwitch_adds hdisk hsectsz
    · have hcontrol := @ahciHandleControl_ends { c with p := c.p.setCmdCcs } c.p.ccs
        (slotCfis { c with p := c.p.setCmdCcs } c.p.ccs) hopen
      cases hcontrol with
      | control hrep hlog _ _ _ =>
        refine Ensures.ok ?_
        rw [hrep.view hlog]
        exact h

end

/-! ## Callbacks -/

/-- The callback of request `a`, on an ATAPI port, goes on with a read of length zero, or ends a
queued command. -/
def AtapiSlip (c : PortCtx) (a : Nat) (err : Errno) : Prop :=
  c.p.atapi = true ∧
    if err = .zero ∧ (c.p.ioreq a).more = true then
      atapiReadLen (callbackCtx c a err) (c.p.ioreq a).cfis = 0
    else ataNcq (c.cfis (c.p.ioreq a).cfis 2) = true

section

variable {c : PortCtx} {a : Nat} {err : Errno} {pd : U32} {busy : List BlockifElem}
  {table : List U8}

/-- A request is submitted for a command that goes on. -/
theorem Issued.recorded_again {d t : PortCtx} {slot : Slot} {b : Nat} {aior : AhciIoreq}
    {breq : BlockifReq} {op : Blockop} (hissued : Issued d t slot b aior breq false op)
    (htracked : Tracks pd busy d) (hbut : RecordedBut slot d.view) (hslot : aior.slot = slot)
    (hlog : SlotLog slot (some table) (slotEvents d.log slot))
    (hmore : d.p.atapi = false → AtaMore (table.getD 2 0) aior op) : Recorded t.view := by
  have hslotlog : SlotLog slot (some table) (slotEvents d.log slot ++ ([] ++ [])) := by
    rw [List.append_nil, List.append_nil]
    exact hlog
  have hview : d.view = { d.view with log := d.log ++ [] } := by
    rw [List.append_nil]
    rfl
  exact hissued.recorded htracked hview (by simp) hbut hslot hslotlog hmore

/-- **A callback** keeps record and requests in step, where the table is that of the command. -/
theorem ahciIoreqBody_recorded (htracked : Tracks pd busy (callbackCtx c a err))
    (hbut : RecordedBut (c.p.ioreq a).slot (callbackCtx c a err).view)
    (hlog : SlotLog (c.p.ioreq a).slot (some table) (slotEvents c.log (c.p.ioreq a).slot))
    (htable : table.getD 2 0 = c.cfis (c.p.ioreq a).cfis 2)
    (hmore : c.p.atapi = false → err = .zero → (c.p.ioreq a).more = true →
      ataCmd (table.getD 2 0) = .rw ∧ 512 ≤ (c.p.ioreq a).done.toNat ∧
        (c.p.ioreq a).done.toNat < 2 ^ 25)
    (hno : ¬ AtapiSlip c a err) (hsectsz : c.blk.bc.bcSectsz = 512) :
    IfReturns (fun r => Recorded r.1.view) (ahciIoreqBody c a err) := by
  have hview := ahciSetPrdbc_view (ahciReap c a) (c.p.ioreq a) err
  have hctx : ahciSetPrdbc (ahciReap c a) (c.p.ioreq a) err = callbackCtx c a err := rfl
  have hlogd : (callbackCtx c a err).log = c.log := congrArg RequestView.log hview
  have hatapid : (callbackCtx c a err).p.atapi = c.p.atapi := congrArg RequestView.atapi hview
  rw [← hlogd] at hlog
  by_cases hgoes : err = .zero ∧ (c.p.ioreq a).more = true
  · cases hport : c.p.atapi with
    | true =>
      have hlen : ¬ atapiReadLen (callbackCtx c a err) (c.p.ioreq a).cfis = 0 := by
        intro hzero
        refine hno ⟨hport, ?_⟩
        rw [if_pos hgoes]
        exact hzero
      rw [ahciIoreqBody, if_pos hport, atapiIoreqBody]
      simp only [hctx, if_pos hgoes, atapiRead, if_neg hlen]
      refine Ensures.map (P := fun t => Recorded t.view) (ifReturns_iff.2 fun t ht => ?_) fun t ht => ht
      obtain ⟨b, free, aior, breq, breq', -, hok, hissued⟩ := ahciIssue_issued ht
      refine hissued.recorded_again htracked hbut ?_ hlog fun hdisk => ?_
      · exact ((atapiReadFill_filling _ _ _ _ _ _).isFor _ _ _ hok).1
      · rw [hatapid, hport] at hdisk
        cases hdisk
    | false =>
      obtain ⟨hrw, hstarted, hsmall⟩ := hmore hport hgoes.1 hgoes.2
      have hdsm : ataDsm c (c.p.ioreq a).cfis = false := by
        rw [htable] at hrw
        exact ataDsm_eq_false hrw
      have hdone : ((c.p.ioreq a).done == 0) = false := by
        rw [beq_eq_false_iff_ne]
        intro hzero
        rw [hzero] at hstarted
        simp at hstarted
      have hsectsz' : (callbackCtx c a err).blk.bc.bcSectsz = 512 := by
        have hdisk := congrArg (·.disk.bcSectsz) hview
        exact hdisk.trans hsectsz
      have hadds := @ahciHandleRw_adds (callbackCtx c a err) (c.p.ioreq a).slot
        (c.p.ioreq a).cfis _ hsectsz' hsmall
      rw [ahciIoreqBody, if_neg (by simp [hport]), ataIoreqBody]
      simp only [hctx, if_pos hgoes, hdsm, Bool.false_eq_true, if_false]
      refine Ensures.map (P := fun t => Recorded t.view) (ifReturns_iff.2 fun t ht => ?_) fun t ht => ht
      have hrwmore := hadds.of_ok ht
      rw [ahciHandleRw, hdone, Bool.and_false] at ht
      obtain ⟨b, free, aior, breq, breq', -, hok, hissued⟩ := ahciIssue_issued ht
      refine hissued.recorded_again htracked hbut ?_ hlog fun _ h => ?_
      · exact ((ahciRwFill_filling _ _ _ _).isFor _ _ _ hok).1
      · exact .inr ⟨hrw, hrwmore.of_issued hissued h⟩
  · -- the last request: the command's status is written
    have hncq : (!c.p.atapi && ataNcq (c.cfis (c.p.ioreq a).cfis 2)) = tableNcq table := by
      rw [tableNcq, htable]
      cases hport : c.p.atapi with
      | false => rfl
      | true =>
        rw [Bool.not_true, Bool.false_and]
        refine (Bool.eq_false_iff.2 fun hq => hno ⟨hport, ?_⟩).symm
        rw [if_neg hgoes]
        exact hq
    have hends := ahciIoreqBody_resumes c a err
    rw [callbackEnd] at hends
    simp only [if_neg hgoes, hncq] at hends
    generalize ahciIoreqBody c a err = r at hends ⊢
    cases hends with
    | @ends d _ tfd hrep hd =>
      refine Ensures.ok ?_
      have hpending : d.p.pending = (callbackCtx c a err).p.pending := hrep.pending
      have hclear : ∀ u : Slot, u ≠ (c.p.ioreq a).slot →
          (d.p.pending &&& ~~~slotBit (c.p.ioreq a).slot).getLsbD u =
            (callbackCtx c a err).view.pending.getLsbD u := by
        intro u hu
        rw [getLsbD_clear_ne _ hu, hpending]
        rfl
      have hrec := hbut.ends hclear (by split <;> simp [AhciEvent.slot]) (hlog.completed tfd)
      rw [ahciFinished_view, hrep.view_log, hd]
      exact hrec

end

/-! ## Slips -/

/-- Each command that was handed over for slot `t` has got its one terminating status, or was
cancelled, but for one whose request is queued. -/
def RequestView.Completes (v : RequestView) (t : Slot) : Prop :=
  ∃ o, SlotLog t o (slotEvents v.log t) ∧
    (o.isSome = true ↔ ∃ x ∈ v.queue, (v.ioreq x.1).slot = t)

/-- A slot with a status for every command has no request. -/
theorem RequestView.not_completes {v : RequestView} {t : Slot} {x : Nat × Blockop}
    (hx : x ∈ v.queue) (hslot : (v.ioreq x.1).slot = t)
    (hbalance : (slotEvents v.log t).countP AhciEvent.handed =
      (slotEvents v.log t).countP AhciEvent.terminates) : ¬ v.Completes t := by
  rintro ⟨o, hlog, hiff⟩
  have hsome := hiff.2 ⟨x, hx, hslot⟩
  obtain ⟨table, rfl⟩ := Option.isSome_iff_exists.1 hsome
  have hbalanced := hlog.balanced
  rw [hbalance] at hbalanced
  simp at hbalanced

section

variable {c d : PortCtx} {slot : Slot} {cfis : U64}

/-- A command is answered, and goes on with a request all the same. -/
theorem ahciIssue_slips {fill : BlockifReq → Except Stop (AhciIoreq × BlockifReq)}
    (hfill : Filling slot cfis fill) (op : Blockop)
    (hbalance : (slotEvents d.log slot).countP AhciEvent.handed =
      (slotEvents d.log slot).countP AhciEvent.terminates) :
    IfReturns (fun t => ¬ t.view.Completes slot) (ahciIssue d slot fill false op) := by
  rw [ifReturns_iff]
  intro t ht
  obtain ⟨a, free, aior, breq, breq', -, hok, hissued⟩ := ahciIssue_issued ht
  have hslot : aior.slot = slot := (hfill.isFor _ _ _ hok).1
  have hlog : t.view.log = d.log := by
    have hissuedlog := hissued.log
    rwa [if_neg Bool.false_ne_true, List.append_nil] at hissuedlog
  refine RequestView.not_completes (x := (a, op)) ?_ ?_ ?_
  · rw [hissued.view]
    exact List.mem_append_right _ (List.mem_singleton.2 rfl)
  · rw [hissued.view]
    simp only [Function.update_self, hslot]
  · rw [hlog]
    exact hbalance

/-- As many commands as terminating statuses, and one more of each. -/
theorem slotEvents_balance {log : List AhciEvent} (table : List U8) (tfd : U32)
    (h : (slotEvents log slot).countP AhciEvent.handed =
      (slotEvents log slot).countP AhciEvent.terminates) :
    (slotEvents (log ++ [.cmd slot table] ++ [.d2h slot tfd]) slot).countP AhciEvent.handed =
      (slotEvents (log ++ [.cmd slot table] ++ [.d2h slot tfd]) slot).countP AhciEvent.terminates := by
  have hevents : slotEvents [AhciEvent.cmd slot table, .d2h slot tfd] slot =
      [.cmd slot table, .d2h slot tfd] := slotEvents_self (by simp [AhciEvent.slot])
  rw [List.append_assoc, slotEvents_append, List.singleton_append, hevents, List.countP_append,
    List.countP_append, h]
  rfl

theorem EmptyRead.slotEnd (h : EmptyRead c) :
    slotEnd { c with p := c.p.setCmdCcs } c.p.ccs = .command .readsNothing := by
  have hcmd : cmdEnd (cmdCtx { c with p := c.p.setCmdCcs } c.p.ccs (slotCfis c c.p.ccs)) c.p.ccs
      (slotCfis c c.p.ccs) = .readsNothing := by
    generalize hd : cmdCtx { c with p := c.p.setCmdCcs } c.p.ccs (slotCfis c c.p.ccs) = d
    have hatapi : d.p.atapi = true := by
      rw [← hd]
      exact h.atapi
    have hcode : ataCmd (d.cfis (slotCfis c c.p.ccs) 2) = .packetCmd := by
      have hpacket : d.cfis (slotCfis c c.p.ccs) 2 = 0xa0#8 := by
        rw [← hd]
        exact h.packet
      rw [hpacket]
      rfl
    have hread : scsiCmd (acmd d (slotCfis c c.p.ccs) 0) = .read := by
      rw [← hd]
      exact h.read
    have hlen : atapiReadLen d (slotCfis c c.p.ccs) = 0 := by
      rw [← hd]
      exact h.empty
    rw [cmdEnd, hcode]
    simp only [hatapi, Bool.not_true, Bool.false_eq_true, if_false]
    rw [packetEnd, hread]
    exact if_pos hlen
  exact (if_neg (not_not.2 h.frame)).trans ((if_pos h.command).trans
    (congrArg SlotEnd.command hcmd))

/-- **A read of nothing** is answered, and leaves a request. -/
theorem ahciVisit_slips {busy : List BlockifElem} (h : Recorded c.view) (htracked : Tracked busy c)
    (hempty : EmptyRead c) : IfReturns (fun t => ¬ t.view.Completes c.p.ccs) (ahciVisit c) := by
  have hclear : c.p.pending.getLsbD c.p.ccs = false := by
    have hvisits := hempty.waits
    rw [AhciPort.visits, AhciPort.getLsbD_waiting] at hvisits
    simpa using (Bool.and_eq_true_iff.1 hvisits).2
  have hidle := (h.idle c.p.ccs hclear).balanced
  have hends := ahciVisit_ends hempty.waits htracked.opened
  rw [hempty.slotEnd] at hends
  generalize ahciVisit c = r at hends ⊢
  cases hends with
  | command he =>
    cases he with
    | readsNothing ha hfill _ =>
      obtain ⟨tfd, hlog, -⟩ := ha.log
      refine ahciIssue_slips hfill .read ?_
      rw [hlog]
      exact slotEvents_balance _ tfd hidle

/-- **A callback** that slips: it goes on with a read of nothing, or ends a queued command with the
frame of another. -/
theorem ahciIoreqBody_slips {a : Nat} {err : Errno} {table : List U8}
    (hlog : SlotLog (c.p.ioreq a).slot (some table) (slotEvents c.log (c.p.ioreq a).slot))
    (htable : table.getD 2 0 = c.cfis (c.p.ioreq a).cfis 2) (hslip : AtapiSlip c a err) :
    IfReturns (fun r => ¬ r.1.view.Completes (c.p.ioreq a).slot) (ahciIoreqBody c a err) := by
  obtain ⟨hatapi, hslip⟩ := hslip
  have hlogd : (callbackCtx c a err).log = c.log :=
    congrArg RequestView.log (ahciSetPrdbc_view (ahciReap c a) (c.p.ioreq a) err)
  have hevents : ∀ tfd, slotEvents (c.log ++ [.d2h (c.p.ioreq a).slot tfd]) (c.p.ioreq a).slot =
      slotEvents c.log (c.p.ioreq a).slot ++ [.d2h (c.p.ioreq a).slot tfd] := by
    intro tfd
    rw [slotEvents_append]
    exact congrArg _ (slotEvents_self (by simp [AhciEvent.slot]))
  have hends := ahciIoreqBody_resumes c a err
  rw [callbackEnd] at hends
  simp only [hatapi, if_true, Bool.not_true, Bool.false_and] at hends
  by_cases hgoes : err = .zero ∧ (c.p.ioreq a).more = true
  · rw [if_pos hgoes] at hslip
    simp only [if_pos hgoes, if_pos hslip] at hends
    generalize ahciIoreqBody c a err = r at hends ⊢
    cases hends with
    | readsNothing ha hfill =>
      obtain ⟨tfd, hd, -⟩ := ha.log
      have hbalanced := hlog.balanced
      refine (ahciIssue_slips hfill .read ?_).bind fun t ht => ht
      rw [hd, hlogd, hevents, List.countP_append, List.countP_append, hbalanced]
      rfl
  · rw [if_neg hgoes] at hslip
    simp only [if_neg hgoes] at hends
    generalize ahciIoreqBody c a err = r at hends ⊢
    cases hends with
    | @ends d _ tfd _ hd =>
      rw [if_neg Bool.false_ne_true, hlogd] at hd
      have hncq : tableNcq table = true := by
        rw [tableNcq, htable]
        exact hslip
      refine Ensures.ok ?_
      rintro ⟨o, hslotlog, -⟩
      rw [ahciFinished_view] at hslotlog
      have hslotlog' : SlotLog (c.p.ioreq a).slot o (slotEvents d.log (c.p.ioreq a).slot) := hslotlog
      rw [hd, hevents] at hslotlog'
      exact hlog.not_d2h hncq tfd hslotlog'

end

/-! ## Runs -/

/-- Where the callback for `be` starts. -/
def servingCtx (s : AhciSmall) (be : BlockifElem) (q : List BlockifElem) : PortCtx :=
  (serveEntry (s.dev.ctx 0) be q).lockMtx

/-- The event does not reach one of the slips of an ATAPI port. -/
def EndsOnce (s : AhciSmall) : AhciSmallLabel → Prop
  | .visit => s.looksAt 0 → ¬ EmptyRead (s.dev.ctx 0)
  | .serve => ∀ be q, s.dev.blk.bc.bcPendq = be :: q →
      ¬ AtapiSlip (servingCtx s be q) be.beReq (serveErr (s.dev.ctx 0) be)
  | _ => True

/-- A callback finds the table that the command was handed over with. -/
def TableKept (s : AhciSmall) : AhciSmallLabel → Prop
  | .serve => ∀ be q, s.dev.blk.bc.bcPendq = be :: q →
      (servingCtx s be q).mem.readBytes ((s.dev.port 0).ioreq be.beReq).cfis 0x80 =
        lastTable (slotEvents s.dev.log ((s.dev.port 0).ioreq be.beReq).slot)
  | _ => True

/-- Record and requests are in step, on a port with its disk. -/
def RecordedOn (atapi : Bool) (disk : BlockifCtxt) (v : RequestView) : Prop :=
  OfDisk atapi disk v ∧ Recorded v

/-- The table of the command whose request is served next. -/
theorem Recorded.serving {s : AhciSmall} {be : BlockifElem} {q : List BlockifElem}
    (h : Recorded (s.dev.ctx 0).view) (hpend : s.dev.blk.bc.bcPendq = be :: q)
    (hkept : TableKept s .serve) :
    ∃ table, SlotLog ((servingCtx s be q).p.ioreq be.beReq).slot (some table)
        (slotEvents (servingCtx s be q).log ((servingCtx s be q).p.ioreq be.beReq).slot) ∧
      ((s.dev.port 0).atapi = false →
        AtaMore (table.getD 2 0) ((s.dev.port 0).ioreq be.beReq) be.beOp) ∧
      table.getD 2 0 =
        (servingCtx s be q).cfis ((servingCtx s be q).p.ioreq be.beReq).cfis 2 := by
  have hqueue : (s.dev.ctx 0).view.queue = (be.beReq, be.beOp) :: queueOps q := by
    have hmap := congrArg queueOps hpend
    exact hmap
  obtain ⟨table, hslotlog, hmore⟩ := h.queued (be.beReq, be.beOp) (by rw [hqueue]; simp)
  refine ⟨table, hslotlog, hmore, ?_⟩
  have htable := congrArg (·.getD 2 0) (hkept be q hpend)
  have hlast := congrArg (·.getD 2 0) hslotlog.lastTable
  have hget := Mem.getD_readBytes (servingCtx s be q).mem ((s.dev.port 0).ioreq be.beReq).cfis
    (i := 2) (n := 0x80) (by simp)
  exact hlast.symm.trans (htable.symm.trans hget)

theorem recorded_rules {atapi : Bool} {disk : BlockifCtxt} (hsectsz : disk.bcSectsz = 512) :
    RequestRules (RecordedOn atapi disk) fun s l => EndsOnce s l ∧ TableKept s l where
  cancel := by
    intro c a as htracked h hbusy
    have hdisk := (disk_rules fun _ _ => True).cancel htracked h.1 hbusy
    rw [ifReturns_iff] at hdisk ⊢
    intro t ht
    obtain ⟨l, r, x, hqueue, rfl, hview⟩ := ahciCancel_view htracked hbusy ht
    obtain ⟨table, hslotlog, -⟩ := h.2.queued x (by rw [hqueue]; simp)
    have hbut := h.2.taken hqueue (Tracks.queued_nodup htracked) as
    refine ⟨hdisk t ht, ?_⟩
    rw [hview]
    exact hbut.ends (fun u hu => getLsbD_clear_ne _ hu) (by simp [AhciEvent.slot]; rfl) hslotlog.cancelled
  visit := by
    intro s hs hlooks hok h hvisits
    have hdisk := (disk_rules fun _ _ => True).visit hs hlooks trivial h.1 hvisits
    have hbytes : (s.dev.ctx 0).blk.bc.bcSectsz = 512 :=
      (congrArg BlockifCtxt.bcSectsz h.1.2).trans hsectsz
    exact Ensures.and hdisk
      (ahciVisit_recorded h.2 hs.tracked hvisits (hok.1 hlooks) hbytes)
  serve := by
    intro s be q hs hphase hok h hpend
    have hdisk := (disk_rules fun _ _ => True).serve hs hphase trivial h.1 hpend
    have hbytes : (s.dev.ctx 0).blk.bc.bcSectsz = 512 :=
      (congrArg BlockifCtxt.bcSectsz h.1.2).trans hsectsz
    have htracked := (hs.dev (by rw [hphase]; rfl)).tracked
    have hqueue : (s.dev.ctx 0).view.queue = [] ++ (be.beReq, be.beOp) :: queueOps q := by
      have hmap := congrArg queueOps hpend
      exact hmap
    obtain ⟨table, hslotlog, hmore, htable⟩ := h.2.serving hpend hok.2
    have hctx := (htracked.reap hpend).setPrdbc ((s.dev.ctx 0).p.ioreq be.beReq)
      (serveErr (s.dev.ctx 0) be)
    have hbut := h.2.taken hqueue (Tracks.queued_nodup htracked)
      ((s.dev.port 0).iobhd.erase be.beReq)
    have hview : (callbackCtx (servingCtx s be q) be.beReq (serveErr (s.dev.ctx 0) be)).view =
        { (s.dev.ctx 0).view with
          iobhd := (s.dev.port 0).iobhd.erase be.beReq, queue := [] ++ queueOps q } := by
      rw [callbackCtx, ahciSetPrdbc_view]
      rfl
    rw [← hview] at hbut
    refine Ensures.and hdisk (ahciIoreqBody_recorded hctx hbut hslotlog htable ?_
      (hok.1 be q hpend) hbytes)
    intro hport herr hgoes
    rcases hmore hport hgoes with hop | ⟨hrw, hstarted⟩
    · rw [serveErr_delete hop] at herr
      cases herr
    · exact ⟨hrw, hstarted.started, hstarted.small⟩

namespace AhciSmall

/-- A request for slot `t` is outstanding. -/
def Outstanding (s : AhciSmall) (t : Slot) : Prop :=
  ∃ be ∈ s.dev.blk.bc.bcPendq, ((s.dev.port 0).ioreq be.beReq).slot = t

/-- Each command that was handed over for slot `t` has got its one terminating status, or was
cancelled, but for one whose request is outstanding. -/
def CompletesOnce (s : AhciSmall) (t : Slot) : Prop :=
  ∃ o, SlotLog t o (slotEvents s.dev.log t) ∧ (o.isSome = true ↔ s.Outstanding t)

theorem CompletesOnce.completes_view {s : AhciSmall} {t : Slot} (h : s.CompletesOnce t) :
    (s.dev.ctx 0).view.Completes t := by
  obtain ⟨o, hlog, hiff⟩ := h
  refine ⟨o, hlog, hiff.trans ⟨?_, ?_⟩⟩
  · rintro ⟨be, hbe, hslot⟩
    exact ⟨(be.beReq, be.beOp), List.mem_map_of_mem hbe, hslot⟩
  · rintro ⟨x, hx, hslot⟩
    obtain ⟨be, hbe, rfl⟩ := List.mem_map.1 hx
    exact ⟨be, hbe, hslot⟩

end AhciSmall

/-- **An event that slips** leaves a slot whose command does not complete once. -/
theorem AhciSmallStep.slips {s s' : AhciSmall} {l : AhciSmallLabel} (hs : s.Ok)
    (h : Recorded (s.dev.ctx 0).view) (hstep : AhciSmallStep s l s') (hkept : TableKept s l)
    (hslip : ¬ EndsOnce s l) : ∃ t, ¬ s'.CompletesOnce t := by
  cases hstep with
  | @visit c i hlooks hc =>
    obtain ⟨hlooks₀, hempty⟩ : s.looksAt 0 ∧ EmptyRead (s.dev.ctx 0) := by
      rw [EndsOnce] at hslip
      exact ⟨by_contra fun hno => hslip fun hl => absurd hl hno,
        by_contra fun hno => hslip fun _ => hno⟩
    obtain rfl : i = 0 := Option.some.inj (hlooks.1.symm.trans hlooks₀.1)
    have hnot := (ahciVisit_slips h hs.tracked hempty).of_ok hc
    refine ⟨(s.dev.port 0).ccs, fun hcompletes => hnot ?_⟩
    have hview := hcompletes.completes_view
    rw [Ahci.ctx_put] at hview
    exact hview
  | @serve _ _ _ c _ _ hphase hdeq hproc hbody =>
    have htracked := (hs.dev (by rw [hphase]; rfl)).tracked
    obtain ⟨e, q, hpend, rfl, rfl, rfl⟩ := serve_eq htracked hdeq hproc
    have hatapi : AtapiSlip (servingCtx s e q) e.beReq (serveErr (s.dev.ctx 0) e) := by
      by_contra hno
      refine hslip fun be r hbe => ?_
      obtain ⟨rfl, rfl⟩ := List.cons.inj (hpend.symm.trans hbe)
      exact hno
    obtain ⟨table, hslotlog, -, htable⟩ := h.serving hpend hkept
    have hnot := (ahciIoreqBody_slips hslotlog htable hatapi).of_ok hbody
    refine ⟨((s.dev.port 0).ioreq e.beReq).slot, fun hcompletes => hnot ?_⟩
    have hview := hcompletes.completes_view
    rw [Ahci.ctx_put] at hview
    exact hview
  | hostWrite | portWrite | read | config | guest | enter | written | served | leave =>
    exact absurd trivial hslip

/-- **Every command completes once**, in every run that reaches no slip of an ATAPI port; and an
event that reaches one leaves a slot where a command does not. -/
theorem commands_complete_once {s : AhciSmall}
    (h : Reaches (Guarded AhciSmallStep fun s l => EndsOnce s l ∧ TableKept s l) AhciSmallInitial s) :
    (∀ t, s.CompletesOnce t) ∧ ∀ {l : AhciSmallLabel} {s' : AhciSmall}, AhciSmallStep s l s' →
      TableKept s l → ¬ EndsOnce s l → ∃ t, ¬ s'.CompletesOnce t := by
  obtain ⟨base, -, -, hrec⟩ := h.requests rfl
    (fun base => @recorded_rules (s.dev.port 0).atapi (blockifOpen base).frame rfl)
    fun base => ⟨⟨rfl, rfl⟩, fun _ _ => .nil, fun x hx => absurd hx List.not_mem_nil⟩
  have hok := h.of_guarded.small_ok
  have htracked := hok.tracked
  refine ⟨fun t => ?_, fun hstep hkept hslip => hstep.slips hok hrec hkept hslip⟩
  cases hpending : (s.dev.port 0).pending.getLsbD t with
  | true =>
    obtain ⟨a, ha, rfl⟩ := (htracked.bits t).1 hpending
    obtain ⟨be, hbe, rfl⟩ := List.mem_map.1 (htracked.queued.mem_iff.2 ha)
    obtain ⟨table, hslotlog, -⟩ := hrec.queued (be.beReq, be.beOp) (List.mem_map_of_mem hbe)
    exact ⟨some table, hslotlog, fun _ => ⟨be, hbe, rfl⟩, fun _ => rfl⟩
  | false =>
    refine ⟨none, hrec.idle t hpending, fun hnone => (nomatch hnone), ?_⟩
    rintro ⟨be, hbe, rfl⟩
    have hset := Tracks.queued_slot htracked (x := (be.beReq, be.beOp)) (List.mem_map_of_mem hbe)
    exact absurd (hpending.symm.trans hset) Bool.false_ne_true

/-- On a disk that is none of ATAPI the condition is always met. -/
theorem Reaches.ends_once {ok : AhciSmall → AhciSmallLabel → Prop} {s : AhciSmall}
    (h : Reaches (Guarded AhciSmallStep ok) AhciSmallInitial s)
    (hdisk : (s.dev.port 0).atapi = false) :
    Reaches (Guarded AhciSmallStep fun s l => EndsOnce s l ∧ ok s l) AhciSmallInitial s := by
  obtain ⟨s₀, hs₀, hrun⟩ := h.exists_start
  obtain ⟨atapi, base, hview⟩ := hs₀.view
  have hport : ∀ {u : AhciSmall}, Reaches (Guarded AhciSmallStep ok) (· = s₀) u →
      (u.dev.port 0).atapi = atapi := by
    intro u hu
    have hof : OfDisk atapi (blockifOpen base).frame (u.dev.ctx 0).view :=
      (disk_rules ok).reaches hs₀ (by rw [hview]; exact ⟨rfl, rfl⟩) hu
    exact hof.1
  have hkind : atapi = false := (hport hrun).symm.trans hdisk
  clear h hdisk
  induction hrun with
  | start heq =>
    subst heq
    exact .start hs₀
  | @next u v l hu hstep ih =>
    refine .next ih ⟨hstep.1, ?_, hstep.2⟩
    have hata : (u.dev.port 0).atapi = false := (hport hu).trans hkind
    cases l with
    | visit => exact fun _ hempty => Bool.false_ne_true (hata.symm.trans hempty.atapi)
    | serve => exact fun be q _ hslip => Bool.false_ne_true (hata.symm.trans hslip.1)
    | _ => exact trivial

/-! ## Runs -/

instance (s : AhciSmall) : (l : AhciSmallLabel) → Decidable (TableKept s l)
  | .serve => decidableFirst s.dev.blk.bc.bcPendq fun be q =>
      (servingCtx s be q).mem.readBytes ((s.dev.port 0).ioreq be.beReq).cfis 0x80 =
        lastTable (slotEvents s.dev.log ((s.dev.port 0).ioreq be.beReq).slot)
  | .hostWrite .. | .portWrite .. | .read .. | .config .. | .guest .. | .enter | .visit | .written
  | .served | .leave => isTrue trivial

/-- A flush is handed over, served and answered. -/
theorem commands_complete_once_flush : ∃ s : AhciSmall,
    (slotEvents s.dev.log 0).countP AhciEvent.handed = 1 ∧
      (slotEvents s.dev.log 0).countP AhciEvent.terminates = 1 ∧ s.CompletesOnce 0 := by
  have hrun : ((ahciStart false (commandMem 0xe7#8)).execAll TableKept
      (issueFirst ++ serveFirst)).any (fun s => !(s.dev.port 0).atapi &&
        (slotEvents s.dev.log 0).countP AhciEvent.handed == 1 &&
        (slotEvents s.dev.log 0).countP AhciEvent.terminates == 1) = true := by
    decide +kernel
  obtain ⟨s, hs, hend⟩ := (Option.any_eq_true _ _).1 hrun
  simp only [Bool.and_eq_true, Bool.not_eq_true', beq_iff_eq] at hend
  obtain ⟨⟨hdisk, hhanded⟩, hterminates⟩ := hend
  have hreach := AhciSmall.execAll_reaches (.start (ahciStart_initial false _)) hs
  exact ⟨s, hhanded, hterminates, (commands_complete_once (hreach.ends_once hdisk)).1 0⟩

/-- A READ (10) of no block, for an ATAPI disk. -/
def emptyReadMem : Mem := fun a => if a = 0x40 then 0x28#8 else commandMem 0xa0#8 a

/-- It has got a status, and its request is outstanding. -/
theorem command_answered_and_outstanding : ¬ ∀ s : AhciSmall,
    Reaches (Guarded AhciSmallStep TableKept) AhciSmallInitial s → ∀ t, s.CompletesOnce t := by
  intro h
  have hrun : ((ahciStart true emptyReadMem).execAll TableKept issueFirst).any (fun s =>
      (slotEvents s.dev.log 0).countP AhciEvent.handed == 1 &&
      (slotEvents s.dev.log 0).countP AhciEvent.terminates == 1 &&
      s.dev.blk.bc.bcPendq.any fun be => ((s.dev.port 0).ioreq be.beReq).slot == 0) = true := by
    decide +kernel
  obtain ⟨s, hs, hend⟩ := (Option.any_eq_true _ _).1 hrun
  simp only [Bool.and_eq_true, beq_iff_eq, List.any_eq_true] at hend
  obtain ⟨⟨hhanded, hterminates⟩, houtstanding⟩ := hend
  have hreach := AhciSmall.execAll_reaches (.start (ahciStart_initial true _)) hs
  obtain ⟨be, hbe, hslot⟩ := houtstanding
  have hqueued : (be.beReq, be.beOp) ∈ (s.dev.ctx 0).view.queue := List.mem_map_of_mem hbe
  exact RequestView.not_completes hqueued hslot (hhanded.trans hterminates.symm)
    (h s hreach 0).completes_view

end DeviceModel
