import DeviceModel.Ahci.ClosedPorts
import DeviceModel.Ahci.Exec
import DeviceModel.Ahci.Resume
import DeviceModel.Ahci.Serve
import DeviceModel.Ahci.Tracking

/-!
# Requests are tracked over a run

Registers, the completion callback and `blockif_thr` keep the lists of a port, its
`pending` and the queues of the block interface together.
-/

namespace DeviceModel

/-! ## The callback -/

section

variable {busy : List BlockifElem} {c d : PortCtx} {be : BlockifElem} {q : List BlockifElem}

/-- A request leaves the busy list, and the queue of the block interface. -/
theorem Tracks.dropped {pd : U32} {busy' : List BlockifElem} {a : Nat} (h : Tracks pd busy c)
    (ha : a ∈ c.p.iobhd) (hopen : d.p.opened = c.p.opened) (hfree : d.p.iofhd = c.p.iofhd ++ [a])
    (hbusy : d.p.iobhd = c.p.iobhd.erase a) (hioreq : d.p.ioreq = c.p.ioreq) (hqueue : QueueOk d.blk.bc d.blk.reqs)
    (hbusyq : d.blk.bc.bcBusyq = busy')
    (hqueued : (a :: d.blk.bc.bcPendq.map (·.beReq)).Perm c.p.iobhd) :
    Tracks (pd &&& ~~~slotBit (c.p.ioreq a).slot) busy' d := by
  have hnodup : c.p.iobhd.Nodup := List.Nodup.of_map _ h.slots
  have hbits : ∀ t : Slot, (pd &&& ~~~slotBit (c.p.ioreq a).slot).getLsbD t = true ↔
      ∃ b ∈ c.p.iobhd.erase a, (c.p.ioreq b).slot = t := by
    intro t
    rw [getLsbD_and_not_slotBit, Bool.and_eq_true, Bool.not_eq_true', decide_eq_false_iff_not,
      h.bits]
    constructor
    · rintro ⟨⟨b, hb, rfl⟩, hne⟩
      refine ⟨b, (List.mem_erase_of_ne ?_).2 hb, rfl⟩
      rintro rfl
      exact hne rfl
    · rintro ⟨b, hb, rfl⟩
      refine ⟨⟨b, List.mem_of_mem_erase hb, rfl⟩, fun heq => ?_⟩
      obtain rfl := List.inj_on_of_nodup_map h.slots (List.mem_of_mem_erase hb) ha heq
      exact hnodup.not_mem_erase hb
  refine ⟨hopen ▸ h.opened, ?_, ?_, ?_, hqueue, hbusyq, ?_⟩
  · refine List.Perm.trans ?_ h.part
    rw [hfree, hbusy, List.append_assoc]
    exact (List.perm_cons_erase ha).symm.append_left c.p.iofhd
  · rw [hbusy, hioreq]
    exact h.slots.sublist (List.erase_sublist.map _)
  · rw [hbusy, hioreq]
    exact hbits
  · rw [hbusy]
    exact (hqueued.trans (List.perm_cons_erase ha)).cons_inv

/-- The callback starts: the served request is off the busy list. -/
theorem Tracked.reap (h : Tracked [] c) (hpend : c.blk.bc.bcPendq = be :: q) :
    TrackedBut (c.p.ioreq be.beReq).slot [{ be with beStatus := .done }]
      (ahciReap (serveEntry c be q).lockMtx be.beReq) := by
  have hqueued := h.queued
  rw [hpend, List.map_cons] at hqueued
  exact Tracks.dropped h (hqueued.mem_iff.1 List.mem_cons_self) rfl rfl rfl rfl
    (serveEntry_queue h.queue h.busyq hpend) rfl hqueued

theorem TrackedBut.setPrdbc {slot : Slot} (h : TrackedBut slot busy c) (aior : AhciIoreq)
    (err : Errno) : TrackedBut slot busy (ahciSetPrdbc c aior err) := by
  rw [ahciSetPrdbc]
  split
  · exact Tracks.setMem h _
  · exact h

/-- Every callback keeps it. -/
theorem Resumes.tracked {slot : Slot} {cfis : U64} {e : CallbackEnd}
    {r : Except Stop (PortCtx × Bool)} (he : Resumes c slot cfis e r) (h : TrackedBut slot busy c)
    (hbusy : busy.length ≤ 1) : Ensures IssueSafe (fun r => Tracked busy r.1) r := by
  cases he with
  | ends tfd hr hlog => exact (h.reports hr).finished
  | trims ht => exact (h.reports ht.reports).finished
  | overruns => exact Ensures.error (by decide)
  | issues hfill => exact (h.issue hbusy hfill _ _).bind fun t ht => ht
  | readsNothing ha hfill =>
    exact ((h.reports ha.reports).issue hbusy hfill _ _).bind fun t ht => ht

/-- **The callback**, up to `ahci_handle_port`. -/
theorem ahciIoreqBody_tracked {a : Nat}
    (h : TrackedBut (c.p.ioreq a).slot busy (ahciReap c a)) (hbusy : busy.length ≤ 1)
    (err : Errno) : Ensures IssueSafe (fun r => Tracked busy r.1) (ahciIoreqBody c a err) :=
  (ahciIoreqBody_resumes c a err).tracked (h.setPrdbc (c.p.ioreq a) err) hbusy

/-- **The callback.** -/
theorem ahciIoreqCb_tracked {a : Nat}
    (h : TrackedBut (c.p.ioreq a).slot busy (ahciReap c.lockMtx a)) (hbusy : busy.length ≤ 1)
    (fuel : Nat) (M : Nat → Mem) (err : Errno) :
    Ensures IssueSafe (Tracked busy) (ahciIoreqCb fuel M a err c) := by
  rw [ahciIoreqCb]
  refine (ahciIoreqBody_tracked h hbusy err).bind fun r hr => ?_
  obtain ⟨t, more⟩ := r
  cases more with
  | true =>
    refine (ahciHandlePort_tracked hr hbusy fuel M).bind fun u hu => ?_
    exact Tracks.congr hu rfl rfl rfl rfl rfl rfl
  | false => exact Tracks.congr hr rfl rfl rfl rfl rfl rfl

/-- The callback has returned, and its element is free again. -/
theorem Tracked.finish {x : BlockifElem} (h : Tracked [x] c) (hdone : x.beStatus = .done)
    (fuel : Nat) (M : Nat → Mem) : Tracked [] (blockifFinish (ahciClient fuel M) x c) := by
  obtain ⟨heq, hok⟩ := @blockifFinish_port c fuel M x h.queue h.busyq hdone
  rw [heq]
  refine ⟨h.opened, h.part, h.slots, h.bits, hok, rfl, ?_⟩
  have hmap : (serveExit c x).blk.bc.bcPendq.map (·.beReq) = c.blk.bc.bcPendq.map (·.beReq) := by
    rw [serveExit, List.map_map]
    exact List.map_congr_left fun e _ => blockifUnblock_req _ _ e
  rw [hmap]
  exact h.queued

/-- **`blockif_thr`** serves one request, or finds none. -/
theorem blockifServe_tracked (h : Tracked [] c) (fuel : Nat) (M : Nat → Mem) :
    Ensures IssueSafe (fun t? => ∀ t, t? = some t → Tracked [] t)
      (blockifServe (ahciClient fuel M) c) := by
  cases hpend : c.blk.bc.bcPendq with
  | nil =>
    rw [blockifServe_nil h.queue h.busyq hpend]
    exact fun t ht => (nomatch ht)
  | cons be q =>
    rw [blockifServe_cons h.queue h.busyq hpend]
    refine (ahciIoreqCb_tracked (h.reap hpend) (Nat.le_refl 1) fuel M _).bind fun t ht => ?_
    rintro u ⟨⟩
    exact ht.finish rfl fuel M

/-! ## Stopping a port -/

/-- `blockif_cancel` finds the element of a request that is in flight. -/
theorem Tracked.find_req {a : Nat} (h : Tracked [] c) (ha : a ∈ c.p.iobhd) :
    ∃ be, c.blk.bc.bcPendq.find? (·.beReq == a) = some be ∧ be.beReq = a := by
  obtain ⟨e, he, hereq⟩ := List.mem_map.1 (h.queued.mem_iff.2 ha)
  have hsome : (c.blk.bc.bcPendq.find? (·.beReq == a)).isSome := by
    rw [List.find?_isSome]
    exact ⟨e, he, beq_iff_eq.2 hereq⟩
  obtain ⟨be, hfind⟩ := Option.isSome_iff_exists.1 hsome
  exact ⟨be, hfind, by simpa using List.find?_some hfind⟩

/-- What `ahci_port_stop` does for a request whose element `be` is pending. -/
theorem ahciCancel_found {a : Nat} (hfind : c.blk.bc.bcPendq.find? (·.beReq == a) = some be) :
    ∃ sact ci, ahciCancel c a = .ok (ahciReap
      { c with
        p := { c.p with
          sact := sact, ci := ci, pending := c.p.pending &&& ~~~slotBit (c.p.ioreq a).slot }
        blk := { c.blk with
          bc := (blockifComplete c.blk.bc.lockMtx c.blk.reqs be).unlockMtx }
        log := c.log ++ [.cancel (c.p.ioreq a).slot] } a) := by
  have hcancel : blockifCancel c.blk a =
      .ok ({ c.blk with bc := (blockifComplete c.blk.bc.lockMtx c.blk.reqs be).unlockMtx },
        .zero) := by
    rw [blockifCancel, hfind]
  rw [ahciCancel, Except.bind_ok hcancel]
  simp only [ne_eq, not_true_eq_false, if_false]
  split
  · exact ⟨_, _, rfl⟩
  · exact ⟨_, _, rfl⟩

/-- A request that is in flight is cancelled. -/
theorem ahciCancel_tracked {a : Nat} {as : List Nat} (h : Tracked [] c)
    (hbusy : c.p.iobhd = a :: as) :
    Ensures IssueSafe (fun t => Tracked [] t ∧ t.p.iobhd = as) (ahciCancel c a) := by
  have ha : a ∈ c.p.iobhd := by
    rw [hbusy]
    exact List.mem_cons_self
  obtain ⟨be, hfind, hbereq⟩ := h.find_req ha
  obtain ⟨q, r, hpend⟩ := List.append_of_mem (List.mem_of_find?_eq_some hfind)
  have hlocked : QueueOk c.blk.bc.lockMtx c.blk.reqs := h.queue.congr rfl rfl rfl fun _ _ => rfl
  obtain ⟨heq, hok⟩ := hlocked.cancel hpend
  have hok' := hok h.busyq
  rw [heq] at hok'
  have hmap : ∀ l : List BlockifElem,
      (l.map (blockifUnblock c.blk.reqs be.beBlock)).map (·.beReq) = l.map (·.beReq) := by
    intro l
    rw [List.map_map]
    exact List.map_congr_left fun e _ => blockifUnblock_req _ _ e
  have hqueued : (a :: (q ++ r).map (·.beReq)).Perm c.p.iobhd := by
    refine List.Perm.trans ?_ h.queued
    rw [hpend, List.map_append, List.map_append, List.map_cons, hbereq]
    exact List.perm_middle.symm
  obtain ⟨sact, ci, hrun⟩ := ahciCancel_found hfind
  rw [hrun, heq]
  refine Ensures.ok ⟨Tracks.dropped h ha rfl rfl rfl rfl (hok'.congr rfl rfl rfl fun _ _ => rfl) h.busyq ?_, ?_⟩
  · rw [← hmap] at hqueued
    exact hqueued
  · have herase : c.p.iobhd.erase a = as := by rw [hbusy, List.erase_cons_head]
    exact herase

theorem ahciCancelAll_tracked :
    ∀ (as : List Nat) (c : PortCtx), Tracked [] c → c.p.iobhd = as →
      Ensures IssueSafe (Tracked []) (ahciCancelAll as c) := by
  intro as
  induction as with
  | nil => exact fun c h _ => h
  | cons a as ih =>
    intro c h hbusy
    exact (ahciCancel_tracked h hbusy).bind fun t ⟨ht, hrest⟩ => ih t ht hrest

/-- **`ahci_port_stop`** cancels everything. -/
theorem ahciPortStop_tracked (h : Tracked [] c) :
    Ensures IssueSafe (Tracked []) (ahciPortStop c) := by
  have hopen : c.p.opened = true := h.opened
  rw [ahciPortStop, hopen]
  simp only [Bool.not_true, Bool.false_eq_true, if_false]
  refine Ensures.bind (Ensures.assert fun _ => by decide) fun _ _ => ?_
  refine (ahciCancelAll_tracked c.p.iobhd c h rfl).bind fun t ht => Ensures.ok ?_
  rw [Tracked]
  have hpending : (ahciCheckStopped t.p).pending = t.p.pending := by
    rw [ahciCheckStopped]
    split <;> rfl
  rw [hpending]
  exact Tracks.checkStopped ht

/-! ## Registers -/

theorem Tracked.cmdRest (h : Tracked [] c) (ctx : Vmctx) (value : U32) :
    Tracked [] { c with p := ahciCmdRest ctx c.p value } := by
  obtain ⟨cmd, rfis, tfd, heq⟩ := ahciCmdRest_eq ctx c.p value
  rw [heq]
  exact Tracks.congr h rfl rfl rfl rfl rfl rfl

theorem ahciCmdWrite_tracked (h : Tracked [] c) (value : U32) :
    Ensures IssueSafe (Tracked []) (ahciCmdWrite c value) := by
  have hbits : Tracked [] { c with p := ahciCmdBits c.p value } :=
    Tracks.congr h rfl rfl rfl rfl rfl rfl
  rw [ahciCmdWrite]
  split
  · exact (ahciPortStop_tracked hbits).bind fun t ht => Ensures.ok (ht.cmdRest _ value)
  · have hstart : Tracked [] { c with p := ahciCmdStart c.sc.vmctx (ahciCmdBits c.p value) } :=
      Tracks.congr h rfl rfl rfl rfl rfl rfl
    exact Ensures.ok (hstart.cmdRest _ value)

/-- **A register write** on the port that is opened. -/
theorem ahciPortWriteReg_tracked (h : Tracked [] c) (fuel : Nat) (M : Nat → Mem)
    (reg : AhciPortReg) (value : U32) :
    Ensures IssueSafe (Tracked []) (ahciPortWriteReg fuel M c reg value) := by
  have hopen : c.p.opened = true := h.opened
  have hnone : ([] : List BlockifElem).length ≤ 1 := Nat.zero_le 1
  cases reg with
  | clb | clbu | fb | fbu | serr | sact => exact Tracks.congr h rfl rfl rfl rfl rfl rfl
  | other => exact h
  | is | ie =>
    rw [ahciPortWriteReg, ahciPortIntrOn_opened]
    · exact Tracks.congr h rfl rfl rfl rfl rfl rfl
    · exact hopen
  | sctl =>
    rw [ahciPortWriteReg]
    have hset : Tracked [] { c with p := { c.p with sctl := value } } :=
      Tracks.congr h rfl rfl rfl rfl rfl rfl
    split
    · exact hset.reports (ahciPortReset_reports _).1
    · exact hset
  | ci =>
    have hset : Tracked [] { c with p := { c.p with ci := c.p.ci ||| value } } :=
      Tracks.congr h rfl rfl rfl rfl rfl rfl
    exact ahciHandlePort_tracked hset hnone fuel M
  | cmd => exact (ahciCmdWrite_tracked h value).bind fun t ht => ahciHandlePort_tracked ht hnone fuel M

end

/-! ## The controller -/

/-- Port 0 is tracked, and the other ports are not opened. -/
structure Ahci.TrackedDev (s : Ahci) : Prop where
  tracked : Tracked [] (s.ctx 0)
  closed : ∀ i, i ≠ 0 → (s.port i).opened = false
  silent : ∀ i, i ≠ 0 → (s.port i).is = 0

namespace Ahci.TrackedDev

variable {s : Ahci} {c : PortCtx}

theorem put (h : s.TrackedDev) (hc : Tracked [] c) : (s.put 0 c).TrackedDev := by
  refine ⟨?_, fun i hi => ?_, fun i hi => ?_⟩
  · rw [Ahci.ctx_put]
    exact hc
  · rw [Ahci.put_port_ne s c hi]
    exact h.closed i hi
  · rw [Ahci.put_port_ne s c hi]
    exact h.silent i hi

theorem put_closed (h : s.TrackedDev) {i : Nat} (hi : i ≠ 0) (hc : Closed (s.ctx i) c) :
    (s.put i c).TrackedDev := by
  obtain ⟨hclosed, hsilent, m, p, rfl⟩ := hc
  refine ⟨?_, fun j hj => ?_, fun j hj => ?_⟩
  · rw [Ahci.ctx_put_ne s _ hi.symm]
    exact Tracks.congr h.tracked rfl rfl rfl rfl rfl rfl
  · by_cases hij : j = i
    · rw [hij, Ahci.put_port]
      exact hclosed
    · rw [Ahci.put_port_ne s _ hij]
      exact h.closed j hj
  · by_cases hij : j = i
    · rw [hij, Ahci.put_port]
      exact hsilent (h.silent i hi)
    · rw [Ahci.put_port_ne s _ hij]
      exact h.silent j hj

/-- A change of the softc. -/
theorem softc (h : s.TrackedDev) (sc : AhciSoftc) : Ahci.TrackedDev { s with sc := sc } :=
  ⟨Tracks.congr h.tracked rfl rfl rfl rfl rfl rfl, h.closed, h.silent⟩

end Ahci.TrackedDev

theorem ahciResetPort_tracked {c : PortCtx} (h : Tracked [] c) : Tracked [] (ahciResetPort c) := by
  have hset : ∀ cmd, Tracked []
      { c with p := { c.p with ie := 0, is := 0, cmd := cmd, sctl := 0 } } :=
    fun _ => Tracks.congr h rfl rfl rfl rfl rfl rfl
  rw [ahciResetPort]
  exact (hset _).reports (ahciPortReset_reports _).1

/-- **`ahci_reset`** leaves requests in flight, and tracked. -/
theorem ahciReset_tracked {s : Ahci} (h : s.TrackedDev) : (ahciReset s).TrackedDev := by
  have hfold : ∀ (is : List Nat) (s : Ahci), s.TrackedDev →
      (is.foldl (fun s i => s.put i (ahciResetPort (s.ctx i))) s).TrackedDev := by
    intro is
    induction is with
    | nil => exact fun s hs => hs
    | cons i is ih =>
      intro s hs
      refine ih _ ?_
      by_cases hi : i = 0
      · rw [hi]
        exact hs.put (ahciResetPort_tracked hs.tracked)
      · exact hs.put_closed hi (ahciResetPort_closed (hs.closed i hi))
  exact hfold _ _ (h.softc _)

theorem pciAhciHostWrite_tracked {s : Ahci} (h : s.TrackedDev) (offset value : U64) :
    (pciAhciHostWrite s offset value).TrackedDev := by
  rw [pciAhciHostWrite]
  split
  · split
    · exact ahciReset_tracked h
    · exact h.softc _
  · split
    · exact h.softc _
    · exact h

theorem pciAhciWrite_tracked {s : Ahci} (h : s.TrackedDev) (fuel : Nat) (M : Nat → Mem)
    (baridx : Nat) (offset value : U64) :
    Ensures IssueSafe Ahci.TrackedDev (pciAhciWrite fuel M s baridx offset value) := by
  have hlock : s.lockMtx.TrackedDev := h.softc _
  rw [pciAhciWrite]
  refine Ensures.bind (Ensures.assert fun _ => by decide) fun _ _ => ?_
  refine Ensures.bind (Ensures.assert fun _ => by decide) fun _ _ => ?_
  refine Ensures.bind ?_ fun t (ht : t.TrackedDev) => Ensures.ok (ht.softc _)
  rw [pciAhciWriteBody]
  split
  · exact Ensures.ok (pciAhciHostWrite_tracked hlock offset value)
  · split
    · rw [pciAhciPortWrite]
      by_cases hi : ahciPortNo offset = 0
      · rw [hi]
        exact (ahciPortWriteReg_tracked hlock.tracked fuel M _ _).bind fun c hc =>
          Ensures.ok (hlock.put hc)
      · have hclosed := ahciPortWriteReg_closed (c := s.lockMtx.ctx (ahciPortNo offset))
          (hlock.closed _ hi) fuel M (ahciPortReg ((offset - ahciOffset) % ahciStep))
          (value.setWidth 32)
        refine (hclosed.allow ?_).bind fun c hc => Ensures.ok (hlock.put_closed hi hc)
        rintro e (rfl | rfl) <;> decide
    · exact hlock

/-! ## Runs -/

/-- The invariant of a run. -/
theorem AhciStep.tracked {s t : AhciSys} {l : AhciLabel} (hs : s.dev.TrackedDev)
    (h : AhciStep s l t) : t.dev.TrackedDev := by
  cases h with
  | write fuel M baridx offset value _ hw =>
    exact (pciAhciWrite_tracked hs fuel M baridx offset value).of_ok hw
  | read baridx regoff size _ hr =>
    obtain ⟨_, -, hr⟩ := Except.bind_eq_ok.1 hr
    obtain ⟨_, -, hr⟩ := Except.bind_eq_ok.1 hr
    obtain ⟨_, -, hr⟩ := Except.bind_eq_ok.1 hr
    cases hr
    exact hs.softc _
  | config => exact hs.softc _
  | guest mem stack =>
    exact ⟨Tracks.congr hs.tracked rfl rfl rfl rfl rfl rfl, hs.closed, hs.silent⟩
  | enter | leave =>
    refine ⟨?_, hs.closed, hs.silent⟩
    have hq := hs.tracked.queue
    exact ⟨hs.tracked.opened, hs.tracked.part, hs.tracked.slots, hs.tracked.bits,
      hq.congr rfl rfl rfl fun _ _ => rfl, hs.tracked.busyq, hs.tracked.queued⟩
  | serve fuel M _ hserve =>
    exact hs.put ((blockifServe_tracked hs.tracked fuel M).of_ok hserve _ rfl)

theorem ahciOpened_tracked (ctx : Vmctx) (base : U64) (atapi : Bool) (ident : List U8) (mem : Mem)
    (stack : Nat → U8) : (ahciOpened ctx base atapi ident mem stack).TrackedDev := by
  refine ⟨⟨rfl, ?_, List.nodup_nil, ?_, queueOk_open base _, rfl, List.Perm.nil⟩, ?_, ?_⟩
  · rw [List.perm_iff_count]
    intro a
    exact congrArg (List.count a) (List.append_nil (List.range blockifQueuesz))
  · intro t
    have hzero : (0 : U32).getLsbD t = false := BitVec.getLsbD_zero
    constructor
    · intro h
      exact absurd (hzero.symm.trans h) Bool.false_ne_true
    · rintro ⟨a, ha, -⟩
      exact absurd ha List.not_mem_nil
  · intro i hi
    rw [ahciOpened]
    simp only [Function.update_of_ne hi]
    rfl
  · intro i hi
    rw [ahciOpened]
    simp only [Function.update_of_ne hi]
    rfl

theorem AhciInitial.tracked {s : AhciSys} (h : AhciInitial s) : s.dev.TrackedDev := by
  obtain ⟨⟨ctx, base, atapi, ident, mem, stack, hdev⟩, -⟩ := h
  rw [hdev]
  exact ahciReset_tracked (ahciOpened_tracked ctx base atapi ident mem stack)

/-- The invariant holds in every reachable state. -/
theorem Reaches.tracked {s : AhciSys} (h : Reaches AhciStep AhciInitial s) : s.dev.TrackedDev :=
  h.invariant (fun _ hs => hs.tracked) fun _ _ _ hs hstep => hstep.tracked hs

/-- **Requests are tracked.** In every reachable state the two lists of the port partition the
request structures, `pending` holds the slots of the busy ones, each once, and the queues of the
block interface hold the busy ones, each once. So no access and no completion fails one of the
two assertions on what a command submits. -/
theorem ahci_requests_tracked {s : AhciSys} (h : Reaches AhciStep AhciInitial s) :
    ((s.dev.port 0).iofhd ++ (s.dev.port 0).iobhd).Perm (List.range blockifQueuesz) ∧
    (∀ t : Slot, (s.dev.port 0).pending.getLsbD t = true ↔
      ∃! a, a ∈ (s.dev.port 0).iobhd ∧ ((s.dev.port 0).ioreq a).slot = t) ∧
    ((s.dev.blk.bc.bcPendq ++ s.dev.blk.bc.bcBusyq).map (·.beReq)).Perm (s.dev.port 0).iobhd ∧
    (∀ fuel M baridx offset value e,
      pciAhciWrite fuel M s.dev baridx offset value = .error e → IssueSafe e) ∧
    ∀ fuel M e, blockifServe (ahciClient fuel M) (s.dev.ctx 0) = .error e → IssueSafe e := by
  have hdev := h.tracked
  refine ⟨hdev.tracked.part, hdev.tracked.existsUnique, ?_, ?_, ?_⟩
  · have hidle : s.dev.blk.bc.bcBusyq = [] := hdev.tracked.busyq
    rw [hidle, List.append_nil]
    exact hdev.tracked.queued
  · intro fuel M baridx offset value e he
    exact (pciAhciWrite_tracked hdev fuel M baridx offset value).of_error he
  · intro fuel M e he
    exact (blockifServe_tracked hdev.tracked fuel M).of_error he

/-- Two reads with tags are issued, and both wait for the disk. -/
theorem ahci_requests_tracked_tags : ∃ s : AhciSys,
    ((s.dev.port 0).iobhd.length = 2 ∧ (s.dev.port 0).pending = 6) ∧
    ((s.dev.port 0).iofhd ++ (s.dev.port 0).iobhd).Perm (List.range blockifQueuesz) ∧
    (∀ t : Slot, (s.dev.port 0).pending.getLsbD t = true ↔
      ∃! a, a ∈ (s.dev.port 0).iobhd ∧ ((s.dev.port 0).ioreq a).slot = t) ∧
    ((s.dev.blk.bc.bcPendq ++ s.dev.blk.bc.bcBusyq).map (·.beReq)).Perm (s.dev.port 0).iobhd := by
  have hrun : ((ahciBlank false).execAll 5 (startPort (fun _ => commandMem 0x60) ++
      [.write (fun _ => commandMem 0x60) 5 0x138 0x6])).any (fun s =>
        (s.dev.port 0).iobhd.length == 2 && (s.dev.port 0).pending == 6) = true := by
    decide +kernel
  obtain ⟨s, hs, hend⟩ := (Option.any_eq_true _ _).1 hrun
  rw [Bool.and_eq_true, beq_iff_eq, beq_iff_eq] at hend
  obtain ⟨hpart, hslots, hqueues, -⟩ := ahci_requests_tracked (ahciBlank_reaches hs)
  exact ⟨s, hend, hpart, hslots, hqueues⟩

end DeviceModel
