import DeviceModel.Ahci.Rules

/-!
# The mutexes of the AHCI controller

A register access and a callback hold `sc->mtx`, and `blockif_thr` holds `bc_mtx` while it
serves. Submitting a request takes `bc_mtx`: in a register write that is right, and in a
callback it fails the assertion of `pthread_mutex_lock`.
-/

namespace DeviceModel

/-- The mutex is held, or free, and no assertion has failed on it. -/
def PthreadMutex.At (m : PthreadMutex) : Bool → Prop
  | true => m.Held
  | false => m.Free

/-! ## Which ends submit a request -/

/-- A request is submitted. -/
def CmdEnd.submits : CmdEnd → Bool
  | .issues _ | .readsNothing => true
  | _ => false

/-- A request is submitted. -/
def SlotEnd.submits : SlotEnd → Bool
  | .command e => e.submits
  | _ => false

/-- A request is submitted. -/
def CallbackEnd.submits : CallbackEnd → Bool
  | .issues | .readsNothing => true
  | _ => false

/-- The slot that `ahci_handle_port` looks at submits a request. -/
def PortCtx.visitSubmits (c : PortCtx) : Bool :=
  c.p.visits && (slotEnd { c with p := c.p.setCmdCcs } c.p.ccs).submits

/-! ## What a command does to the mutexes -/

/-- The mutex of the controller's line is free. -/
def AhciSoftc.LineFree (sc : AhciSoftc) : Prop := sc.ascPi.lintr.lock.Free

/-- Two states of a port function, and whether it has submitted a request in between. -/
structure Mutexes (submits : Bool) (c t : PortCtx) : Prop where
  mtx : t.sc.mtx = c.sc.mtx
  line : c.sc.LineFree → t.sc.LineFree
  queue : t.blk.bc.bcMtx =
    if submits then pthreadMutexUnlock (pthreadMutexLock c.blk.bc.bcMtx) else c.blk.bc.bcMtx

section

variable {c d t : PortCtx} {slot : Slot} {cfis : U64} {submits : Bool}

theorem AhciSoftc.Raises.lineFree {sc sc' : AhciSoftc} (h : sc.Raises sc') (hline : sc.LineFree) :
    sc'.LineFree := by
  cases h with
  | keeps => exact hline
  | raises => exact pciLintrAssert_lock hline

theorem Mutexes.refl (c : PortCtx) : Mutexes false c c := ⟨rfl, id, rfl⟩

theorem Mutexes.trans (h : Mutexes false c d) (h' : Mutexes submits d t) : Mutexes submits c t := by
  have hqueue : d.blk.bc.bcMtx = c.blk.bc.bcMtx := h.queue
  refine ⟨h'.mtx.trans h.mtx, fun hline => h'.line (h.line hline), ?_⟩
  rw [h'.queue, hqueue]

theorem Mutexes.finished (h : Mutexes submits c d) (slot : Slot) :
    Mutexes submits c (ahciFinished d slot) := ⟨h.mtx, h.line, h.queue⟩

theorem Reports.mutexes (h : Reports c d) : Mutexes false c d := by
  refine ⟨h.sc.mtx, h.sc.lineFree, ?_⟩
  rw [h.bc]
  rfl

theorem Issued.mutexes {a : Nat} {aior : AhciIoreq} {breq : BlockifReq} {ncq : Bool} {op : Blockop}
    (h : Issued c t slot a aior breq ncq op) : Mutexes true c t := by
  obtain ⟨be, rest, -, hbc⟩ := h.bc
  refine ⟨h.posts.raises.mtx, h.posts.raises.lineFree, ?_⟩
  rw [hbc]
  rfl

theorem ahciIssue_mutexes {fill : BlockifReq → Except Stop (AhciIoreq × BlockifReq)} {ncq : Bool}
    {op : Blockop} (h : ahciIssue c slot fill ncq op = .ok t) : Mutexes true c t := by
  obtain ⟨a, free, aior, breq, breq', -, -, hi⟩ := ahciIssue_issued h
  exact hi.mutexes

/-- Every command. -/
theorem EndsWith.mutexes {e : CmdEnd} {r : Except Stop PortCtx} (he : EndsWith c slot cfis e r)
    (ht : r = .ok t) : Mutexes e.submits c t := by
  cases he with
  | fails ha | succeeds ha =>
    cases ht
    exact ha.reports.mutexes
  | trims hd =>
    cases ht
    exact hd.reports.mutexes.finished slot
  | issues => exact ahciIssue_mutexes ht
  | aborts hfill hstops =>
    obtain ⟨a, free, aior, breq, breq', -, hbreq, -⟩ := ahciIssue_issued ht
    have hok := hfill.uniform breq ⟨0, 0, []⟩
    rw [hbreq, hstops] at hok
    cases hok
  | readsNothing ha => exact ha.reports.mutexes.trans (ahciIssue_mutexes ht)

/-- Every visit. -/
theorem ahciVisit_mutexes (hopen : c.p.opened = true) (ht : ahciVisit c = .ok t) :
    Mutexes c.visitSubmits c t := by
  rw [PortCtx.visitSubmits]
  cases hvisits : c.p.visits with
  | false =>
    rw [ahciVisit_passes hvisits] at ht
    cases ht
    exact .refl c
  | true =>
    have hends := ahciVisit_ends hvisits hopen
    have hset : Mutexes false c { c with p := c.p.setCmdCcs } := ⟨rfl, id, rfl⟩
    rw [Bool.true_and]
    rw [ht] at hends
    generalize slotEnd _ _ = e at hends ⊢
    generalize hr : (Except.ok t : Except Stop PortCtx) = r at hends
    cases hends with
    | ignores =>
      cases hr
      exact hset
    | control hrep _ _ _ _ =>
      cases hr
      exact hset.trans hrep.mutexes
    | command he =>
      have hctx : Mutexes false { c with p := c.p.setCmdCcs } (cmdCtx { c with p := c.p.setCmdCcs } c.p.ccs
          (slotCfis { c with p := c.p.setCmdCcs } c.p.ccs)) := ⟨rfl, id, rfl⟩
      exact hset.trans (hctx.trans (he.mutexes hr.symm))

/-- Every callback, up to `ahci_handle_port`. -/
theorem ahciIoreqBody_mutexes {a : Nat} {err : Errno} {more : Bool}
    (ht : ahciIoreqBody c a err = .ok (t, more)) : Mutexes (callbackEnd c a err).submits c t := by
  have hres := ahciIoreqBody_resumes c a err
  have hctx : Mutexes false c (callbackCtx c a err) := by
    rw [callbackCtx, ahciSetPrdbc]
    split <;> exact ⟨rfl, id, rfl⟩
  refine hctx.trans ?_
  rw [ht] at hres
  generalize callbackEnd c a err = e at hres ⊢
  generalize hr : (Except.ok (t, more) : Except Stop (PortCtx × Bool)) = r at hres
  cases hres with
  | ends tfd hrep _ =>
    cases hr
    exact hrep.mutexes.finished _
  | trims hd =>
    cases hr
    exact hd.reports.mutexes.finished _
  | overruns => cases hr
  | issues hfill =>
    obtain ⟨u, hu, hr⟩ := Except.bind_eq_ok.1 hr.symm
    cases hr
    exact ahciIssue_mutexes hu
  | readsNothing ha hfill =>
    obtain ⟨u, hu, hr⟩ := Except.bind_eq_ok.1 hr.symm
    cases hr
    exact ha.reports.mutexes.trans (ahciIssue_mutexes hu)

end

/-! ## Registers -/

/-- Which mutexes are held: `sc->mtx` or not, and `bc_mtx` or not. -/
structure PortCtx.Locks (held serving : Bool) (c : PortCtx) : Prop where
  mtx : c.sc.mtx.At held
  line : c.sc.LineFree
  queue : c.blk.bc.bcMtx.At serving

section

variable {held serving : Bool} {c t : PortCtx}

theorem Mutexes.locks (h : Mutexes false c t) (hc : c.Locks held serving) : t.Locks held serving := by
  have hqueue : t.blk.bc.bcMtx = c.blk.bc.bcMtx := h.queue
  refine ⟨?_, h.line hc.line, ?_⟩
  · rw [h.mtx]
    exact hc.mtx
  · rw [hqueue]
    exact hc.queue

/-- A request may be submitted where `bc_mtx` is free. -/
theorem Mutexes.locks_free {submits : Bool} (h : Mutexes submits c t) (hc : c.Locks held false) :
    t.Locks held false := by
  cases submits with
  | false => exact h.locks hc
  | true =>
    refine ⟨?_, h.line hc.line, ?_⟩
    · rw [h.mtx]
      exact hc.mtx
    · have hqueue : t.blk.bc.bcMtx = pthreadMutexUnlock (pthreadMutexLock c.blk.bc.bcMtx) := h.queue
      have hfree : c.blk.bc.bcMtx.Free := hc.queue
      rw [hqueue]
      exact hfree.lock_unlock

/-- And nowhere else. -/
theorem Mutexes.locks_iff {submits : Bool} (h : Mutexes submits c t) (hc : c.Locks held serving) :
    t.Locks held serving ↔ (serving = true → submits = false) := by
  cases serving with
  | false => exact ⟨fun _ hno => (nomatch hno), fun _ => h.locks_free hc⟩
  | true =>
    cases submits with
    | false => exact ⟨fun _ _ => rfl, fun _ => h.locks hc⟩
    | true =>
      refine ⟨fun ht => ?_, fun hno => absurd (hno rfl) (by decide)⟩
      have hheld : t.blk.bc.bcMtx.Held := ht.queue
      have hqueue : t.blk.bc.bcMtx = pthreadMutexUnlock (pthreadMutexLock c.blk.bc.bcMtx) := h.queue
      have hlock : t.blk.bc.bcMtx.lock = 0 := by
        rw [hqueue]
        rfl
      exact absurd (hheld.1.symm.trans hlock) (by decide)

theorem blockifCancel_mtx {s : BlockState} {a : Nat} {blk : BlockState} {err : Errno}
    (h : blockifCancel s a = .ok (blk, err)) :
    blk.bc.bcMtx = pthreadMutexUnlock (pthreadMutexLock s.bc.bcMtx) := by
  rw [blockifCancel] at h
  split at h
  · cases h
    simp only [blockifComplete]
    split <;> rfl
  · split at h
    · cases h
      rfl
    · split at h
      · cases h
      · cases h
        rfl

theorem ahciCancel_mutexes {a : Nat} (h : ahciCancel c a = .ok t) : Mutexes true c t := by
  obtain ⟨⟨blk, err⟩, hblk, h⟩ := Except.bind_eq_ok.1 h
  have hmtx := blockifCancel_mtx hblk
  simp only [] at h
  split at h
  · cases h
    exact ⟨rfl, id, hmtx⟩
  · cases h
    simp only [ahciReap, PortCtx.record]
    split <;> exact ⟨rfl, id, hmtx⟩

theorem locks_rules : RegRules (PortCtx.Locks true false) where
  mem := fun _ h => ⟨h.mtx, h.line, h.queue⟩
  regs := fun _ _ _ _ _ _ _ _ _ _ _ _ _ _ h => ⟨h.mtx, h.line, h.queue⟩
  intr := by
    intro c is ie h
    have hraises := ahciPortIntr_raises c.sc { c.p with is := is, ie := ie }
    exact Mutexes.locks (c := c) ⟨hraises.mtx, hraises.lineFree, rfl⟩ h
  reset := fun _ h => (ahciPortReset_reports _).1.mutexes.locks h
  cancel := by
    intro c a as _ h _
    rw [ifReturns_iff]
    exact fun t ht => (ahciCancel_mutexes ht).locks_free h

/-- The mutexes do not belong to a port. -/
theorem PortCtx.Locks.port (h : c.Locks held serving) (p : AhciPort) :
    PortCtx.Locks held serving { c with p := p } := ⟨h.mtx, h.line, h.queue⟩

end

/-! ## The controller -/

/-- Which mutexes are held, in the view of the port functions. -/
def Ahci.Locks (s : Ahci) (held serving : Bool) : Prop := (s.ctx 0).Locks held serving

section

variable {held serving : Bool} {s : Ahci} {sc sc' : AhciSoftc}

/-- What a change of the softc does to its mutexes: nothing. -/
structure AhciSoftc.SameLocks (sc sc' : AhciSoftc) : Prop where
  mtx : sc'.mtx = sc.mtx
  line : sc.LineFree → sc'.LineFree

theorem AhciSoftc.SameLocks.locks (h : s.sc.SameLocks sc') (hs : s.Locks held serving) :
    Ahci.Locks { s with sc := sc' } held serving := by
  refine ⟨?_, h.line hs.line, hs.queue⟩
  have hmtx : s.sc.mtx.At held := hs.mtx
  rw [← h.mtx] at hmtx
  exact hmtx

theorem AhciSoftc.lower_sameLocks (sc : AhciSoftc) : sc.SameLocks sc.lower := by
  rw [AhciSoftc.lower]
  split
  · exact ⟨rfl, pciLintrDeassert_lock⟩
  · exact ⟨rfl, id⟩

theorem AhciSoftc.raise_sameLocks (sc : AhciSoftc) : sc.SameLocks sc.raise := by
  rw [AhciSoftc.raise]
  split
  · exact ⟨rfl, id⟩
  · exact ⟨rfl, pciLintrAssert_lock⟩

theorem ahciGenerateMsis_sameLocks (mask : U32) (nmsg : Nat) :
    sc.SameLocks (ahciGenerateMsis sc mask nmsg) := by
  rw [ahciGenerateMsis]
  generalize List.range nmsg = is
  have hsame : ∀ sc' : AhciSoftc, sc.SameLocks sc' → sc.SameLocks (is.foldl (fun sc i =>
      let mmask : U32 :=
        if ahciPorts ≤ nmsg ∨ i + 1 < nmsg then 1#32 <<< i else 0xffffffff#32 <<< i
      if sc.is &&& mask ≠ 0 ∧ mmask &&& mask ≠ 0 then
        { sc with ascPi := pciGenerateMsi sc.ascPi i }
      else sc) sc') := by
    induction is with
    | nil => exact fun _ h => h
    | cons i is ih =>
      intro sc' h
      refine ih _ ?_
      have hmsi : sc.SameLocks { sc' with ascPi := pciGenerateMsi sc'.ascPi i } := ⟨h.mtx, h.line⟩
      dsimp only
      repeat' split
      all_goals exact hmsi
  exact hsame sc ⟨rfl, id⟩

theorem ahciGenerateIntr_sameLocks (ports : Nat → AhciPort) (mask : U32) :
    sc.SameLocks (ahciGenerateIntr sc ports mask) := by
  rw [ahciGenerateIntr]
  have hset : sc.SameLocks { sc with is := sc.is ||| ahciPortsIs ports } := ⟨rfl, id⟩
  generalize { sc with is := sc.is ||| ahciPortsIs ports } = sc₁ at hset ⊢
  have hthen : ∀ sc₂ : AhciSoftc, sc₁.SameLocks sc₂ → sc.SameLocks sc₂ := fun sc₂ h =>
    ⟨h.mtx.trans hset.mtx, fun hline => h.line (hset.line hline)⟩
  simp only []
  split
  · exact hthen _ sc₁.lower_sameLocks
  · split
    · exact hthen _ sc₁.raise_sameLocks
    · exact hthen _ (ahciGenerateMsis_sameLocks _ _)

theorem ahciReset_locks (hs : s.Locks held serving) : (ahciReset s).Locks held serving := by
  have hfold : ∀ (is : List Nat) (s : Ahci), s.Locks held serving →
      (is.foldl (fun s i => s.put i (ahciResetPort (s.ctx i))) s).Locks held serving := by
    intro is
    induction is with
    | nil => exact fun _ hs => hs
    | cons i is ih =>
      intro s hs
      refine ih _ ?_
      have hi : (s.ctx i).Locks held serving := hs.port (s.port i)
      have hreset : Mutexes false (s.ctx i) (ahciResetPort (s.ctx i)) := by
        rw [ahciResetPort]
        refine Mutexes.trans ?_ (ahciPortReset_reports _).1.mutexes
        exact ⟨rfl, id, rfl⟩
      have hput := hreset.locks hi
      exact ⟨hput.mtx, hput.line, hput.queue⟩
  refine hfold _ _ (AhciSoftc.SameLocks.locks ?_ hs)
  have hlower := AhciSoftc.lower_sameLocks { s.sc with ghc := ahciGhcAE, is := 0 }
  exact ⟨hlower.mtx, hlower.line⟩

theorem pciAhciHostWrite_locks (hs : s.Locks held serving) (offset value : U64) :
    (pciAhciHostWrite s offset value).Locks held serving := by
  have hset : ∀ (ghc is : U32) (mask : U32), Ahci.Locks { s with
      sc := ahciGenerateIntr { s.sc with ghc := ghc, is := is } s.port mask } held serving := by
    intro ghc is mask
    refine AhciSoftc.SameLocks.locks ?_ hs
    have hintr := @ahciGenerateIntr_sameLocks { s.sc with ghc := ghc, is := is } s.port mask
    exact ⟨hintr.mtx, hintr.line⟩
  rw [pciAhciHostWrite]
  split
  · split
    · exact ahciReset_locks hs
    · exact hset _ _ _
  · split
    · exact hset _ _ _
    · exact hs

end

/-! ## Runs -/

section

variable {serving : Bool} {s : Ahci} {c : PortCtx}

theorem PortCtx.Locks.lock (h : c.Locks false serving) : c.lockMtx.Locks true serving :=
  ⟨PthreadMutex.Free.lock h.mtx, h.line, h.queue⟩

theorem PortCtx.Locks.unlock (h : c.Locks true serving) : c.unlockMtx.Locks false serving :=
  ⟨PthreadMutex.Held.unlock h.mtx, h.line, h.queue⟩

theorem Ahci.Locks.lock (h : s.Locks false serving) : s.lockMtx.Locks true serving :=
  PortCtx.Locks.lock h

theorem Ahci.Locks.unlock (h : s.Locks true serving) : s.unlockMtx.Locks false serving :=
  PortCtx.Locks.unlock h

/-- The mutexes after a port function are those that it has left. -/
theorem Ahci.locks_put {held : Bool} (s : Ahci) (i : Nat) :
    (s.put i c).Locks held serving ↔ c.Locks held serving :=
  ⟨fun h => ⟨h.mtx, h.line, h.queue⟩, fun h => ⟨h.mtx, h.line, h.queue⟩⟩

end

namespace AhciPhase

/-- `sc->mtx` is held. -/
def holds : AhciPhase → Bool
  | write _ _ | callback _ _ => true
  | idle | serving => false

/-- `bc_mtx` is held. -/
def serves : AhciPhase → Bool
  | serving | callback _ _ => true
  | idle | write _ _ => false

end AhciPhase

/-- Each mutex of the controller is held where it should be, and no assertion of the shim has
failed on one. -/
def AhciSmall.Locks (s : AhciSmall) : Prop := s.dev.Locks s.phase.holds s.phase.serves

/-- Where `blockif_thr` calls back, nothing is submitted: the callback ends its command, and
`ahci_handle_port` looks at no slot that submits a request. -/
def AhciSmall.SubmitsOutside (s : AhciSmall) : AhciSmallLabel → Prop
  | .serve => ∀ be q, s.dev.blk.bc.bcPendq = be :: q →
      (callbackEnd (serveEntry (s.dev.ctx 0) be q).lockMtx be.beReq
        (serveErr (s.dev.ctx 0) be)).submits = false
  | .visit => s.phase.serves = true → (s.dev.ctx 0).visitSubmits = false
  | _ => True

/-- A callback looks at port 0 only. -/
theorem AhciSmall.looking_serves {s : AhciSmall} {i : Nat} (hlooks : s.phase.looping = some i)
    (hserves : s.phase.serves = true) : i = 0 := by
  cases hphase : s.phase with
  | idle | write =>
    rw [hphase] at hserves
    cases hserves
  | serving =>
    rw [hphase] at hlooks
    cases hlooks
  | callback be looping =>
    rw [hphase] at hlooks
    cases looping with
    | true => exact (Option.some.inj hlooks).symm
    | false => cases hlooks

/-- **One event** keeps the mutexes right exactly if it submits nothing where it must not. -/
theorem AhciSmallStep.locks_iff {s t : AhciSmall} {l : AhciSmallLabel} (hok : s.Ok) (hs : s.Locks)
    (h : AhciSmallStep s l t) : t.Locks ↔ s.SubmitsOutside l := by
  rw [AhciSmall.Locks] at hs
  cases h with
  | hostWrite offset value hphase _ _ =>
    refine ⟨fun _ => trivial, fun _ => ?_⟩
    rw [hphase] at hs
    rw [AhciSmall.Locks, hphase, ahciHostWrite]
    split
    · exact (pciAhciHostWrite_locks hs.lock offset value).unlock
    · exact hs.lock.unlock
  | @portWrite c more offset value hphase _ _ hc =>
    refine ⟨fun _ => trivial, fun _ => (Ahci.locks_put _ _).2 ?_⟩
    rw [hphase] at hs
    have hdev := hok.dev (by rw [hphase]; rfl)
    by_cases hi : ahciPortNo offset = 0
    · rw [hi] at hc
      have htracked : Tracked [] (s.dev.lockMtx.ctx 0) := Tracks.congr hdev.tracked rfl rfl rfl rfl rfl rfl
      exact (locks_rules.entry htracked hs.lock _ _).of_ok hc
    · obtain ⟨-, -, m, p, rfl⟩ := (ahciPortWriteEntry_closed (c := s.dev.lockMtx.ctx (ahciPortNo offset))
        (hok.closed _ hi) _ _).of_ok hc
      have hlock := hs.lock
      exact ⟨hlock.mtx, hlock.line, hlock.queue⟩
  | read regoff size hphase hr =>
    refine ⟨fun _ => trivial, fun _ => ?_⟩
    obtain ⟨_, -, hr⟩ := Except.bind_eq_ok.1 hr
    obtain ⟨_, -, hr⟩ := Except.bind_eq_ok.1 hr
    obtain ⟨_, -, hr⟩ := Except.bind_eq_ok.1 hr
    cases hr
    rw [hphase] at hs
    rw [AhciSmall.Locks, hphase]
    exact hs.lock.unlock
  | config command msi msixEnabled =>
    exact ⟨fun _ => trivial, fun _ => ⟨hs.mtx, pciLintrUpdate_lock hs.line, hs.queue⟩⟩
  | guest => exact ⟨fun _ => trivial, fun _ => ⟨hs.mtx, hs.line, hs.queue⟩⟩
  | enter hphase =>
    rw [hphase] at hs
    exact ⟨fun _ => trivial, fun _ => ⟨hs.mtx, hs.line, PthreadMutex.Free.lock hs.queue⟩⟩
  | leave hphase =>
    rw [hphase] at hs
    exact ⟨fun _ => trivial, fun _ => ⟨hs.mtx, hs.line, PthreadMutex.Held.unlock hs.queue⟩⟩
  | @serve be bc d c err more hphase hdeq hproc hbody =>
    rw [hphase] at hs
    obtain ⟨e, q, hpend, rfl, rfl, rfl⟩ := serve_eq (hok.dev (by rw [hphase]; rfl)).tracked hdeq hproc
    have hentry : (serveEntry (s.dev.ctx 0) e q).Locks false true := by
      refine ⟨hs.mtx, hs.line, ?_⟩
      exact hs.queue
    have hiff := (ahciIoreqBody_mutexes hbody).locks_iff hentry.lock
    refine (Ahci.locks_put _ _).trans (hiff.trans ?_)
    constructor
    · intro hno be' q' hpend'
      have hcons : e :: q = be' :: q' := hpend.symm.trans hpend'
      cases hcons
      exact hno rfl
    · exact fun hno _ => hno e q hpend
  | @visit c i hlooks hc =>
    refine (Ahci.locks_put _ _).trans ?_
    rcases hok.visited hc with ⟨rfl, -⟩ | ⟨hi, rfl⟩
    · have hiff := (ahciVisit_mutexes hok.tracked.opened hc).locks_iff hs
      exact ⟨fun h => hiff.1 ⟨h.mtx, h.line, h.queue⟩, fun h => (hiff.2 h).port _⟩
    · refine ⟨fun _ hserves => ?_, fun _ => hs.port _⟩
      exact absurd (AhciSmall.looking_serves hlooks.1 hserves) hi
  | written hphase _ =>
    refine ⟨fun _ => trivial, fun _ => ?_⟩
    rw [hphase] at hs
    exact hs.unlock
  | @served be looping hphase _ =>
    refine ⟨fun _ => trivial, fun _ => (Ahci.locks_put _ _).2 ?_⟩
    rw [hphase] at hs
    have hunlock := hs.unlock
    refine ⟨hunlock.mtx, hunlock.line, ?_⟩
    have hqueue : s.dev.blk.bc.bcMtx.At true := hs.queue
    simp only [blockifFinish, blockifComplete, ahciClient]
    split <;> exact hqueue

/-- A request submitted in a callback fails an assertion. -/
theorem Mutexes.unsound {c t : PortCtx} {held submits : Bool} (h : Mutexes submits c t)
    (hc : c.Locks held true) (hsubmits : submits ≠ false) : t.blk.bc.bcMtx.sound = false := by
  have hqueue := h.queue
  have hheld : c.blk.bc.bcMtx.Held := hc.queue
  rw [if_pos (Bool.eq_true_of_not_eq_false hsubmits)] at hqueue
  rw [hqueue, ← Bool.not_eq_true]
  intro hsound
  exact absurd (PthreadMutex.unlock_sound_of_sound hsound) (by rw [hheld.lock_sound]; decide)

/-- An event that submits where it must not fails an assertion of the shim. -/
theorem AhciSmallStep.unsound {s t : AhciSmall} {l : AhciSmallLabel} (hok : s.Ok) (hs : s.Locks)
    (h : AhciSmallStep s l t) (hsubmits : ¬ s.SubmitsOutside l) :
    t.dev.blk.bc.bcMtx.sound = false := by
  rw [AhciSmall.Locks] at hs
  cases h with
  | hostWrite | portWrite | read | config | guest | enter | leave | written | served =>
    exact absurd trivial hsubmits
  | @serve be bc d c err more hphase hdeq hproc hbody =>
    rw [hphase] at hs
    obtain ⟨e, q, hpend, rfl, rfl, rfl⟩ := serve_eq (hok.dev (by rw [hphase]; rfl)).tracked hdeq hproc
    have hentry : (serveEntry (s.dev.ctx 0) e q).Locks false true := ⟨hs.mtx, hs.line, hs.queue⟩
    refine (ahciIoreqBody_mutexes hbody).unsound hentry.lock fun hno => hsubmits ?_
    intro be' q' hpend'
    have hcons : e :: q = be' :: q' := hpend.symm.trans hpend'
    cases hcons
    exact hno
  | @visit c i hlooks hc =>
    simp only [AhciSmall.SubmitsOutside, Classical.not_imp] at hsubmits
    obtain ⟨hserves, hvisit⟩ := hsubmits
    rw [hserves] at hs
    rcases hok.visited hc with ⟨rfl, -⟩ | ⟨hi, rfl⟩
    · exact (ahciVisit_mutexes hok.tracked.opened hc).unsound hs hvisit
    · exact absurd (AhciSmall.looking_serves hlooks.1 hserves) hi

theorem AhciSmallInitial.locks {s : AhciSmall} (h : AhciSmallInitial s) : s.Locks := by
  obtain ⟨⟨⟨ctx, base, atapi, ident, mem, stack, hdev⟩, -⟩, hphase⟩ := h
  have hdev' : s.dev = pciAhciInit ctx base atapi ident mem stack := hdev
  rw [AhciSmall.Locks, hphase, hdev']
  refine ahciReset_locks ⟨?_, ?_, ?_⟩
  · exact PthreadMutex.free_init
  · exact PthreadMutex.free_init
  · exact PthreadMutex.free_init

end DeviceModel
