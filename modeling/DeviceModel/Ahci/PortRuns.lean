import DeviceModel.Ahci.Ports

/-!
# What holds of every port over a run

The requests of each opened port are tracked, as those of a single one are, and the port
keeps its number. What is done to one port leaves the others as they are.
-/

namespace DeviceModel

/-! ## The number of a port -/

section

variable {n : Nat} {c : PortCtx} {slot : Slot} {cfis : U64}

theorem ahciFinished_port (c : PortCtx) (slot : Slot) :
    (ahciFinished c slot).p.port = c.p.port := by
  rw [ahciFinished, ahciCheckStopped]
  split <;> rfl

theorem ahciIssue_port (slot : Slot)
    (fill : BlockifReq → Except Stop (AhciIoreq × BlockifReq)) (ncq : Bool) (op : Blockop) :
    IfReturns (fun t => t.p.port = c.p.port) (ahciIssue c slot fill ncq op) := by
  rw [ifReturns_iff]
  intro t ht
  obtain ⟨a, free, aior, breq, breq', -, -, hi⟩ := ahciIssue_issued ht
  exact hi.frame.port

theorem EndsWith.port {e : CmdEnd} {r : Except Stop PortCtx} (he : EndsWith c slot cfis e r) :
    IfReturns (fun t => t.p.port = c.p.port) r := by
  cases he with
  | fails ha | succeeds ha => exact ha.reports.port
  | trims ht => exact (ahciFinished_port _ slot).trans ht.reports.port
  | issues _ _ | aborts _ _ => exact ahciIssue_port slot _ _ _
  | readsNothing ha _ _ =>
    exact (ahciIssue_port slot _ _ _).mono fun t ht => ht.trans ha.reports.port

theorem Resumes.port {e : CallbackEnd} {r : Except Stop (PortCtx × Bool)}
    (he : Resumes c slot cfis e r) : IfReturns (fun r => r.1.p.port = c.p.port) r := by
  cases he with
  | ends tfd hr hlog => exact (ahciFinished_port _ slot).trans hr.port
  | trims ht => exact (ahciFinished_port _ slot).trans ht.reports.port
  | overruns => exact trivial
  | issues _ => exact (ahciIssue_port slot _ _ _).bind fun t ht => ht
  | readsNothing ha _ =>
    exact (ahciIssue_port slot _ _ _).bind fun t ht => ht.trans ha.reports.port

/-- No function writes `p->port`. -/
theorem port_rules (n : Nat) : PortRules fun c => c.p.port = n where
  mem := fun _ h => h
  regs := fun _ _ _ _ _ _ _ _ _ _ _ _ _ _ h => h
  intr := fun _ _ h => h
  reset := fun _ h => (ahciPortReset_reports _).1.port.trans h
  visit := by
    intro busy c htracked h hvisits
    have hends := ahciVisit_ends hvisits htracked.opened
    generalize ahciVisit c = r at hends ⊢
    generalize slotEnd _ _ = e at hends
    cases hends with
    | ignores => exact h
    | control hr _ _ _ _ => exact hr.port.trans h
    | command he => exact he.port.mono fun t ht => ht.trans h
  cancel := by
    intro c a as _ h _
    rw [ifReturns_iff]
    intro t ht
    obtain ⟨⟨blk, err⟩, -, ht⟩ := Except.bind_eq_ok.1 ht
    simp only [] at ht
    split at ht
    · cases ht
      exact h
    · cases ht
      simp only [ahciReap, PortCtx.record]
      split <;> exact h

end

/-- What holds of an opened port between events. -/
structure PortOk (i : Nat) (c : PortCtx) : Prop where
  tracked : Tracked [] c
  number : c.p.port = i

namespace PortOk

variable {i : Nat} {c d : PortCtx}

/-- It is kept by what keeps the lists, the request structures and the queues. -/
theorem congr (h : PortOk i c) (hp : d.p = c.p) (hbc : d.blk.bc = c.blk.bc)
    (hreqs : d.blk.reqs = c.blk.reqs) : PortOk i d := by
  refine ⟨?_, by rw [hp, h.number]⟩
  rw [Tracked, hp]
  apply Tracks.congr h.tracked <;> simp only [hp, hbc, hreqs]

/-- **A register write.** -/
theorem writeReg (h : PortOk i c) (fuel : Nat) (M : Nat → Mem) (reg : AhciPortReg) (value : U32) :
    IfReturns (PortOk i) (ahciPortWriteReg fuel M c reg value) := by
  have htracked := (ahciPortWriteReg_tracked h.tracked fuel M reg value).allow fun _ _ => trivial
  have hnumber := (port_rules i).writeReg h.tracked h.number fuel M reg value
  exact (htracked.and hnumber).mono fun t ⟨ht, hi⟩ => ⟨ht, hi⟩

/-- **A reset.** -/
theorem resetPort (h : PortOk i c) : PortOk i (ahciResetPort c) :=
  ⟨ahciResetPort_tracked h.tracked, (ahciPortReset_reports _).1.port.trans h.number⟩

/-- **`blockif_thr`** serves one request. -/
theorem serve (h : PortOk i c) {fuel : Nat} {M : Nat → Mem} {t : PortCtx}
    (ht : blockifServe (ahciClient fuel M) c = .ok (some t)) : PortOk i t := by
  refine ⟨(blockifServe_tracked h.tracked fuel M).of_ok ht t rfl, ?_⟩
  cases hpend : c.blk.bc.bcPendq with
  | nil =>
    rw [blockifServe_nil h.tracked.queue h.tracked.busyq hpend] at ht
    cases ht
  | cons be q =>
    rw [blockifServe_cons h.tracked.queue h.tracked.busyq hpend] at ht
    obtain ⟨u, hu, ht⟩ := Except.bind_eq_ok.1 ht
    cases ht
    have hbody : IfReturns (fun r => r.1.p.port = i)
        (ahciIoreqBody (serveEntry c be q).lockMtx be.beReq (serveErr c be)) := by
      refine (ahciIoreqBody_resumes _ _ _).port.mono fun r hr => hr.trans ?_
      rw [callbackCtx, ahciSetPrdbc]
      split <;> exact h.number
    have hcb := (port_rules i).callback (serveErr c be) (h.tracked.reap hpend) (Nat.le_refl 1) hbody
      fuel M
    obtain ⟨v, hv, rfl⟩ := hcb.of_ok hu
    exact hv

end PortOk

/-! ## What holds between events -/

/-- Each opened port has a register block, its requests are tracked, and it has its own
number. `blockif_sc` names the context of an opened port. -/
structure AhciHba.Ok (s : AhciHba) : Prop where
  least : ahciPorts ≤ s.ports
  most : s.ports ≤ ahciMaxPorts
  opened : ∀ i, (s.port i).opened = true → i < s.ports ∧ PortOk i (s.ctx i)
  last : ∀ i, s.last = some i → (s.port i).opened = true

namespace AhciHba

variable {s t : AhciHba} {c : PortCtx} {i j : Nat}

/-- The port as another port's function leaves it. -/
theorem SamePort.portOk (h : SamePort s t j) (hj : PortOk j (s.ctx j)) : PortOk j (t.ctx j) :=
  hj.congr h.port h.bc h.reqs

namespace Ok

/-- A call on an opened port. -/
theorem put (h : s.Ok) (hi : (s.port i).opened = true) (hc : PortOk i c) : (s.put i c).Ok := by
  have hopen : c.p.opened = true := hc.tracked.opened
  refine ⟨h.least, h.most, fun j hj => ?_, fun j hj => ?_⟩
  · by_cases hij : j = i
    · subst hij
      rw [ctx_put]
      exact ⟨(h.opened j hi).1, hc⟩
    · have hsame := s.put_samePort c hij
      rw [hsame.port] at hj
      exact ⟨(h.opened j hj).1, hsame.portOk (h.opened j hj).2⟩
  · by_cases hij : j = i
    · rw [hij, put_port]
      exact hopen
    · rw [(s.put_samePort c hij).port]
      exact h.last j hj

/-- A call on a port that is not opened. -/
theorem put_closed (h : s.Ok) (hi : (s.port i).opened = false) (hc : c.p.opened = false) :
    (s.put i c).Ok := by
  have hne : ∀ j, (s.port j).opened = true → j ≠ i := by
    rintro j hj rfl
    exact absurd (hi.symm.trans hj) Bool.false_ne_true
  refine ⟨h.least, h.most, fun j hj => ?_, fun j hj => ?_⟩
  · have hij : j ≠ i := by
      rintro rfl
      rw [put_port, hc] at hj
      cases hj
    have hsame := s.put_samePort c hij
    rw [hsame.port] at hj
    exact ⟨(h.opened j hj).1, hsame.portOk (h.opened j hj).2⟩
  · rw [(s.put_samePort c (hne j (h.last j hj))).port]
    exact h.last j hj

/-- A change of what the ports share. -/
theorem shared (h : s.Ok) (sc : AhciSoftc) (mem : Mem) (stack : Nat → U8) :
    Ok { s with sc := sc, mem := mem, stack := stack } :=
  ⟨h.least, h.most, fun i hi => ⟨(h.opened i hi).1, (h.opened i hi).2.congr rfl rfl rfl⟩, h.last⟩

theorem setBcMtx (h : s.Ok) (i : Nat) (f : PthreadMutex → PthreadMutex) : (s.setBcMtx i f).Ok := by
  refine ⟨h.least, h.most, fun j hj => ?_, h.last⟩
  obtain ⟨hlt, hok⟩ := h.opened j hj
  by_cases hij : j = i
  · subst hij
    have hq := hok.tracked.queue
    have hbc : (s.setBcMtx j f).bc j = { s.bc j with bcMtx := f (s.bc j).bcMtx } :=
      Function.update_self _ _ _
    refine ⟨hlt, ⟨⟨hok.tracked.opened, hok.tracked.part, hok.tracked.slots, hok.tracked.bits, ?_, ?_,
      ?_⟩, hok.number⟩⟩
    · simp only [ctx, hbc]
      exact hq.congr rfl rfl rfl fun _ _ => rfl
    · simp only [ctx, hbc]
      exact hok.tracked.busyq
    · simp only [ctx, hbc]
      exact hok.tracked.queued
  · have hbc : (s.setBcMtx i f).bc j = s.bc j := Function.update_of_ne hij _ _
    exact ⟨hlt, hok.congr rfl hbc rfl⟩

/-- **A reset of the controller.** -/
theorem ahciReset (h : s.Ok) : s.ahciReset.Ok := by
  have hfold : ∀ (is : List Nat) (s : AhciHba), s.Ok →
      (is.foldl (fun s i => s.put i (ahciResetPort (s.ctx i))) s).Ok := by
    intro is
    induction is with
    | nil => exact fun _ h => h
    | cons i is ih =>
      intro s h
      refine ih _ ?_
      cases hi : (s.port i).opened with
      | true => exact h.put hi (h.opened i hi).2.resetPort
      | false => exact h.put_closed hi (ahciResetPort_closed (c := s.ctx i) hi).closed
  exact hfold _ _ (h.shared _ _ _)

theorem pciAhciHostWrite (h : s.Ok) (offset value : U64) : (s.pciAhciHostWrite offset value).Ok := by
  rw [AhciHba.pciAhciHostWrite]
  split
  · split
    · exact h.ahciReset
    · exact h.shared _ _ _
  · split
    · exact h.shared _ _ _
    · exact h

theorem pciAhciPortWrite (h : s.Ok) (fuel : Nat) (M : Nat → Mem) (offset value : U64) :
    IfReturns Ok (s.pciAhciPortWrite fuel M offset value) := by
  rw [AhciHba.pciAhciPortWrite]
  cases hi : (s.port (ahciPortNo offset)).opened with
  | true =>
    exact ((h.opened _ hi).2.writeReg fuel M _ _).bind fun c hc => Ensures.ok (h.put hi hc)
  | false =>
    have hclosed := ahciPortWriteReg_closed (c := s.ctx (ahciPortNo offset)) hi fuel M
      (ahciPortReg ((offset - ahciOffset) % ahciStep)) (value.setWidth 32)
    exact (hclosed.allow fun _ _ => trivial).bind fun c hc =>
      Ensures.ok (h.put_closed hi hc.closed)

/-- **A register write.** -/
theorem pciAhciWrite (h : s.Ok) (fuel : Nat) (M : Nat → Mem) (baridx : Nat) (offset value : U64) :
    IfReturns Ok (s.pciAhciWrite fuel M baridx offset value) := by
  have hlock : s.lockMtx.Ok := h.shared _ _ _
  rw [AhciHba.pciAhciWrite]
  refine Ensures.bind (Ensures.assert fun _ => trivial) fun _ _ => ?_
  refine Ensures.bind (Ensures.assert fun _ => trivial) fun _ _ => ?_
  have hbody : IfReturns Ok (s.lockMtx.pciAhciWriteBody fuel M offset value) := by
    rw [pciAhciWriteBody]
    split
    · exact hlock.pciAhciHostWrite offset value
    · split
      · exact hlock.pciAhciPortWrite fuel M offset value
      · exact hlock
  exact hbody.bind fun t ht => Ensures.ok (ht.shared _ _ _)

end Ok

end AhciHba

/-! ## Runs -/

/-- One event keeps it. -/
theorem HbaStep.ok {s t : HbaSys} {l : AhciLabel} (hs : s.dev.Ok) (h : HbaStep s l t) :
    t.dev.Ok := by
  cases h with
  | write fuel M baridx offset value _ hw => exact (hs.pciAhciWrite fuel M baridx offset value).of_ok hw
  | read baridx regoff size _ hr =>
    obtain ⟨_, -, hr⟩ := Except.bind_eq_ok.1 hr
    obtain ⟨_, -, hr⟩ := Except.bind_eq_ok.1 hr
    obtain ⟨_, -, hr⟩ := Except.bind_eq_ok.1 hr
    cases hr
    exact hs.shared _ _ _
  | config => exact hs.shared _ _ _
  | guest => exact hs.shared _ _ _
  | enter | leave => exact hs.setBcMtx _ _
  | serve fuel M _ hlast hserve =>
    have hi := hs.last _ hlast
    exact hs.put hi ((hs.opened _ hi).2.serve hserve)

/-- Opening a port. -/
theorem AhciHba.openPort_portOk (base : U64) (ident : List Char → List U8) (s : AhciHba)
    (o : AhciPortOpts) : PortOk o.port ((s.openPort base ident o).ctx o.port) := by
  have hp : (s.openPort base ident o).port o.port =
      { ahciPortOpened o.atapi (ident o.opts) with port := o.port } := Function.update_self _ _ _
  have hbc : (s.openPort base ident o).bc o.port = blockifOpen base := Function.update_self _ _ _
  have hstart := (ahciOpened_tracked ⟨0⟩ base o.atapi (ident o.opts) (fun _ => 0) fun _ => 0).tracked
  refine ⟨?_, by rw [ctx, hp]⟩
  rw [Tracked]
  simp only [ctx, hp, hbc]
  exact ⟨hstart.opened, hstart.part, hstart.slots, hstart.bits, queueOk_open base _, rfl, List.Perm.nil⟩

/-- The ports that the loop of `pci_ahci_init` opens are those that it counts. -/
theorem ahciOpenLoop_lt : ∀ (n p : Nat) (atapi : Bool) (opts : Option (List Char)),
    p ≤ ahciOpenEnd n p atapi opts ∧ ahciOpenEnd n p atapi opts ≤ p + n ∧
      ∀ o ∈ ahciOpenLoop n p atapi opts, o.port < ahciOpenEnd n p atapi opts := by
  intro n
  induction n with
  | zero => exact fun p _ _ => ⟨Nat.le_refl p, Nat.le_refl p, fun o ho => absurd ho List.not_mem_nil⟩
  | succ n ih =>
    intro p atapi opts
    cases opts with
    | none =>
      exact ⟨Nat.le_refl p, Nat.le_add_right p _, fun o ho => absurd ho List.not_mem_nil⟩
    | some s =>
      rw [ahciOpenEnd, ahciOpenLoop]
      obtain ⟨hle, hmost, hmem⟩ := ih (p + 1) (ahciPortType atapi s).1
        ((ahciNextPort (ahciPortType atapi s).2).map fun i => (ahciPortType atapi s).2.drop (i + 1))
      refine ⟨(Nat.le_succ p).trans hle, hmost.trans (by omega), fun o ho => ?_⟩
      simp only [] at ho
      split at ho
      · exact hmem o ho
      · rcases List.mem_cons.1 ho with rfl | ho
        · exact hle
        · exact hmem o ho

theorem AhciHba.ofOpts_ok (ctx : Vmctx) (base : U64) (opts : Option (List Char)) (atapi : Bool)
    (ident : List Char → List U8) (mem : Mem) (stack : Nat → U8) :
    (ofOpts ctx base opts atapi ident mem stack).Ok := by
  obtain ⟨-, hmost, hmem⟩ := ahciOpenLoop_lt ahciMaxPorts 0 atapi opts
  have hfold : ∀ (l : List AhciPortOpts) (s : AhciHba), s.Ok → (∀ o ∈ l, o.port < s.ports) →
      (l.foldl (openPort base ident) s).Ok := by
    intro l
    induction l with
    | nil => exact fun _ h _ => h
    | cons o l ih =>
      intro s h hl
      refine ih _ ?_ fun o' ho' => hl o' (List.mem_cons_of_mem o ho')
      refine ⟨h.least, h.most, fun i hi => ?_, fun i hi => ?_⟩
      · by_cases hio : i = o.port
        · rw [hio]
          exact ⟨hl o List.mem_cons_self, s.openPort_portOk base ident o⟩
        · have hp : (s.openPort base ident o).port i = s.port i := Function.update_of_ne hio _ _
          have hbc : (s.openPort base ident o).bc i = s.bc i := Function.update_of_ne hio _ _
          rw [hp] at hi
          exact ⟨(h.opened i hi).1, (h.opened i hi).2.congr hp hbc rfl⟩
      · have hi' : o.port = i := Option.some.inj hi
        rw [← hi', openPort]
        simp only [Function.update_self]
        rfl
  refine hfold _ _ ⟨Nat.le_max_right _ _, ?_, fun i hi => (nomatch hi), fun i hi => (nomatch hi)⟩
    fun o ho => Nat.lt_of_lt_of_le (hmem o ho) (Nat.le_max_left _ _)
  rw [Nat.zero_add] at hmost
  exact Nat.max_le.2 ⟨hmost, by decide⟩

/-- The invariant holds in every reachable state. -/
theorem Reaches.ok {s : HbaSys} (h : Reaches HbaStep HbaInitial s) : s.dev.Ok := by
  refine h.invariant (I := fun s => s.dev.Ok) ?_ fun _ _ _ hs hstep => hstep.ok hs
  rintro s ⟨⟨ctx, base, opts, atapi, ident, mem, stack, hdev⟩, -⟩
  rw [hdev]
  exact (AhciHba.ofOpts_ok ctx base opts atapi ident mem stack).ahciReset

end DeviceModel
