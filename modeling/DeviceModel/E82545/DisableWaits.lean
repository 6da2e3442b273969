import DeviceModel.E82545.System

/-!
# When the disable waits end

`e82545_tx_disable` and `e82545_rx_disable` wait for an active flag that nothing
clears while they wait. The receive flag is set only inside `net_intr`. The transmit
flag, though, is left set by an `e1000_poll` that had work to do, until a later poll
finds none. So a disabling write returns exactly when the last poll found nothing to
transmit.
-/

namespace DeviceModel

/-! ## The flags -/

/-- A register write that returns leaves the active flags alone, and RDLEN keeps
only the bits that its mask lets through. -/
theorem e82545WriteReg_flags {fuel : Nat} {sc t : E82545Softc} {reg : E1000Reg} {value : U32}
    (h : e82545WriteReg fuel sc reg value = .ok t) :
    t.tx.escTxActive = sc.tx.escTxActive ∧ t.rx.escRxActive = sc.rx.escRxActive ∧
      (t.rx.escRDLEN = sc.rx.escRDLEN ∨ ∃ v, t.rx.escRDLEN = v &&& ~~~0xFFF0007F#32) := by
  cases reg with
  | ctrl | ctrlDup =>
    simp only [e82545WriteReg, e82545Devctl] at h
    split at h
    · obtain ⟨-, -, -, rfl⟩ := e82545Reset_eq_ok.1 h
      refine ⟨?_, ?_, .inr ⟨0, ?_⟩⟩
      · simp [e82545ResetRegs, e82545ResetTx, e82545ResetIntr]
      · simp [e82545ResetRegs, e82545ResetRx, e82545ResetIntr]
      · simp [e82545ResetRegs, e82545ResetRx]
    · cases h
      exact ⟨rfl, rfl, .inl rfl⟩
  | rctl =>
    simp only [e82545WriteReg, e82545RxCtl] at h
    split at h
    · split at h
      · cases h
        exact ⟨rfl, rfl, .inl rfl⟩
      · obtain ⟨s, hs, h⟩ := Except.bind_eq_ok.1 h
        obtain ⟨-, -, rfl⟩ := condWaitWhile_eq_ok.1 hs
        cases h
        exact ⟨rfl, rfl, .inl rfl⟩
    · cases h
      exact ⟨rfl, rfl, .inl rfl⟩
  | tctl =>
    simp only [e82545WriteReg, e82545TxCtl] at h
    split at h
    · cases h
      exact ⟨rfl, rfl, .inl rfl⟩
    · split at h
      · cases h
        exact ⟨rfl, rfl, .inl rfl⟩
      · obtain ⟨s, hs, h⟩ := Except.bind_eq_ok.1 h
        obtain ⟨-, -, rfl⟩ := condWaitWhile_eq_ok.1 hs
        cases h
        exact ⟨rfl, rfl, .inl rfl⟩
  | icr | itr | ics | ims | imc =>
    cases h
    obtain ⟨pi, intr, hframe⟩ := e82545IntrWrite_frame sc _ value
    rw [hframe]
    exact ⟨rfl, rfl, .inl rfl⟩
  | rdbal | tdbal | tdt =>
    simp only [e82545WriteReg] at h
    cases h
    split <;> exact ⟨rfl, rfl, .inl rfl⟩
  | rdlen =>
    obtain ⟨u, -, h⟩ := Except.bind_eq_ok.1 h
    cases h
    exact ⟨rfl, rfl, .inr ⟨value, rfl⟩⟩
  | rdbah | ra _ =>
    obtain ⟨u, -, h⟩ := Except.bind_eq_ok.1 h
    cases h
    exact ⟨rfl, rfl, .inl rfl⟩
  | _ =>
    cases h
    exact ⟨rfl, rfl, .inl rfl⟩

/-- So does a BAR write. -/
theorem e82545Write_flags {fuel : Nat} {sc t : E82545Softc} {baridx : Nat} {offset : U64}
    {size : Nat} {value : U64} (h : e82545Write fuel sc baridx offset size value = .ok t) :
    t.tx.escTxActive = sc.tx.escTxActive ∧ t.rx.escRxActive = sc.rx.escRxActive ∧
      (t.rx.escRDLEN = sc.rx.escRDLEN ∨ ∃ v, t.rx.escRDLEN = v &&& ~~~0xFFF0007F#32) := by
  rcases e82545Write_cases h with ⟨-, w, rfl⟩ | ⟨reg, u, -, hu, rfl⟩
  · exact ⟨rfl, rfl, .inl rfl⟩
  · have hflags := e82545WriteReg_flags hu
    exact hflags

/-- After a poll the transmit flag says whether the poll found work. -/
theorem e1000Poll_txActive {b : Build} {fuel : Nat} {s t : E1000} (h : e1000Poll b fuel s = .ok t) :
    t.sc.tx.escTxActive = e82545TxWork s.sc ∧ t.sc.rx = s.sc.rx := by
  rcases e82545TxPoll_cases h with ⟨hidle, rfl⟩ | ⟨hrun, x, head, rhead, tdwb, any, mtx, pi, intr, -, rfl⟩
  · refine ⟨?_, rfl⟩
    have hwork : e82545TxWork s.sc = false := by
      by_contra hwork
      exact hidle (by simpa [e82545TxWork] using hwork)
    exact hwork.symm
  · refine ⟨?_, rfl⟩
    have hwork : e82545TxWork s.sc = true := by simpa [e82545TxWork] using hrun
    exact hwork.symm

/-- From the loop condition on, the receive flag says whether `net_intr` is still in
the loop. -/
theorem e82545RxLoop_flags (s : E1000) (l : RxLocals) (hs : s.sc.rx.escRxActive = true) :
    (e82545RxLoop s l).1.sc.tx.escTxActive = s.sc.tx.escTxActive ∧
      (e82545RxLoop s l).1.sc.rx.escRxActive = (e82545RxLoop s l).2.inLoop := by
  rcases e82545RxLoop_cases s l with ⟨-, -, heq⟩ | ⟨-, heq⟩
  · rw [heq]
    exact ⟨rfl, hs⟩
  · obtain ⟨mtx, pi, intr, hframe⟩ := e82545RxDone_frame s.sc l
    rw [heq, hframe]
    exact ⟨rfl, rfl⟩

theorem e82545TapCallback_flags {s t : E1000} {at' : NetIntr}
    (hs : s.sc.rx.escRxActive = false) (h : e82545TapCallback s = .ok (t, at')) :
    t.sc.tx.escTxActive = s.sc.tx.escTxActive ∧ t.sc.rx.escRxActive = at'.inLoop := by
  rcases e82545TapCallback_cases h with ⟨-, rfl, rfl⟩ | ⟨-, hloop⟩
  · exact ⟨rfl, hs⟩
  · have hflags := e82545RxLoop_flags (rxEnter s) (rxLocals s.sc) rfl
    rw [hloop] at hflags
    exact hflags

theorem e82545RxRead_flags (s : E1000) (l : RxLocals) (frames : List Frame)
    (hs : s.sc.rx.escRxActive = true) :
    (e82545RxRead s l frames).1.1.sc.tx.escTxActive = s.sc.tx.escTxActive ∧
      (e82545RxRead s l frames).1.1.sc.rx.escRxActive = (e82545RxRead s l frames).1.2.inLoop := by
  cases frames with
  | nil =>
    obtain ⟨mtx, pi, intr, hframe⟩ := e82545RxDone_frame s.sc l
    rw [e82545RxRead, hframe]
    exact ⟨rfl, rfl⟩
  | cons f rest =>
    simp only [e82545RxRead]
    split
    · simp only [e82545RxPacket]
      split
      · exact e82545RxLoop_flags _ _ hs
      · exact e82545RxLoop_flags _ _ hs
    · exact ⟨rfl, hs⟩

/-- The two active flags, in every reachable state: transmit has work left from the
last poll, receive is in its loop. -/
def ActiveFlags (s : E1000Sys) : Prop :=
  s.dev.sc.tx.escTxActive = s.pollRan ∧ s.dev.sc.rx.escRxActive = s.netIntr.inLoop

theorem activeFlags_of_reaches {b : Build} {s : E1000Sys}
    (h : Reaches (E1000Step b) E1000Initial s) : ActiveFlags s := by
  refine h.invariant ?_ ?_
  · rintro s ⟨⟨ctx, hsc⟩, -, -, hidle, -, hpoll⟩
    rw [ActiveFlags, hsc, hidle, hpoll]
    exact ⟨rfl, rfl⟩
  · rintro s e t ⟨htx, hrx⟩ hstep
    cases hstep with
    | write fuel baridx offset size value hidle _ hw =>
      obtain ⟨htx', hrx', -⟩ := e82545Write_flags hw
      exact ⟨htx'.trans htx, hrx'.trans hrx⟩
    | read baridx offset size hidle _ hr =>
      obtain ⟨mtx, pi, intr, rfl⟩ := e82545Read_frame hr
      exact ⟨htx, hrx⟩
    | poll fuel hidle hp =>
      obtain ⟨htx', hrx'⟩ := e1000Poll_txActive hp
      exact ⟨htx', (congrArg _ hrx').trans hrx⟩
    | guest => exact ⟨htx, hrx⟩
    | itr =>
      obtain ⟨mtx, pi, intr, hframe⟩ := e82545ItrCallback_frame s.dev.sc
      simp only [ActiveFlags, hframe]
      exact ⟨htx, hrx⟩
    | arrive f => exact ⟨htx, hrx⟩
    | take hidle _ ht =>
      obtain ⟨htx', hrx'⟩ := e82545TapCallback_flags (by rw [hrx, hidle]; rfl) ht
      exact ⟨htx'.trans htx, hrx'⟩
    | rx l hl =>
      obtain ⟨htx', hrx'⟩ := e82545RxRead_flags s.dev l s.waiting (by rw [hrx, hl]; rfl)
      exact ⟨htx'.trans htx, hrx'⟩
    | ack hack => exact ⟨htx, by rw [hrx, hack]; rfl⟩

/-! ## The disabling writes -/

/-- Whether a register write enters `e82545_tx_disable` or `e82545_rx_disable`. -/
def e82545Disables (sc : E82545Softc) (reg : E1000Reg) (value : U32) : Bool :=
  match reg with
  | .tctl => sc.tx.escTxEnabled && value &&& e1000TctlEN != e1000TctlEN
  | .rctl => sc.rx.escRxEnabled && value &&& e1000RctlEN != e1000RctlEN
  | .ctrl | .ctrlDup => value &&& e1000CtrlRST != 0
  | _ => false

/-- A disabling write returns when the flags it waits for are clear, and only then. -/
theorem e82545WriteReg_disable {fuel : Nat} {sc : E82545Softc} {reg : E1000Reg} {value : U32}
    (hdis : e82545Disables sc reg value = true) (hrx : sc.rx.escRxActive = false) :
    (∃ t, e82545WriteReg fuel sc reg value = .ok t) ↔
      0 < fuel ∧ (reg = .rctl ∨ sc.tx.escTxActive = false) := by
  have hreset : ∀ sc' : E82545Softc, sc'.rx.escRxActive = false →
      ((∃ t, e82545Reset fuel true sc' = .ok t) ↔ 0 < fuel ∧ sc'.tx.escTxActive = false) := by
    intro sc' hrx'
    constructor
    · rintro ⟨t, ht⟩
      obtain ⟨hfuel, -, htx, -⟩ := e82545Reset_eq_ok.1 ht
      exact ⟨hfuel, htx⟩
    · rintro ⟨hfuel, htx⟩
      exact ⟨_, e82545Reset_eq_ok.2 ⟨hfuel, hrx', htx, rfl⟩⟩
  cases reg with
  | ctrl | ctrlDup =>
    have hrst : value &&& e1000CtrlRST ≠ 0 := by simpa [e82545Disables] using hdis
    simp only [e82545WriteReg, e82545Devctl, if_pos hrst, reduceCtorEq, false_or]
    exact hreset _ hrx
  | rctl =>
    obtain ⟨hen, hoff⟩ : sc.rx.escRxEnabled = true ∧ value &&& e1000RctlEN ≠ e1000RctlEN := by
      simpa [e82545Disables] using hdis
    have hon : (value &&& e1000RctlEN == e1000RctlEN) = false := beq_eq_false_iff_ne.2 hoff
    simp only [e82545WriteReg, e82545RxCtl, hon, hen, Bool.bne_true, Bool.not_false, if_true,
      Bool.false_eq_true, if_false, true_or, and_true]
    constructor
    · rintro ⟨t, ht⟩
      obtain ⟨u, hu, -⟩ := Except.bind_eq_ok.1 ht
      exact (condWaitWhile_eq_ok.1 hu).1
    · intro hfuel
      exact ⟨_, Except.bind_eq_ok.2 ⟨_, condWaitWhile_eq_ok.2 ⟨hfuel, hrx, rfl⟩, rfl⟩⟩
  | tctl =>
    obtain ⟨hen, hoff⟩ : sc.tx.escTxEnabled = true ∧ value &&& e1000TctlEN ≠ e1000TctlEN := by
      simpa [e82545Disables] using hdis
    have hon : (value &&& e1000TctlEN == e1000TctlEN) = false := beq_eq_false_iff_ne.2 hoff
    simp only [e82545WriteReg, e82545TxCtl, hon, hen, Bool.false_beq, Bool.not_true,
      Bool.false_eq_true, if_false, reduceCtorEq, false_or]
    constructor
    · rintro ⟨t, ht⟩
      obtain ⟨u, hu, -⟩ := Except.bind_eq_ok.1 ht
      obtain ⟨hfuel, htx, -⟩ := condWaitWhile_eq_ok.1 hu
      exact ⟨hfuel, htx⟩
    · rintro ⟨hfuel, htx⟩
      exact ⟨_, Except.bind_eq_ok.2 ⟨_, condWaitWhile_eq_ok.2 ⟨hfuel, htx, rfl⟩, rfl⟩⟩
  | _ => simp [e82545Disables] at hdis

/-- A BAR write that reaches a register does to it what a register write does. -/
theorem e82545Write_returns_iff {fuel : Nat} {sc : E82545Softc} {baridx : Nat} {offset : U64}
    {size : Nat} {value : U64} {reg : E1000Reg}
    (hreg : e82545BarRegister sc baridx offset size = some reg) :
    (∃ t, e82545Write fuel sc baridx offset size value = .ok t) ↔
      ∃ t, e82545WriteReg fuel sc.lockMtx reg (value.setWidth 32) = .ok t := by
  have hbar : e82545WriteBar fuel sc.lockMtx baridx offset size value =
      e82545WriteReg fuel sc.lockMtx reg (value.setWidth 32) := by
    rcases e82545WriteBar_cases fuel sc.lockMtx baridx offset size value with
      ⟨hnone, -⟩ | ⟨reg', hreg', heq⟩
    · have hnone' : e82545BarRegister sc baridx offset size = none := hnone
      rw [hreg] at hnone'
      cases hnone'
    · have hreg'' : e82545BarRegister sc baridx offset size = some reg' := hreg'
      rw [hreg] at hreg''
      cases hreg''
      exact heq
  rw [e82545Write, hbar]
  constructor
  · rintro ⟨t, ht⟩
    obtain ⟨u, hu, -⟩ := Except.bind_eq_ok.1 ht
    exact ⟨u, hu⟩
  · rintro ⟨u, hu⟩
    exact ⟨_, Except.bind_eq_ok.2 ⟨u, hu, rfl⟩⟩

/-- **When the disable waits end.** In every reachable state in which `dm_loop` may
handle a request, take a write that enters a disable function. The active flags are
both clear exactly when the last poll found nothing to transmit, and then the write
returns. After another poll, only a write that disables receive alone returns. -/
theorem disableWrite_returns_iff {b : Build} {s : E1000Sys} {baridx : Nat} {offset : U64}
    {size : Nat} {value : U64} {reg : E1000Reg} (h : Reaches (E1000Step b) E1000Initial s)
    (hidle : s.netIntr = .idle)
    (hreg : e82545BarRegister s.dev.sc baridx offset size = some reg)
    (hdis : e82545Disables s.dev.sc reg (value.setWidth 32) = true) :
    ((s.dev.sc.tx.escTxActive = false ∧ s.dev.sc.rx.escRxActive = false) ↔ s.pollRan = false) ∧
    ((∃ fuel t, e82545Write fuel s.dev.sc baridx offset size value = .ok t) ↔
      reg = .rctl ∨ s.pollRan = false) := by
  obtain ⟨htx, hrx⟩ := activeFlags_of_reaches h
  have hrx' : s.dev.sc.rx.escRxActive = false := by rw [hrx, hidle]; rfl
  have hiff : ∀ fuel, (∃ t, e82545Write fuel s.dev.sc baridx offset size value = .ok t) ↔
      0 < fuel ∧ (reg = .rctl ∨ s.dev.sc.tx.escTxActive = false) := fun fuel =>
    (e82545Write_returns_iff hreg).trans (@e82545WriteReg_disable fuel s.dev.sc.lockMtx reg _ hdis hrx')
  refine ⟨⟨fun ⟨h, _⟩ => htx.symm.trans h, fun h => ⟨htx.trans h, hrx'⟩⟩, ?_⟩
  rw [← htx]
  constructor
  · rintro ⟨fuel, hret⟩
    exact ((hiff fuel).1 hret).2
  · intro hclear
    exact ⟨1, (hiff 1).2 ⟨Nat.one_pos, hclear⟩⟩

/-! ## Two runs -/

/-- `writePoll`, where nothing is asked of the run. -/
theorem writePoll_reaches_any {s : E1000Sys} (offset value : U64)
    (h : Reaches (Guarded (E1000Step .integer) fun _ _ => True) E1000Initial s)
    (hidle : s.netIntr = .idle) (hhandled : s.handled = false)
    (hw : (e82545Write 1 s.dev.sc 0 offset 4 value).isOk = true)
    (hp : (e1000Poll .integer 3 (writeReg s offset value).dev).isOk = true) :
    Reaches (Guarded (E1000Step .integer) fun _ _ => True) E1000Initial
      (writePoll s offset value) :=
  writePoll_reaches offset value h hidle hhandled hw hp trivial trivial

/-- Enable transmit and disable it again: the poll in between has nothing to do, and
the write returns. -/
theorem disableWrite_returns_enabled :
    ∃ fuel t, e82545Write fuel (writePoll e1000Start 0x400 2).dev.sc 0 0x400 4 0 = .ok t := by
  have h := writePoll_reaches_any 0x400 2 (.start e1000Start_initial) rfl rfl
    (by decide +kernel) (by decide +kernel)
  exact (@disableWrite_returns_iff .integer _ 0 0x400 4 0 .tctl h.of_guarded rfl
    (by decide +kernel) (by decide +kernel)).2.2 (.inr (by decide +kernel))

/-- Not so after a poll that has sent something: enable transmit on a ring of eight,
publish a descriptor, and disable transmit right after the poll that sends it. -/
theorem disableWrite_counterexample :
    ¬ ∀ (s : E1000Sys) (baridx : Nat) (offset : U64) (size : Nat) (value : U64) (reg : E1000Reg),
      Reaches (E1000Step .integer) E1000Initial s → s.netIntr = .idle → s.handled = false →
      e82545BarRegister s.dev.sc baridx offset size = some reg →
      e82545Disables s.dev.sc reg (value.setWidth 32) = true →
      (s.dev.sc.tx.escTxActive = false ∧ s.dev.sc.rx.escRxActive = false) ∧
        ∃ fuel t, e82545Write fuel s.dev.sc baridx offset size value = .ok t := by
  intro hreturns
  have h₁ := writePoll_reaches_any 0x3808 0x80 (.start e1000Start_initial) rfl rfl
    (by decide +kernel) (by decide +kernel)
  have h₂ := writePoll_reaches_any 0x400 2 h₁ rfl rfl (by decide +kernel) (by decide +kernel)
  have h₃ := writePoll_reaches_any 0x3818 1 h₂ rfl rfl (by decide +kernel) (by decide +kernel)
  obtain ⟨⟨htx, -⟩, -⟩ := hreturns _ 0 0x400 4 0 .tctl h₃.of_guarded rfl rfl (by decide +kernel)
    (by decide +kernel)
  exact absurd htx (by decide +kernel)

end DeviceModel
