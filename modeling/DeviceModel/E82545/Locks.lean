import DeviceModel.E82545.Interrupts
import DeviceModel.E82545.System

/-!
# The mutexes of the e1000

Every function of the e1000 that `dm_loop` or an interrupt calls takes `esc_mtx` and gives
it back; the transmit and receive loops run without it. The mutex of the line is taken and
given back inside each of the `pci_lintr_*` functions.
-/

namespace DeviceModel

/-- The mutex of the line is free. -/
def E82545Softc.LineFree (sc : E82545Softc) : Prop := sc.escPi.lintr.lock.Free

/-- Nobody holds a mutex of the e1000, and no assertion has failed on one. -/
structure E82545Softc.LocksFree (sc : E82545Softc) : Prop where
  mtx : sc.escMtx.Free
  line : sc.LineFree

section

variable {sc t : E82545Softc}

/-! ## The line -/

theorem lintrAssert_throttle_lineFree (h : sc.LineFree) : sc.lintrAssert.throttle.LineFree := by
  rw [E82545Softc.LineFree, throttle_escPi]
  exact pciLintrAssert_lock h

theorem e82545NewCause_lineFree (h : sc.LineFree) (new : U32) : (e82545NewCause sc new).LineFree := by
  rw [e82545NewCause]
  split
  · exact h
  · split
    · exact h
    · split
      · exact lintrAssert_throttle_lineFree h
      · exact h

theorem e82545DropLine_lineFree (h : sc.LineFree) : (e82545DropLine sc).LineFree := by
  rw [e82545DropLine]
  split
  · exact pciLintrDeassert_lock h
  · exact h

theorem e82545IcrAssert_lineFree (h : sc.LineFree) (bits : U32) :
    (e82545IcrAssert sc bits).LineFree := by
  refine e82545NewCause_lineFree ?_ _
  exact h

theorem e82545IntrWrite_lineFree (h : sc.LineFree) (reg : E1000Reg) (value : U32) :
    (e82545IntrWrite sc reg value).LineFree := by
  cases reg with
  | icr =>
    refine e82545DropLine_lineFree ?_
    exact h
  | ics =>
    refine e82545IcrAssert_lineFree ?_ value
    exact h
  | ims =>
    refine e82545NewCause_lineFree ?_ _
    exact h
  | _ => exact h

theorem e82545RaiseCause_lineFree (h : sc.LineFree) (cause : U32) :
    (e82545RaiseCause sc cause).LineFree := by
  rw [e82545RaiseCause]
  split
  · exact e82545IcrAssert_lineFree h cause
  · exact h

theorem e82545RaiseCause_mtx (sc : E82545Softc) (cause : U32) :
    (e82545RaiseCause sc cause).escMtx = sc.escMtx := by
  obtain ⟨pi, intr, hframe⟩ := e82545RaiseCause_frame sc cause
  rw [hframe]

/-! ## Registers -/

theorem e82545ResetRegs_mtx (drvr : Bool) (sc : E82545Softc) :
    (e82545ResetRegs drvr sc).escMtx = sc.escMtx := by
  have htx : ∀ sc, (e82545ResetTx drvr sc).escMtx = sc.escMtx := fun _ => by cases drvr <;> rfl
  have hrx : ∀ sc, (e82545ResetRx drvr sc).escMtx = sc.escMtx := fun _ => by cases drvr <;> rfl
  have haccept : ∀ sc, (e82545ResetAccept drvr sc).escMtx = sc.escMtx := fun _ => by
    cases drvr <;> rfl
  have hgeneral : (e82545ResetGeneral drvr sc).escMtx = sc.escMtx := by
    rw [e82545ResetGeneral]
    cases sc.intr.escIrqAsserted <;> cases drvr <;> rfl
  have hnvm : ∀ sc, (e82545ResetIntr (e82545ResetNvm sc)).escMtx = sc.escMtx := fun _ => rfl
  rw [e82545ResetRegs, htx, hrx, haccept, hnvm, hgeneral]

/-- A register write leaves the mutex as it is. -/
theorem e82545WriteReg_mtx {fuel : Nat} {reg : E1000Reg} {value : U32}
    (h : e82545WriteReg fuel sc reg value = .ok t) : t.escMtx = sc.escMtx := by
  cases reg with
  | icr | itr | ics | ims | imc =>
    cases h
    obtain ⟨pi, intr, hframe⟩ := e82545IntrWrite_frame sc _ value
    rw [hframe]
  | ctrl | ctrlDup =>
    simp only [e82545WriteReg, e82545Devctl] at h
    split at h
    · obtain ⟨-, -, -, rfl⟩ := e82545Reset_eq_ok.1 h
      exact e82545ResetRegs_mtx true _
    · cases h
      rfl
  | rctl =>
    simp only [e82545WriteReg, e82545RxCtl] at h
    split at h
    · split at h
      · cases h
        rfl
      · obtain ⟨s, hs, h⟩ := Except.bind_eq_ok.1 h
        obtain ⟨-, -, rfl⟩ := condWaitWhile_eq_ok.1 hs
        cases h
        rfl
    · cases h
      rfl
  | tctl =>
    simp only [e82545WriteReg, e82545TxCtl] at h
    split at h
    · cases h
      rfl
    · split at h
      · cases h
        rfl
      · obtain ⟨s, hs, h⟩ := Except.bind_eq_ok.1 h
        obtain ⟨-, -, rfl⟩ := condWaitWhile_eq_ok.1 hs
        cases h
        rfl
  | rdbal | tdbal | tdt =>
    simp only [e82545WriteReg] at h
    cases h
    split <;> rfl
  | rdbah | rdlen | ra _ =>
    obtain ⟨u, -, h⟩ := Except.bind_eq_ok.1 h
    cases h
    rfl
  | _ =>
    cases h
    rfl

theorem e82545WriteReg_lineFree {fuel : Nat} {reg : E1000Reg} {value : U32} (hs : sc.LineFree)
    (h : e82545WriteReg fuel sc reg value = .ok t) : t.LineFree := by
  cases hreset : e82545IsReset reg value with
  | false =>
    rcases e82545WriteReg_intr h hreset with rfl | ⟨hpi, -⟩
    · exact e82545IntrWrite_lineFree hs reg value
    · rw [E82545Softc.LineFree, hpi]
      exact hs
  | true =>
    obtain ⟨-, -, hpi⟩ := e82545WriteReg_reset h hreset
    rw [E82545Softc.LineFree, hpi]
    split
    · exact pciLintrDeassert_lock hs
    · exact hs

/-- What runs between lock and unlock leaves the mutex as it is. -/
theorem E82545Softc.LocksFree.unlock (h : sc.LocksFree) (hmtx : t.escMtx = sc.lockMtx.escMtx)
    (hline : t.LineFree) : t.unlockMtx.LocksFree := by
  refine ⟨?_, hline⟩
  have hfree : (pthreadMutexUnlock t.escMtx).Free := by
    rw [hmtx]
    exact h.mtx.lock_unlock
  exact hfree

theorem e82545Write_locksFree {fuel baridx : Nat} {offset : U64} {size : Nat} {value : U64}
    (hs : sc.LocksFree) (h : e82545Write fuel sc baridx offset size value = .ok t) :
    t.LocksFree := by
  rcases e82545Write_cases h with ⟨-, w, rfl⟩ | ⟨reg, u, -, hu, rfl⟩
  · exact hs.unlock rfl hs.line
  · have hline : sc.lockMtx.LineFree := hs.line
    exact hs.unlock (e82545WriteReg_mtx hu) (e82545WriteReg_lineFree hline hu)

theorem e82545Read_locksFree {baridx : Nat} {offset : U64} {size : Nat} {v : U32}
    (hs : sc.LocksFree) (h : e82545Read sc baridx offset size = .ok (t, v)) : t.LocksFree := by
  obtain ⟨⟨u, w⟩, hu, ht⟩ := Except.bind_eq_ok.1 h
  cases ht
  rcases e82545ReadBar_cases hu with rfl | rfl
  · exact hs.unlock rfl hs.line
  · have hmtx : (e82545IntrRead sc.lockMtx .icr).1.escMtx = sc.lockMtx.escMtx := by
      obtain ⟨pi, intr, hframe⟩ := e82545IntrRead_icr_frame sc.lockMtx
      rw [hframe]
    have hline : E82545Softc.LineFree { sc.lockMtx with intr.escICR := 0 } := hs.line
    exact hs.unlock hmtx (e82545DropLine_lineFree hline)

/-! ## The timer, transmit and receive -/

theorem e82545ItrCallback_locksFree (hs : sc.LocksFree) : (e82545ItrCallback sc).LocksFree := by
  rw [e82545ItrCallback, e82545ItrCallbackBody]
  split
  · exact hs.unlock rfl (pciLintrAssert_lock hs.line)
  · exact hs.unlock rfl hs.line

theorem e82545TxPoll_locksFree {b : Build} {fuel : Nat} {s t : E1000} (hs : s.sc.LocksFree)
    (h : e82545TxPoll b fuel s = .ok t) : t.sc.LocksFree := by
  obtain ⟨u, hu, h⟩ := Except.bind_eq_ok.1 h
  cases h
  rw [e82545TxPollBody] at hu
  split at hu
  · obtain ⟨⟨x, head, rhead, tdwb, any⟩, -, hu⟩ := Except.bind_eq_ok.1 hu
    cases hu
    -- `e82545_tx_run` gives the mutex back and takes it again
    have hrun : s.sc.lockMtx.unlockMtx.LocksFree := hs.unlock rfl hs.line
    refine hrun.unlock (e82545RaiseCause_mtx _ _) (e82545RaiseCause_lineFree ?_ _)
    exact hs.line
  · cases hu
    exact hs.unlock rfl hs.line

theorem e82545RxDone_locksFree (hs : sc.LocksFree) (l : RxLocals) : (e82545RxDone sc l).LocksFree := by
  have hstore : (rxStore sc l).LineFree := hs.line
  exact hs.unlock (e82545RaiseCause_mtx _ _) (e82545RaiseCause_lineFree hstore _)

theorem e82545RxLoop_locksFree {s : E1000} (hs : s.sc.LocksFree) (l : RxLocals) :
    (e82545RxLoop s l).1.sc.LocksFree := by
  rw [e82545RxLoop]
  split
  · exact hs
  · exact e82545RxDone_locksFree hs l

theorem e82545TapCallback_locksFree {s t : E1000} {at' : NetIntr} (hs : s.sc.LocksFree)
    (h : e82545TapCallback s = .ok (t, at')) : t.sc.LocksFree := by
  rcases e82545TapCallback_cases h with ⟨-, rfl, -⟩ | ⟨-, hloop⟩
  · exact hs.unlock rfl hs.line
  · have henter : (rxEnter s).sc.LocksFree :=
      hs.unlock (t := { s.sc.lockMtx with rx.escRxActive := true }) rfl hs.line
    have hend := e82545RxLoop_locksFree henter (rxLocals s.sc)
    rw [hloop] at hend
    exact hend

theorem e82545RxRead_locksFree {s : E1000} (hs : s.sc.LocksFree) (l : RxLocals) (fs : List Frame) :
    (e82545RxRead s l fs).1.1.sc.LocksFree := by
  cases fs with
  | nil => exact e82545RxDone_locksFree hs l
  | cons f rest =>
    rw [e82545RxRead]
    simp only []
    split
    · rw [e82545RxPacket]
      simp only []
      split
      · refine e82545RxLoop_locksFree ?_ _
        exact hs
      · refine e82545RxLoop_locksFree ?_ _
        exact hs
    · exact hs

end

/-! ## Runs -/

/-- Every event of the e1000 gives back what it takes. -/
theorem E1000Step.locksFree {b : Build} {s t : E1000Sys} {e : E1000Event}
    (hs : s.dev.sc.LocksFree) (h : E1000Step b s e t) : t.dev.sc.LocksFree := by
  cases h with
  | write _ _ _ _ _ _ _ hw => exact e82545Write_locksFree hs hw
  | read _ _ _ _ _ hr => exact e82545Read_locksFree hs hr
  | poll fuel _ hp => exact e82545TxPoll_locksFree hs hp
  | guest | arrive | ack => exact hs
  | itr => exact e82545ItrCallback_locksFree hs
  | take _ _ htake => exact e82545TapCallback_locksFree hs htake
  | rx l _ => exact e82545RxRead_locksFree hs l s.waiting

theorem E1000Initial.locksFree {s : E1000Sys} (h : E1000Initial s) : s.dev.sc.LocksFree := by
  obtain ⟨⟨ctx, hsc⟩, -⟩ := h
  rw [hsc]
  refine ⟨?_, ?_⟩
  · rw [e82545Init, e82545ResetRegs_mtx]
    exact PthreadMutex.free_init
  · rw [E82545Softc.LineFree, e82545Init, e82545ResetRegs_escPi]
    split
    · exact pciLintrDeassert_lock PthreadMutex.free_init
    · exact PthreadMutex.free_init

end DeviceModel
