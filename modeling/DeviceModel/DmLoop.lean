import DeviceModel.Ahci.SmallExec
import DeviceModel.Ahci.Locks
import DeviceModel.E82545.Locks

/-!
# The device model under `dm_loop`

`dm_loop` handles requests for the e1000, for the AHCI controller and for their
configuration space, and polls both devices. The devices share neither state nor mutexes,
so their events may come in any order; the order of `dm_loop` is one of them.
-/

namespace DeviceModel

/-- Both devices. -/
structure DmSys where
  e1000 : E1000Sys
  ahci : AhciSmall

/-- What can happen. -/
inductive DmLabel : Type where
  | e1000 (e : E1000Event)
  /-- a write to the configuration space of the e1000 -/
  | e1000Config (command : BitVec 16) (msi : PciMsi) (msixEnabled : Bool)
  | ahci (l : AhciSmallLabel)

/-- Set what the configuration space of the e1000 holds, and call `pci_lintr_update`. -/
def E82545Softc.setConfig (sc : E82545Softc) (command : BitVec 16) (msi : PciMsi)
    (msixEnabled : Bool) : E82545Softc :=
  let pi := { sc.escPi with command := command, msi := msi, msixEnabled := msixEnabled }
  { sc with escPi := pciLintrUpdate pi }

/-- One event. -/
inductive DmStep (b : Build) : DmSys → DmLabel → DmSys → Prop where
  | e1000 {s : DmSys} {t : E1000Sys} {e : E1000Event} : E1000Step b s.e1000 e t →
      DmStep b s (.e1000 e) { s with e1000 := t }
  | e1000Config {s : DmSys} (command : BitVec 16) (msi : PciMsi) (msixEnabled : Bool) :
      DmStep b s (.e1000Config command msi msixEnabled)
        { s with e1000 := { s.e1000 with dev := { s.e1000.dev with
          sc := s.e1000.dev.sc.setConfig command msi msixEnabled } } }
  | ahci {s : DmSys} {t : AhciSmall} {l : AhciSmallLabel} : AhciSmallStep s.ahci l t →
      DmStep b s (.ahci l) { s with ahci := t }

/-- After `dm_init`. -/
def DmInitial (s : DmSys) : Prop := E1000Initial s.e1000 ∧ AhciSmallInitial s.ahci

namespace DmSys

/-- No assertion of the pthread shim has failed on any of the mutexes. -/
structure LockSound (s : DmSys) : Prop where
  escMtx : s.e1000.dev.sc.escMtx.sound = true
  escLintr : s.e1000.dev.sc.escPi.lintr.lock.sound = true
  ascMtx : s.ahci.dev.sc.mtx.sound = true
  ascLintr : s.ahci.dev.sc.ascPi.lintr.lock.sound = true
  bcMtx : s.ahci.dev.blk.bc.bcMtx.sound = true

/-- The invariant of a run. -/
structure Locked (s : DmSys) : Prop where
  e1000 : s.e1000.dev.sc.LocksFree
  ok : s.ahci.Ok
  ahci : s.ahci.Locks

/-- No callback submits a request in this event. -/
def SubmitsOutside (s : DmSys) : DmLabel → Prop
  | .ahci l => s.ahci.SubmitsOutside l
  | _ => True

end DmSys

theorem PthreadMutex.At.sound {m : PthreadMutex} {held : Bool} (h : m.At held) : m.sound = true := by
  cases held with
  | true =>
    have hheld : m.Held := h
    exact hheld.2
  | false =>
    have hfree : m.Free := h
    exact hfree.2

theorem DmSys.Locked.sound {s : DmSys} (h : s.Locked) : s.LockSound where
  escMtx := h.e1000.mtx.2
  escLintr := h.e1000.line.2
  ascMtx := h.ahci.mtx.sound
  ascLintr := h.ahci.line.2
  bcMtx := h.ahci.queue.sound

theorem DmInitial.locked {s : DmSys} (h : DmInitial s) : s.Locked :=
  ⟨h.1.locksFree, h.2.ok, h.2.locks⟩

/-- One event in which no callback submits a request. -/
theorem DmStep.locked {b : Build} {s t : DmSys} {l : DmLabel} (hs : s.Locked) (h : DmStep b s l t)
    (hsubmits : s.SubmitsOutside l) : t.Locked := by
  cases h with
  | e1000 hstep => exact ⟨hstep.locksFree hs.e1000, hs.ok, hs.ahci⟩
  | e1000Config => exact ⟨⟨hs.e1000.mtx, pciLintrUpdate_lock hs.e1000.line⟩, hs.ok, hs.ahci⟩
  | ahci hstep => exact ⟨hs.e1000, hstep.ok hs.ok, (hstep.locks_iff hs.ok hs.ahci).2 hsubmits⟩

/-- **No assertion of the pthread shim fails** as long as no callback of the block interface
submits a request; the first one that does fails one. -/
theorem dm_locks_sound {b : Build} {s : DmSys}
    (h : Reaches (Guarded (DmStep b) DmSys.SubmitsOutside) DmInitial s) :
    s.LockSound ∧ ∀ l t, DmStep b s l t → ¬ s.SubmitsOutside l → ¬ t.LockSound := by
  have hs : s.Locked :=
    h.invariant (fun _ h => h.locked) fun _ _ _ hs hstep => hstep.1.locked hs hstep.2
  refine ⟨hs.sound, fun l t hstep hsubmits ht => ?_⟩
  cases hstep with
  | e1000 | e1000Config => exact hsubmits trivial
  | ahci hstep =>
    exact absurd (ht.bcMtx.symm.trans (hstep.unsound hs.ok hs.ahci hsubmits)) (by decide)

/-- The device model, with the controller in `t` and the e1000 as `dm_init` leaves it. -/
def dmStart (t : AhciSmall) : DmSys := ⟨e1000Start, t⟩

/-- What the controller reaches is reached where nothing else happens. -/
theorem dmStart_reaches {b : Build} {ok : DmSys → DmLabel → Prop} {t : AhciSmall}
    (h : Reaches (Guarded AhciSmallStep fun u l => ok (dmStart u) (.ahci l)) AhciSmallInitial t) :
    Reaches (Guarded (DmStep b) ok) DmInitial (dmStart t) := by
  induction h with
  | start ht => exact .start ⟨e1000Start_initial, ht⟩
  | next _ hstep ih => exact .next ih ⟨.ahci hstep.1, hstep.2⟩

instance (s : AhciSmall) : (l : AhciSmallLabel) → Decidable (s.SubmitsOutside l)
  | .serve => decidableFirst s.dev.blk.bc.bcPendq fun be q =>
      (callbackEnd (serveEntry (s.dev.ctx 0) be q).lockMtx be.beReq
        (serveErr (s.dev.ctx 0) be)).submits = false
  | .visit =>
    inferInstanceAs (Decidable (s.phase.serves = true → (s.dev.ctx 0).visitSubmits = false))
  | .hostWrite .. | .portWrite .. | .read .. | .config .. | .guest .. | .enter | .written
  | .served | .leave => isTrue trivial

/-- A flush is submitted, served, and answered by its callback with an interrupt. -/
theorem dm_locks_sound_flush :
    ∃ s : DmSys, AhciEvent.d2h 0 0x50 ∈ s.ahci.dev.log ∧ s.ahci.dev.sc.is = 1 ∧ s.LockSound := by
  have hrun : ((ahciStart false (commandMem 0xe7#8)).execAll AhciSmall.SubmitsOutside
      (enableFirst ++ issueFirst ++ serveFirst)).any (fun s =>
        s.dev.log.contains (.d2h 0 0x50) && s.dev.sc.is == 1) = true := by
    decide +kernel
  obtain ⟨s, hs, hend⟩ := (Option.any_eq_true _ _).1 hrun
  simp only [Bool.and_eq_true, List.contains_iff_mem, beq_iff_eq] at hend
  have hreach := AhciSmall.execAll_reaches (.start (ahciStart_initial false _)) hs
  exact ⟨dmStart s, hend.1, hend.2, (@dm_locks_sound .integer _ (dmStart_reaches hreach)).1⟩

/-- Two flushes are issued, and `blockif_thr` serves the first: its callback submits the second. -/
def nestedRun : List AhciLabel :=
  let M : Nat → Mem := fun _ => commandMem 0xe7
  startPort M ++ [.write M 5 0x138 0x3, .enter, .serve M]

/-- An assertion of the shim fails in this run. -/
theorem dm_locks_nested : ∃ s, Reaches (DmStep .integer) DmInitial s ∧ ¬ s.LockSound := by
  have hnested : ((ahciBlank false).execAll 3 nestedRun).any (fun s => !s.dev.blk.bc.bcMtx.sound) =
      true := by
    decide +kernel
  obtain ⟨s, hs, hend⟩ := (Option.any_eq_true _ _).1 hnested
  rw [Bool.not_eq_true'] at hend
  have hreach := (ahciBlank_reaches hs).small.guarded
  refine ⟨dmStart s.small, (@dmStart_reaches .integer (fun _ _ => True) _ hreach).of_guarded,
    fun h => ?_⟩
  have hsound : s.dev.blk.bc.bcMtx.sound = true := h.bcMtx
  exact absurd (hend.symm.trans hsound) Bool.false_ne_true

end DeviceModel
