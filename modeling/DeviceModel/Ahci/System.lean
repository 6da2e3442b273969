import DeviceModel.Ahci.Hba

/-!
# The AHCI controller under `dm_loop`

A run of the controller: the guest accesses registers and configuration space, and
`blockif_thr` serves the requests, one after another. Both the guest's memory and what
earlier calls have left on the stack may be anything at any time.
-/

namespace DeviceModel

/-- The controller, and whether `blockif_thr` runs. -/
structure AhciSys where
  dev : Ahci
  serving : Bool

/-- What can happen. -/
inductive AhciLabel : Type where
  /-- a register write request; `M` is what `ahci_handle_port` finds in memory -/
  | write (M : Nat → Mem) (baridx : Nat) (offset value : U64)
  /-- a register read request -/
  | read (baridx : Nat) (regoff : U64) (size : Nat)
  /-- a write to configuration space -/
  | config (command : BitVec 16) (msi : PciMsi) (msixEnabled : Bool)
  /-- the guest stores to its memory, and the stack changes -/
  | guest (mem : Mem) (stack : Nat → U8)
  /-- `blockif_thr` starts -/
  | enter
  /-- `blockif_thr` serves one request; `M` is what `ahci_handle_port` finds in memory -/
  | serve (M : Nat → Mem)
  /-- `blockif_thr` finds no request and returns -/
  | leave

namespace Ahci

/-- Set what configuration space holds, and call `pci_lintr_update`. -/
def setConfig (s : Ahci) (command : BitVec 16) (msi : PciMsi) (msixEnabled : Bool) : Ahci :=
  let pi := { s.sc.ascPi with command := command, msi := msi, msixEnabled := msixEnabled }
  { s with sc := { s.sc with ascPi := pciLintrUpdate pi } }

/-- Change memory and the stack. -/
def setMem (s : Ahci) (mem : Mem) (stack : Nat → U8) : Ahci :=
  { s with blk := { s.blk with mem := mem }, stack := stack }

/-- Change `bc_mtx`. -/
def setBcMtx (s : Ahci) (f : PthreadMutex → PthreadMutex) : Ahci :=
  { s with blk := { s.blk with bc := { s.blk.bc with bcMtx := f s.blk.bc.bcMtx } } }

end Ahci

/-- One event. An access or a callback that does not return has no next state. -/
inductive AhciStep : AhciSys → AhciLabel → AhciSys → Prop where
  | write {s : AhciSys} {t : Ahci} (fuel : Nat) (M : Nat → Mem) (baridx : Nat)
      (offset value : U64) : s.serving = false →
      pciAhciWrite fuel M s.dev baridx offset value = .ok t →
      AhciStep s (.write M baridx offset value) { s with dev := t }
  | read {s : AhciSys} {t : Ahci} {v : U32} (baridx : Nat) (regoff : U64) (size : Nat) :
      s.serving = false → pciAhciRead s.dev baridx regoff size = .ok (t, v) →
      AhciStep s (.read baridx regoff size) { s with dev := t }
  | config {s : AhciSys} (command : BitVec 16) (msi : PciMsi) (msixEnabled : Bool) :
      s.serving = false →
      AhciStep s (.config command msi msixEnabled)
        { s with dev := s.dev.setConfig command msi msixEnabled }
  | guest {s : AhciSys} (mem : Mem) (stack : Nat → U8) :
      AhciStep s (.guest mem stack) { s with dev := s.dev.setMem mem stack }
  | enter {s : AhciSys} : s.serving = false →
      AhciStep s .enter { dev := s.dev.setBcMtx pthreadMutexLock, serving := true }
  | serve {s : AhciSys} {t : PortCtx} (fuel : Nat) (M : Nat → Mem) : s.serving = true →
      blockifServe (ahciClient fuel M) (s.dev.ctx 0) = .ok (some t) →
      AhciStep s (.serve M) { s with dev := s.dev.put 0 t }
  | leave {s : AhciSys} : s.serving = true → blockifFirstPend s.dev.blk.bc.bcPendq = .ok none →
      AhciStep s .leave { dev := s.dev.setBcMtx pthreadMutexUnlock, serving := false }

/-- After `pci_ahci_init`, with a disk or an ATAPI disk on port 0. -/
def AhciInitial (s : AhciSys) : Prop :=
  (∃ ctx base atapi ident mem stack, s.dev = pciAhciInit ctx base atapi ident mem stack) ∧
    s.serving = false

/-- The controller of a disk, or of an ATAPI disk, at address 0 of a memory full of zeros. -/
def ahciBlank (atapi : Bool) : AhciSys where
  dev := pciAhciInit ⟨0⟩ 0 atapi [] (fun _ => 0) (fun _ => 0)
  serving := false

theorem ahciBlank_initial (atapi : Bool) : AhciInitial (ahciBlank atapi) :=
  ⟨⟨⟨0⟩, 0, atapi, [], fun _ => 0, fun _ => 0, rfl⟩, rfl⟩

/-! ## The controller and the port's view of it -/

namespace Ahci

@[simp] theorem ctx_put (s : Ahci) (i : Nat) (c : PortCtx) : (s.put i c).ctx i = c := by
  simp [ctx, put]

theorem ctx_put_ne {i j : Nat} (s : Ahci) (c : PortCtx) (h : j ≠ i) :
    (s.put i c).ctx j = { c with p := s.port j } := by
  simp [ctx, put, h]

@[simp] theorem put_port (s : Ahci) (i : Nat) (c : PortCtx) : (s.put i c).port i = c.p := by
  simp [put]

theorem put_port_ne {i j : Nat} (s : Ahci) (c : PortCtx) (h : j ≠ i) :
    (s.put i c).port j = s.port j := by
  simp [put, h]

@[simp] theorem put_ctx (s : Ahci) (i : Nat) : s.put i (s.ctx i) = s := by
  simp [ctx, put]

@[simp] theorem put_put (s : Ahci) (i : Nat) (c d : PortCtx) : (s.put i c).put i d = s.put i d := by
  simp [put]

end Ahci

/-! ## `blockif_thr` is a run -/

section

variable {σ : Type} (cl : BlockifClient σ)

/-- The loop of `blockif_thr` serves and goes on. -/
theorem blockifThrLoop_succ (fuel : Nat) (s : σ) :
    blockifThrLoop cl (fuel + 1) s =
      (blockifServe cl s >>= fun t? => match t? with
        | none => .ok s
        | some t => blockifThrLoop cl fuel t) := by
  rw [blockifThrLoop, blockifServe]
  cases blockifDequeue (cl.blk s).bc with
  | error e => rfl
  | ok r =>
    obtain ⟨be?, bc⟩ := r
    cases be? with
    | none => rfl
    | some be =>
      cases h : blockifProc cl (cl.setBlk s { cl.blk s with bc := bc }) be with
      | error e => simp [bind, Except.bind, h]
      | ok t => simp [bind, Except.bind, h]

end

/-- The queue is empty where `blockif_dequeue` finds nothing to serve. -/
theorem blockifServe_none {σ : Type} {cl : BlockifClient σ} {s : σ}
    (h : blockifServe cl s = .ok none) : blockifFirstPend (cl.blk s).bc.bcPendq = .ok none := by
  obtain ⟨⟨be?, bc⟩, hdeq, h⟩ := Except.bind_eq_ok.1 h
  cases be? with
  | some be =>
    obtain ⟨t, -, h⟩ := Except.bind_eq_ok.1 h
    cases h
  | none =>
    obtain ⟨be?, hfirst, hdeq⟩ := Except.bind_eq_ok.1 hdeq
    cases be? with
    | none => exact hfirst
    | some be => cases hdeq

/-- The loop of `blockif_thr` is a run of single services. -/
theorem blockifThrLoop_run {fuel k : Nat} {M : Nat → Mem} {s : Ahci} {t : PortCtx}
    (h : blockifThrLoop (ahciClient fuel M) k (s.ctx 0) = .ok t) :
    ∃ ls, Run AhciStep ⟨s, true⟩ ls ⟨s.put 0 t, true⟩ ∧
      blockifFirstPend t.blk.bc.bcPendq = .ok none := by
  induction k generalizing s with
  | zero => cases h
  | succ k ih =>
    rw [blockifThrLoop_succ] at h
    obtain ⟨t?, hserve, h⟩ := Except.bind_eq_ok.1 h
    cases t? with
    | none =>
      cases h
      refine ⟨[], ?_, blockifServe_none hserve⟩
      rw [Ahci.put_ctx]
      exact .nil _
    | some u =>
      obtain ⟨ls, hrun, hnone⟩ := ih (s := s.put 0 u) (by rw [Ahci.ctx_put]; exact h)
      rw [Ahci.put_put] at hrun
      exact ⟨[.serve M] ++ ls, (Run.single (.serve fuel M rfl hserve)).trans hrun, hnone⟩

/-- **`blockif_thr`** is a run that starts with `enter` and ends with `leave`. -/
theorem blockifThr_run {fuel k : Nat} {M : Nat → Mem} {s : Ahci} {t : PortCtx}
    (h : blockifThr (ahciClient fuel M) k (s.ctx 0) = .ok t) :
    ∃ ls, Run AhciStep ⟨s, false⟩ (.enter :: ls ++ [.leave]) ⟨s.put 0 t, false⟩ := by
  obtain ⟨u, hloop, h⟩ := Except.bind_eq_ok.1 h
  cases h
  obtain ⟨ls, hrun, hnone⟩ := blockifThrLoop_run (s := s.setBcMtx pthreadMutexLock) hloop
  refine ⟨ls, ?_⟩
  have hstart : Run AhciStep ⟨s, false⟩ [.enter] ⟨s.setBcMtx pthreadMutexLock, true⟩ :=
    Run.single (.enter rfl)
  have hend := (hstart.trans hrun).snoc (.leave rfl hnone)
  exact hend

end DeviceModel
