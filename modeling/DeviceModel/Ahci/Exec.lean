import DeviceModel.Ahci.System

/-!
# Running the controller

`AhciStep` as a function, for runs on concrete inputs.
-/

namespace DeviceModel

namespace AhciSys

/-- The outcome of one event, with `fuel` iterations for each loop. -/
def exec (fuel : Nat) (s : AhciSys) : AhciLabel → Option AhciSys
  | .write M baridx offset value =>
    if s.serving then none
    else (pciAhciWrite fuel M s.dev baridx offset value).toOption.map fun t => { s with dev := t }
  | .read baridx regoff size =>
    if s.serving then none
    else (pciAhciRead s.dev baridx regoff size).toOption.map fun t => { s with dev := t.1 }
  | .config command msi msixEnabled =>
    if s.serving then none else some { s with dev := s.dev.setConfig command msi msixEnabled }
  | .guest mem stack => some { s with dev := s.dev.setMem mem stack }
  | .enter =>
    if s.serving then none else some { dev := s.dev.setBcMtx pthreadMutexLock, serving := true }
  | .serve M =>
    if s.serving then
      (blockifServe (ahciClient fuel M) (s.dev.ctx 0)).toOption.bind fun t? =>
        t?.map fun t => { s with dev := s.dev.put 0 t }
    else none
  | .leave =>
    if s.serving then
      (blockifFirstPend s.dev.blk.bc.bcPendq).toOption.bind fun be? =>
        if be?.isNone then some { dev := s.dev.setBcMtx pthreadMutexUnlock, serving := false }
        else none
    else none

/-- The outcome of a list of events. -/
def execAll (fuel : Nat) : List AhciLabel → AhciSys → Option AhciSys
  | [], s => some s
  | l :: ls, s => (s.exec fuel l).bind (execAll fuel ls)

end AhciSys

theorem Except.toOption_eq_some {α : Type} {m : Except Stop α} {a : α} :
    m.toOption = some a ↔ m = .ok a := by
  cases m with
  | error e => simp [Except.toOption]
  | ok b => simp [Except.toOption]

/-- What is computed is a step. -/
theorem AhciSys.exec_step {fuel : Nat} {s t : AhciSys} {l : AhciLabel}
    (h : s.exec fuel l = some t) : AhciStep s l t := by
  cases l with
  | write M baridx offset value =>
    rw [AhciSys.exec] at h
    split at h
    · cases h
    · next hidle =>
      obtain ⟨u, hu, rfl⟩ := Option.map_eq_some_iff.1 h
      exact .write fuel M baridx offset value (Bool.eq_false_iff.2 hidle)
        (Except.toOption_eq_some.1 hu)
  | read baridx regoff size =>
    rw [AhciSys.exec] at h
    split at h
    · cases h
    · next hidle =>
      obtain ⟨⟨u, v⟩, hu, rfl⟩ := Option.map_eq_some_iff.1 h
      exact .read baridx regoff size (Bool.eq_false_iff.2 hidle) (Except.toOption_eq_some.1 hu)
  | config command msi msixEnabled =>
    rw [AhciSys.exec] at h
    split at h
    · cases h
    · next hidle =>
      cases h
      exact .config command msi msixEnabled (Bool.eq_false_iff.2 hidle)
  | guest mem stack =>
    cases h
    exact .guest mem stack
  | enter =>
    rw [AhciSys.exec] at h
    split at h
    · cases h
    · next hidle =>
      cases h
      exact .enter (Bool.eq_false_iff.2 hidle)
  | serve M =>
    rw [AhciSys.exec] at h
    split at h
    · next hserving =>
      obtain ⟨t?, hu, h⟩ := Option.bind_eq_some_iff.1 h
      obtain ⟨u, rfl, rfl⟩ := Option.map_eq_some_iff.1 h
      exact .serve fuel M hserving (Except.toOption_eq_some.1 hu)
    · cases h
  | leave =>
    rw [AhciSys.exec] at h
    split at h
    · next hserving =>
      obtain ⟨be?, hu, h⟩ := Option.bind_eq_some_iff.1 h
      cases be? with
      | none =>
        cases h
        exact .leave hserving (Except.toOption_eq_some.1 hu)
      | some be => cases h
    · cases h

/-- What a list of events computes is reached, in a run whose events all meet `ok`. -/
theorem AhciSys.execAll_reaches {fuel : Nat} {init : AhciSys → Prop}
    (ok : AhciSys → AhciLabel → Prop) {ls : List AhciLabel} (hok : ∀ s, ∀ l ∈ ls, ok s l) :
    ∀ {s t : AhciSys}, Reaches (Guarded AhciStep ok) init s → s.execAll fuel ls = some t →
      Reaches (Guarded AhciStep ok) init t :=
  Reaches.execAll (fun _ => rfl) (fun _ _ _ => rfl)
    fun s _ l hl hu => ⟨AhciSys.exec_step hu, hok s l hl⟩

/-- A run from the start, whose events may be any. -/
theorem ahciBlank_reaches {atapi : Bool} {fuel : Nat} {ls : List AhciLabel} {s : AhciSys}
    (h : (ahciBlank atapi).execAll fuel ls = some s) : Reaches AhciStep AhciInitial s :=
  (AhciSys.execAll_reaches (fun _ _ => True) (fun _ _ _ => trivial)
    (.start (ahciBlank_initial atapi)) h).of_guarded

/-! ## Accesses -/

/-- Memory in which every slot of a command list at 0 holds the command `op`. -/
def commandMem (op : U8) : Mem := fun a =>
  if a = 0 then fisTypeRegH2D else if a = 1 then 0x80#8 else if a = 2 then op else 0

/-- The registers of port 0 are written so that it runs, with interrupts on frames. -/
def startPort (M : Nat → Mem) : List AhciLabel :=
  [.guest (M 0) fun _ => 0, .write M 5 0x108 0x1000, .write M 5 0x114 0x1, .write M 5 0x04 0x2,
    .write M 5 0x118 0x11]

/-- The commands in `slots` are issued, and `blockif_thr` serves the first of them. -/
def completeOne (M : Nat → Mem) (slots : U64) : List AhciLabel :=
  [.write M 5 0x138 slots, .enter, .serve M, .leave]

end DeviceModel
