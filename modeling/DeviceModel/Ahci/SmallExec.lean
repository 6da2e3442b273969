import DeviceModel.Ahci.Exec
import DeviceModel.Ahci.SmallStep

/-!
# Running the controller in small steps

`AhciSmallStep` as a function, for runs on concrete inputs that should meet a condition.
-/

namespace DeviceModel

namespace AhciSmall

/-- The outcome of one event. -/
def exec (s : AhciSmall) : AhciSmallLabel → Option AhciSmall
  | .hostWrite offset value =>
    match s.phase with
    | .idle =>
      if offset % 4 = 0 ∧ ¬ (ahciOffset ≤ offset ∧ offset < ahciEnd) then
        some { s with dev := (ahciHostWrite s.dev.lockMtx offset value).unlockMtx }
      else none
    | _ => none
  | .portWrite offset value =>
    match s.phase with
    | .idle =>
      if offset % 4 = 0 ∧ ahciOffset ≤ offset ∧ offset < ahciEnd then
        (ahciPortWriteEntry (s.dev.lockMtx.ctx (ahciPortNo offset))
          (ahciPortReg ((offset - ahciOffset) % ahciStep)) (value.setWidth 32)).toOption.map fun r =>
            { dev := s.dev.lockMtx.put (ahciPortNo offset) r.1
              phase := .write (ahciPortNo offset) (r.2 && r.1.runs) }
      else none
    | _ => none
  | .read regoff size =>
    match s.phase with
    | .idle => (pciAhciRead s.dev 5 regoff size).toOption.map fun r => { s with dev := r.1 }
    | _ => none
  | .config command msi msixEnabled =>
    match s.phase with
    | .idle => some { s with dev := s.dev.setConfig command msi msixEnabled }
    | _ => none
  | .guest mem stack => some { s with dev := s.dev.setMem mem stack }
  | .enter =>
    match s.phase with
    | .idle => some { dev := s.dev.setBcMtx pthreadMutexLock, phase := .serving }
    | _ => none
  | .serve =>
    match s.phase with
    | .serving =>
      (blockifDequeue s.dev.blk.bc).toOption.bind fun r =>
        r.1.bind fun be =>
          let p := blockifProcBody (ahciClient 0 fun _ => s.dev.blk.mem)
            { s.dev.ctx 0 with blk := { s.dev.blk with bc := r.2 } } be
          (ahciIoreqBody p.1.lockMtx be.beReq p.2).toOption.map fun t =>
            { dev := s.dev.put 0 t.1, phase := .callback be (t.2 && t.1.runs) }
    | _ => none
  | .visit =>
    s.phase.looping.bind fun i =>
      if (s.dev.ctx i).loops then
        (ahciVisit (s.dev.ctx i)).toOption.map fun t => { s with dev := s.dev.put i t.nextCcs }
      else none
  | .written =>
    match s.phase with
    | .write i looping =>
      if looping && (s.dev.ctx i).loops then none
      else some { dev := s.dev.unlockMtx, phase := .idle }
    | _ => none
  | .served =>
    match s.phase with
    | .callback be looping =>
      if looping && (s.dev.ctx 0).loops then none
      else some
        { dev := s.dev.put 0 (blockifFinish (ahciClient 0 fun _ => s.dev.blk.mem)
            { be with beStatus := .done } (s.dev.ctx 0).unlockMtx)
          phase := .serving }
    | _ => none
  | .leave =>
    match s.phase with
    | .serving =>
      (blockifFirstPend s.dev.blk.bc.bcPendq).toOption.bind fun be? =>
        if be?.isNone then some { dev := s.dev.setBcMtx pthreadMutexUnlock, phase := .idle }
        else none
    | _ => none

/-- The outcome of a list of events that all meet `ok`. -/
def execAll (ok : AhciSmall → AhciSmallLabel → Prop) [∀ s l, Decidable (ok s l)] :
    List AhciSmallLabel → AhciSmall → Option AhciSmall
  | [], s => some s
  | l :: ls, s => (if ok s l then s.exec l else none).bind (execAll ok ls)

/-- What is computed is a step. -/
theorem exec_step {s t : AhciSmall} {l : AhciSmallLabel} (h : s.exec l = some t) :
    AhciSmallStep s l t := by
  cases l with
  | hostWrite offset value =>
    rw [exec] at h
    split at h
    · next hphase =>
      split at h
      · next hoffset =>
        cases h
        exact .hostWrite offset value hphase hoffset.1 hoffset.2
      · cases h
    · cases h
  | portWrite offset value =>
    rw [exec] at h
    split at h
    · next hphase =>
      split at h
      · next hoffset =>
        obtain ⟨⟨c, more⟩, hc, rfl⟩ := Option.map_eq_some_iff.1 h
        exact .portWrite offset value hphase hoffset.1 hoffset.2 (Except.toOption_eq_some.1 hc)
      · cases h
    · cases h
  | read regoff size =>
    rw [exec] at h
    split at h
    · next hphase =>
      obtain ⟨⟨u, v⟩, hu, rfl⟩ := Option.map_eq_some_iff.1 h
      exact .read regoff size hphase (Except.toOption_eq_some.1 hu)
    · cases h
  | config command msi msixEnabled =>
    rw [exec] at h
    split at h
    · next hphase =>
      cases h
      exact .config command msi msixEnabled hphase
    · cases h
  | guest mem stack =>
    cases h
    exact .guest mem stack
  | enter =>
    rw [exec] at h
    split at h
    · next hphase =>
      cases h
      exact .enter hphase
    · cases h
  | serve =>
    rw [exec] at h
    split at h
    · next hphase =>
      obtain ⟨⟨be?, bc⟩, hdeq, h⟩ := Option.bind_eq_some_iff.1 h
      obtain ⟨be, rfl, h⟩ := Option.bind_eq_some_iff.1 h
      obtain ⟨⟨c, more⟩, hc, rfl⟩ := Option.map_eq_some_iff.1 h
      exact .serve hphase (Except.toOption_eq_some.1 hdeq) rfl (Except.toOption_eq_some.1 hc)
    · cases h
  | visit =>
    obtain ⟨i, hlooks, h⟩ := Option.bind_eq_some_iff.1 h
    split at h
    · next hloops =>
      obtain ⟨c, hc, rfl⟩ := Option.map_eq_some_iff.1 h
      exact .visit ⟨hlooks, hloops⟩ (Except.toOption_eq_some.1 hc)
    · cases h
  | written =>
    rw [exec] at h
    split at h
    · next i looping hphase =>
      split at h
      · cases h
      · next hquits =>
        cases h
        refine .written hphase fun j hj => ?_
        rw [hphase] at hj
        cases looping with
        | true =>
          cases hj
          simpa using hquits
        | false => cases hj
    · cases h
  | served =>
    rw [exec] at h
    split at h
    · next be looping hphase =>
      split at h
      · cases h
      · next hquits =>
        cases h
        refine .served hphase fun j hj => ?_
        rw [hphase] at hj
        cases looping with
        | true =>
          cases hj
          simpa using hquits
        | false => cases hj
    · cases h
  | leave =>
    rw [exec] at h
    split at h
    · next hphase =>
      obtain ⟨be?, hu, h⟩ := Option.bind_eq_some_iff.1 h
      cases be? with
      | none =>
        cases h
        exact .leave hphase (Except.toOption_eq_some.1 hu)
      | some be => cases h
    · cases h

/-- A list of events that all meet the condition is a run. -/
theorem execAll_run {ok : AhciSmall → AhciSmallLabel → Prop} [∀ s l, Decidable (ok s l)] :
    ∀ {ls : List AhciSmallLabel} {s t : AhciSmall}, s.execAll ok ls = some t →
      Run (Guarded AhciSmallStep ok) s ls t := by
  intro ls
  induction ls with
  | nil =>
    intro s t h
    cases h
    exact .nil s
  | cons l ls ih =>
    intro s t h
    obtain ⟨u, hu, h⟩ := Option.bind_eq_some_iff.1 h
    split at hu
    · next hok => exact (Run.single ⟨exec_step hu, hok⟩).trans (ih h)
    · cases hu

/-- What a list of events computes is reached, in a run whose events all meet the condition. -/
theorem execAll_reaches {ok : AhciSmall → AhciSmallLabel → Prop} [∀ s l, Decidable (ok s l)]
    {init : AhciSmall → Prop} {ls : List AhciSmallLabel} :
    ∀ {s t : AhciSmall}, Reaches (Guarded AhciSmallStep ok) init s → s.execAll ok ls = some t →
      Reaches (Guarded AhciSmallStep ok) init t := by
  exact fun hs h => (execAll_run h).extends_reaches hs

end AhciSmall

/-- What is said of the first element of a queue. -/
instance decidableFirst {α : Type} (l : List α) (P : α → List α → Prop) [∀ a r, Decidable (P a r)] :
    Decidable (∀ a r, l = a :: r → P a r) :=
  match l with
  | [] => isTrue fun _ _ h => (nomatch h)
  | a :: r => decidable_of_iff (P a r)
    ⟨fun h _ _ heq => (List.cons.inj heq).1 ▸ (List.cons.inj heq).2 ▸ h, fun h => h a r rfl⟩

/-! ## Accesses -/

/-- After `pci_ahci_init`, with `mem` in memory. -/
def ahciStart (atapi : Bool) (mem : Mem) : AhciSmall where
  dev := pciAhciInit ⟨0⟩ 0 atapi [] mem fun _ => 0
  phase := .idle

theorem ahciStart_initial (atapi : Bool) (mem : Mem) : AhciSmallInitial (ahciStart atapi mem) :=
  ⟨⟨⟨⟨0⟩, 0, atapi, [], mem, fun _ => 0, rfl⟩, rfl⟩, rfl⟩

/-- Interrupts are enabled, and the port is given an area for the frames it receives. -/
def enableFirst : List AhciSmallLabel :=
  [.hostWrite 0x04 0x2, .portWrite 0x108 0x1000, .written, .portWrite 0x114 0x1, .written]

/-- The port is started, and the command in slot 0 issued. -/
def issueFirst : List AhciSmallLabel := [.portWrite 0x118 0x11, .written, .portWrite 0x138 0x1, .visit]

/-- The write returns, and `blockif_thr` serves what there is. -/
def serveFirst : List AhciSmallLabel := [.written, .enter, .serve, .served, .leave]

end DeviceModel
