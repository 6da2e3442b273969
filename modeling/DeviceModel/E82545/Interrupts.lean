import DeviceModel.Library.Runs
import DeviceModel.E82545.Regs

/-!
# When the e1000 loses an interrupt

The line's state is kept twice, in `esc_irq_asserted` and in `pi_lintr.state`, and
a throttle timer may hold a new cause back. `IntrSound` says that the copies agree
and that an unmasked cause is held back by nothing but the timer.

Every operation keeps `IntrSound` except one: `e82545_reset` deasserts the line and
leaves `esc_irq_asserted` set. From then on no cause reaches the line. So the law
holds in every run that makes no such reset, and fails right after one.
-/

namespace DeviceModel

/-- The two copies of the line agree, and a pending unmasked cause has raised the
line unless the throttle timer is outstanding. -/
structure IntrSound (sc : E82545Softc) : Prop where
  line : sc.intr.escIrqAsserted = true ↔ sc.escPi.lintr.state ≠ .idle
  raised : sc.causes ≠ 0 → sc.intr.escMevpitr = false → sc.escPi.lintr.state ≠ .idle

/-- `IntrSound` looks at the line and the interrupt registers only. -/
theorem IntrSound.congr {s t : E82545Softc} (hs : IntrSound s) (hpi : t.escPi = s.escPi)
    (hintr : t.intr = s.intr) : IntrSound t := by
  obtain ⟨hline, hraised⟩ := hs
  constructor
  · rw [hpi, hintr]
    exact hline
  · rw [hpi, hintr, E82545Softc.causes, hintr]
    exact hraised

/-! ## The interrupt functions -/

/-- Causes that are all recorded or masked already add no unmasked cause. -/
theorem or_and_eq_of_new_eq_zero {icr bits ims : U32} (h : bits &&& ~~~icr &&& ims = 0) :
    (icr ||| bits) &&& ims = icr &&& ims := by
  ext i hi
  have hbit := congrArg (fun v : U32 => v[i]) h
  simp only [BitVec.getElem_and, BitVec.getElem_or, BitVec.getElem_not] at hbit ⊢
  revert hbit
  cases icr[i] <;> cases bits[i] <;> cases ims[i] <;> simp

/-- Removing bits from one side leaves no new unmasked cause. -/
theorem and_ne_zero_of_and_not {a b c : U32} (h : a &&& ~~~c &&& b ≠ 0) : a &&& b ≠ 0 := by
  intro hab
  apply h
  have hcomm : a &&& ~~~c &&& b = a &&& b &&& ~~~c := by
    rw [BitVec.and_assoc, BitVec.and_comm (~~~c), ← BitVec.and_assoc]
  rw [hcomm, hab]
  exact BitVec.zero_and

@[simp] theorem throttle_irqAsserted (sc : E82545Softc) :
    sc.throttle.intr.escIrqAsserted = sc.intr.escIrqAsserted := by
  unfold E82545Softc.throttle
  split <;> rfl

@[simp] theorem throttle_escPi (sc : E82545Softc) : sc.throttle.escPi = sc.escPi := by
  unfold E82545Softc.throttle
  split <;> rfl

/-- Raising the line makes both copies say so. -/
theorem lintrAssert_throttle_sound (sc : E82545Softc) : IntrSound sc.lintrAssert.throttle := by
  have hstate : sc.lintrAssert.throttle.escPi.lintr.state ≠ .idle := by
    rw [throttle_escPi]
    exact pciLintrAssert_state sc.escPi
  constructor
  · rw [throttle_irqAsserted]
    exact ⟨fun _ => hstate, fun _ => rfl⟩
  · exact fun _ _ => hstate

/-- What to do about new causes: it is enough that without any, the line already
stands for the causes there are. -/
theorem e82545NewCause_sound {sc : E82545Softc} {new : U32}
    (hline : sc.intr.escIrqAsserted = true ↔ sc.escPi.lintr.state ≠ .idle)
    (hold : new = 0 → sc.causes ≠ 0 → sc.intr.escMevpitr = false →
      sc.escPi.lintr.state ≠ .idle) :
    IntrSound (e82545NewCause sc new) := by
  unfold e82545NewCause
  split
  · next hnew => exact ⟨hline, hold hnew⟩
  · split
    · next hitr =>
      refine ⟨hline, fun _ h => ?_⟩
      rw [hitr] at h
      cases h
    · split
      · exact lintrAssert_throttle_sound sc
      · next hirq =>
        have hirq' : sc.intr.escIrqAsserted = true := by simpa using hirq
        exact ⟨hline, fun _ _ => hline.1 hirq'⟩

theorem e82545IcrAssert_sound {sc : E82545Softc} (hs : IntrSound sc) (bits : U32) :
    IntrSound (e82545IcrAssert sc bits) := by
  refine e82545NewCause_sound hs.line fun hnew hcauses => hs.raised ?_
  have heq : (sc.intr.escICR ||| bits) &&& sc.intr.escIMS = sc.causes :=
    or_and_eq_of_new_eq_zero hnew
  rwa [E82545Softc.causes, heq] at hcauses

theorem e82545ImsChange_sound {sc : E82545Softc} (hs : IntrSound sc) (bits : U32) :
    IntrSound (e82545ImsChange sc bits) := by
  refine e82545NewCause_sound hs.line fun hnew hcauses => hs.raised ?_
  -- the set of unmasked causes is symmetric in ICR and IMS
  have hnew' : bits &&& ~~~sc.intr.escIMS &&& sc.intr.escICR = 0 := by
    rw [BitVec.and_assoc, BitVec.and_comm (~~~_), ← BitVec.and_assoc]
    exact hnew
  have heq : sc.intr.escICR &&& (sc.intr.escIMS ||| bits) = sc.causes := by
    rw [BitVec.and_comm, or_and_eq_of_new_eq_zero hnew', BitVec.and_comm]
    rfl
  rwa [E82545Softc.causes, heq] at hcauses

theorem e82545DropLine_sound {sc : E82545Softc}
    (hline : sc.intr.escIrqAsserted = true ↔ sc.escPi.lintr.state ≠ .idle)
    (hold : sc.causes ≠ 0 → sc.intr.escMevpitr = false → sc.escPi.lintr.state ≠ .idle) :
    IntrSound (e82545DropLine sc) := by
  unfold e82545DropLine
  split
  · next h =>
    have hstate : sc.lintrDeassert.escPi.lintr.state = .idle := pciLintrDeassert_state sc.escPi
    constructor
    · rw [hstate]
      simp [E82545Softc.lintrDeassert]
    · intro hcauses
      exact absurd h.2 hcauses
  · exact ⟨hline, hold⟩

theorem e82545ItrCallbackBody_sound {sc : E82545Softc} (hs : IntrSound sc) :
    IntrSound (e82545ItrCallbackBody sc) := by
  unfold e82545ItrCallbackBody
  split
  · have hstate : sc.lintrAssert.calloutSet.escPi.lintr.state ≠ .idle :=
      pciLintrAssert_state sc.escPi
    exact ⟨⟨fun _ => hstate, fun _ => rfl⟩, fun _ _ => hstate⟩
  · next h =>
    refine ⟨hs.line, fun hcauses _ => hs.line.1 ?_⟩
    -- the callback gave up although a cause is pending, so the line is asserted
    by_contra hirq
    exact h ⟨hcauses, hirq⟩

theorem e82545ItrCallback_sound {sc : E82545Softc} (hs : IntrSound sc) :
    IntrSound (e82545ItrCallback sc) := by
  have hfired : IntrSound { sc.lockMtx with intr.mevpitrCallout := false } := ⟨hs.line, hs.raised⟩
  exact (e82545ItrCallbackBody_sound hfired).congr rfl rfl

theorem e82545IntrWrite_sound {sc : E82545Softc} (hs : IntrSound sc) (reg : E1000Reg)
    (value : U32) : IntrSound (e82545IntrWrite sc reg value) := by
  cases reg with
  | icr => exact e82545DropLine_sound hs.line fun h => hs.raised (and_ne_zero_of_and_not h)
  | itr => exact ⟨hs.line, hs.raised⟩
  | ics =>
    have hics : IntrSound { sc with intr.escICS := value } := ⟨hs.line, hs.raised⟩
    exact e82545IcrAssert_sound hics value
  | ims => exact e82545ImsChange_sound hs value
  | imc =>
    refine ⟨hs.line, fun h => hs.raised ?_⟩
    have h' : sc.intr.escIMS &&& ~~~value &&& sc.intr.escICR ≠ 0 := by
      rw [BitVec.and_comm]
      exact h
    rw [E82545Softc.causes, BitVec.and_comm]
    exact and_ne_zero_of_and_not h'
  | _ => exact hs

/-- Reading ICR clears it, so there are no causes left to stand for. -/
theorem e82545IntrRead_icr_sound {sc : E82545Softc} (hs : IntrSound sc) :
    IntrSound (e82545IntrRead sc .icr).1 := by
  refine e82545DropLine_sound hs.line fun h => ?_
  simp [E82545Softc.causes] at h

/-! ## Register writes -/

/-- Whether a register write is a software reset of the device. -/
def e82545IsReset (reg : E1000Reg) (value : U32) : Bool :=
  (reg = .ctrl ∨ reg = .ctrlDup) ∧ value &&& e1000CtrlRST ≠ 0

/-- A finished device reset: the line is idle, there are no causes, and the
driver's copy of the line state is what it was. -/
theorem e82545Reset_intr {fuel : Nat} {sc t : E82545Softc} (h : e82545Reset fuel true sc = .ok t) :
    t.intr.escIrqAsserted = sc.intr.escIrqAsserted ∧ t.causes = 0 ∧
      t.escPi =
        (if sc.intr.escIrqAsserted then pciLintrDeassert sc.escPi else sc.escPi) := by
  obtain ⟨-, -, -, rfl⟩ := e82545Reset_eq_ok.1 h
  refine ⟨?_, ?_, ?_⟩
  · rw [e82545ResetRegs_intr]
  · rw [E82545Softc.causes, e82545ResetRegs_intr]
    exact BitVec.zero_and
  · rw [e82545ResetRegs_escPi]

/-- A register write that is no reset is a write of the interrupt registers, or
it leaves them alone. -/
theorem e82545WriteReg_intr {fuel : Nat} {sc t : E82545Softc} {reg : E1000Reg} {value : U32}
    (h : e82545WriteReg fuel sc reg value = .ok t) (hreset : e82545IsReset reg value = false) :
    t = e82545IntrWrite sc reg value ∨ (t.escPi = sc.escPi ∧ t.intr = sc.intr) := by
  cases reg with
  | icr | itr | ics | ims | imc =>
    cases h
    exact .inl rfl
  | ctrl | ctrlDup =>
    have hrst : value &&& e1000CtrlRST = 0 := by simpa [e82545IsReset] using hreset
    simp only [e82545WriteReg, e82545Devctl, hrst, ne_eq, not_true_eq_false, if_false] at h
    cases h
    exact .inr ⟨rfl, rfl⟩
  | rctl =>
    right
    simp only [e82545WriteReg, e82545RxCtl] at h
    split at h
    · split at h
      · cases h
        exact ⟨rfl, rfl⟩
      · obtain ⟨s, hs, h⟩ := Except.bind_eq_ok.1 h
        obtain ⟨-, -, rfl⟩ := condWaitWhile_eq_ok.1 hs
        cases h
        exact ⟨rfl, rfl⟩
    · cases h
      exact ⟨rfl, rfl⟩
  | tctl =>
    right
    simp only [e82545WriteReg, e82545TxCtl] at h
    split at h
    · cases h
      exact ⟨rfl, rfl⟩
    · split at h
      · cases h
        exact ⟨rfl, rfl⟩
      · obtain ⟨s, hs, h⟩ := Except.bind_eq_ok.1 h
        obtain ⟨-, -, rfl⟩ := condWaitWhile_eq_ok.1 hs
        cases h
        exact ⟨rfl, rfl⟩
  | rdbal | tdbal | tdt =>
    simp only [e82545WriteReg] at h
    cases h
    right
    split <;> exact ⟨rfl, rfl⟩
  | rdbah | rdlen | ra _ =>
    obtain ⟨u, -, h⟩ := Except.bind_eq_ok.1 h
    cases h
    exact .inr ⟨rfl, rfl⟩
  | _ =>
    cases h
    exact .inr ⟨rfl, rfl⟩

/-! ## Runs -/

/-- What can happen to the interrupt state: the guest accesses a BAR, transmit or
receive raises causes, or the throttle timer fires. -/
inductive IntrEvent : Type where
  | write (baridx : Nat) (offset : U64) (size : Nat) (value : U64)
  | read (baridx : Nat) (offset : U64) (size : Nat)
  | cause (bits : U32)
  | itr
  deriving DecidableEq, Repr

/-- One event. An access that does not return has no next state. -/
inductive IntrStep : E82545Softc → IntrEvent → E82545Softc → Prop where
  | write {s t : E82545Softc} (fuel baridx : Nat) (offset : U64) (size : Nat) (value : U64) :
      e82545Write fuel s baridx offset size value = .ok t →
      IntrStep s (.write baridx offset size value) t
  | read {s t : E82545Softc} {baridx : Nat} {offset : U64} {size : Nat} {v : U32} :
      e82545Read s baridx offset size = .ok (t, v) → IntrStep s (.read baridx offset size) t
  | cause {s : E82545Softc} (bits : U32) : IntrStep s (.cause bits) (e82545IcrAssert s bits)
  | itr {s : E82545Softc} : s.intr.mevpitrCallout = true → IntrStep s .itr (e82545ItrCallback s)

/-- Whether an event is a software reset. -/
def IntrEvent.isReset (s : E82545Softc) : IntrEvent → Bool
  | .write baridx offset size value =>
    match e82545BarRegister s baridx offset size with
    | some reg => e82545IsReset reg (value.setWidth 32)
    | none => false
  | _ => false

/-- The event does not reset the device while it asserts the line. -/
def KeepsLine (s : E82545Softc) (e : IntrEvent) : Prop :=
  e.isReset s = true → s.intr.escIrqAsserted = false

theorem e82545WriteReg_sound {fuel : Nat} {sc t : E82545Softc} {reg : E1000Reg} {value : U32}
    (hs : IntrSound sc) (h : e82545WriteReg fuel sc reg value = .ok t)
    (hreset : e82545IsReset reg value = false) : IntrSound t := by
  rcases e82545WriteReg_intr h hreset with rfl | ⟨hpi, hintr⟩
  · exact e82545IntrWrite_sound hs reg value
  · exact hs.congr hpi hintr

/-- A software reset runs `e82545_reset` on the softc with CTRL updated. -/
theorem e82545WriteReg_reset {fuel : Nat} {sc t : E82545Softc} {reg : E1000Reg} {value : U32}
    (h : e82545WriteReg fuel sc reg value = .ok t) (hreset : e82545IsReset reg value = true) :
    t.intr.escIrqAsserted = sc.intr.escIrqAsserted ∧ t.causes = 0 ∧
      t.escPi = (if sc.intr.escIrqAsserted then pciLintrDeassert sc.escPi else sc.escPi) := by
  obtain ⟨hreg, hrst⟩ : (reg = .ctrl ∨ reg = .ctrlDup) ∧ value &&& e1000CtrlRST ≠ 0 := by
    simpa [e82545IsReset] using hreset
  have hdev : e82545Devctl fuel sc value = .ok t := by
    rcases hreg with rfl | rfl <;> exact h
  rw [e82545Devctl, if_pos hrst] at hdev
  have hintr := e82545Reset_intr hdev
  exact hintr

/-- A register write keeps the invariant exactly when it is no reset of an asserted
line. -/
theorem e82545WriteReg_sound_iff {fuel : Nat} {sc t : E82545Softc} {reg : E1000Reg} {value : U32}
    (hs : IntrSound sc) (h : e82545WriteReg fuel sc reg value = .ok t) :
    IntrSound t ↔ (e82545IsReset reg value = true → sc.intr.escIrqAsserted = false) := by
  cases hreset : e82545IsReset reg value with
  | false => exact ⟨fun _ hr => (nomatch hr), fun _ => e82545WriteReg_sound hs h hreset⟩
  | true =>
    obtain ⟨hirq, hcauses, hpi⟩ := e82545WriteReg_reset h hreset
    constructor
    · intro ht _
      -- the reset has left the line idle, so the copies agree only on "not asserted"
      by_contra hset
      have hset' : sc.intr.escIrqAsserted = true := by simpa using hset
      rw [if_pos hset'] at hpi
      refine ht.line.1 (hirq.trans hset') ?_
      rw [hpi]
      exact pciLintrDeassert_state _
    · intro hk
      have hclear : sc.intr.escIrqAsserted = false := hk rfl
      rw [hclear] at hirq hpi
      constructor
      · rw [hirq, hpi, if_neg (Bool.false_ne_true), ← hclear]
        exact hs.line
      · exact fun h => absurd hcauses h

/-- One event keeps the invariant exactly when it is no reset of an asserted line. -/
theorem intrStep_sound_iff {s t : E82545Softc} {e : IntrEvent} (hs : IntrSound s)
    (h : IntrStep s e t) : IntrSound t ↔ KeepsLine s e := by
  cases h with
  | write fuel baridx offset size value h =>
    have hlock : IntrSound s.lockMtx := hs.congr rfl rfl
    rcases e82545Write_cases h with ⟨hnone, w, rfl⟩ | ⟨reg, u, hreg, hu, rfl⟩
    · refine ⟨fun _ hr => ?_, fun _ => hs.congr rfl rfl⟩
      simp [IntrEvent.isReset, hnone] at hr
    · have hkeeps : KeepsLine s (.write baridx offset size value) ↔
          (e82545IsReset reg (value.setWidth 32) = true → s.intr.escIrqAsserted = false) := by
        rw [KeepsLine, IntrEvent.isReset, hreg]
      have hiff := e82545WriteReg_sound_iff hlock hu
      rw [hkeeps]
      exact ⟨fun h => hiff.1 (h.congr rfl rfl), fun h => (hiff.2 h).congr rfl rfl⟩
  | read h =>
    refine ⟨fun _ hr => (nomatch hr), fun _ => ?_⟩
    obtain ⟨⟨u, v⟩, hu, ht⟩ := Except.bind_eq_ok.1 h
    cases ht
    have hlock : IntrSound s.lockMtx := hs.congr rfl rfl
    rcases e82545ReadBar_cases hu with rfl | rfl
    · exact hlock.congr rfl rfl
    · exact (e82545IntrRead_icr_sound hlock).congr rfl rfl
  | cause bits => exact ⟨fun _ hr => (nomatch hr), fun _ => e82545IcrAssert_sound hs bits⟩
  | itr _ => exact ⟨fun _ hr => (nomatch hr), fun _ => e82545ItrCallback_sound hs⟩

theorem e82545Init_sound (ctx : Vmctx) : IntrSound (e82545Init ctx) := by
  constructor
  · simp [e82545Init, e82545Calloc, pciDevinstInit]
  · intro hcauses
    simp [e82545Init, E82545Softc.causes] at hcauses

/-- **No interrupt is lost while no reset hits an asserted line.** In every run
whose resets find `esc_irq_asserted` clear, the copies of the line agree and only
the throttle timer holds an unmasked cause back; the first other reset breaks it. -/
theorem intrSound_of_keepsLine (ctx : Vmctx) {s : E82545Softc}
    (h : Reaches (Guarded IntrStep KeepsLine) (· = e82545Init ctx) s) :
    IntrSound s ∧ ∀ e t, IntrStep s e t → ¬ KeepsLine s e → ¬ IntrSound t := by
  have hs : IntrSound s := by
    refine h.invariant ?_ ?_
    · rintro s rfl
      exact e82545Init_sound ctx
    · rintro s e t hs ⟨hstep, hkeeps⟩
      exact (intrStep_sound_iff hs hstep).2 hkeeps
  exact ⟨hs, fun e t hstep hk ht => hk ((intrStep_sound_iff hs hstep).1 ht)⟩

/-- The law at a state with the line raised: IMS enables a cause, transmit raises it. -/
theorem intrSound_of_keepsLine_raised :
    ∃ s, s.intr.escIrqAsserted = true ∧ IntrSound s ∧
      ∀ e t, IntrStep s e t → ¬ KeepsLine s e → ¬ IntrSound t := by
  have hrun : Reaches (Guarded IntrStep KeepsLine) (· = e82545Init ⟨0⟩) _ :=
    .next (.next (.start rfl) ⟨.write 1 0 0xD0 4 1 rfl, fun h => nomatch h⟩)
      ⟨.cause 1, fun h => nomatch h⟩
  exact ⟨_, rfl, intrSound_of_keepsLine ⟨0⟩ hrun⟩

/-- Not so in every run: reset the device while the line is raised. -/
theorem intrSound_reset_counterexample :
    ¬ ∀ ctx s, Reaches IntrStep (· = e82545Init ctx) s → IntrSound s := by
  intro h
  have hrun : Reaches IntrStep (· = e82545Init ⟨0⟩) _ :=
    .next (.next (.next (.start rfl) (.write 1 0 0xD0 4 1 rfl)) (.cause 1))
      (.write 1 0 0 4 0x04000000 rfl)
  exact (h _ _ hrun).line.1 rfl rfl

end DeviceModel
