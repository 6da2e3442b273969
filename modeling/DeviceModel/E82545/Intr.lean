import DeviceModel.E82545.Softc

/-!
# e1000 interrupt causes and the throttle timer

`esc_ICR` holds the causes, `esc_IMS` the mask. An interrupt is raised when a new
unmasked cause arrives, the line is not already asserted and no throttle timer is
outstanding; raising it starts the timer if `esc_ITR` is set. The driver keeps its
own copy of the line state in `esc_irq_asserted`.
-/

namespace DeviceModel

namespace E82545Softc

/-- The unmasked causes, `sc->esc_ICR & sc->esc_IMS`. -/
def causes (sc : E82545Softc) : U32 := sc.intr.escICR &&& sc.intr.escIMS

/-- `sc->esc_irq_asserted = 1; pci_lintr_assert(sc->esc_pi)`. -/
def lintrAssert (sc : E82545Softc) : E82545Softc :=
  { sc with intr.escIrqAsserted := true, escPi := pciLintrAssert sc.escPi }

/-- `pci_lintr_deassert(sc->esc_pi); sc->esc_irq_asserted = 0`. -/
def lintrDeassert (sc : E82545Softc) : E82545Softc :=
  { sc with escPi := pciLintrDeassert sc.escPi, intr.escIrqAsserted := false }

/-- `mdx_callout_init` and `mdx_callout_set` on the throttle timer. -/
def calloutSet (sc : E82545Softc) : E82545Softc := { sc with intr.mevpitrCallout := true }

/-- `if (sc->esc_ITR != 0)` start the throttle timer. -/
def throttle (sc : E82545Softc) : E82545Softc :=
  if sc.intr.escITR ≠ 0 then { sc.calloutSet with intr.escMevpitr := true } else sc

end E82545Softc

/-- The tail that `e82545_icr_assert` and `e82545_ims_change` share: what to do
about newly unmasked causes `new`. -/
def e82545NewCause (sc : E82545Softc) (new : U32) : E82545Softc :=
  if new = 0 then sc
  else if sc.intr.escMevpitr then sc
  else if !sc.intr.escIrqAsserted then sc.lintrAssert.throttle
  else sc

/-- `e82545_icr_assert`. -/
def e82545IcrAssert (sc : E82545Softc) (bits : U32) : E82545Softc :=
  e82545NewCause { sc with intr.escICR := sc.intr.escICR ||| bits }
    (bits &&& ~~~sc.intr.escICR &&& sc.intr.escIMS)

/-- `e82545_ims_change`. -/
def e82545ImsChange (sc : E82545Softc) (bits : U32) : E82545Softc :=
  e82545NewCause { sc with intr.escIMS := sc.intr.escIMS ||| bits }
    (bits &&& sc.intr.escICR &&& ~~~sc.intr.escIMS)

/-- The tail of `e82545_icr_deassert`: no interrupt source is left, and there was
an asserted interrupt. -/
def e82545DropLine (sc : E82545Softc) : E82545Softc :=
  if sc.intr.escIrqAsserted ∧ sc.causes = 0 then sc.lintrDeassert else sc

/-- `e82545_icr_deassert`. -/
def e82545IcrDeassert (sc : E82545Softc) (bits : U32) : E82545Softc :=
  e82545DropLine { sc with intr.escICR := sc.intr.escICR &&& ~~~bits }

/-- `e82545_itr_callback` between lock and unlock. -/
def e82545ItrCallbackBody (sc : E82545Softc) : E82545Softc :=
  if sc.causes ≠ 0 ∧ ¬ sc.intr.escIrqAsserted then sc.lintrAssert.calloutSet
  else { sc with intr.escMevpitr := false }

/-- `pthread_mutex_lock(&sc->esc_mtx)`. -/
def E82545Softc.lockMtx (sc : E82545Softc) : E82545Softc :=
  { sc with escMtx := pthreadMutexLock sc.escMtx }

/-- `pthread_mutex_unlock(&sc->esc_mtx)`. -/
def E82545Softc.unlockMtx (sc : E82545Softc) : E82545Softc :=
  { sc with escMtx := pthreadMutexUnlock sc.escMtx }

/-- `e82545_itr_callback`. The callout has just fired. -/
def e82545ItrCallback (sc : E82545Softc) : E82545Softc :=
  (e82545ItrCallbackBody { sc.lockMtx with intr.mevpitrCallout := false }).unlockMtx

/-- `e82545_intr_write`. -/
def e82545IntrWrite (sc : E82545Softc) (reg : E1000Reg) (value : U32) : E82545Softc :=
  match reg with
  | .icr => e82545IcrDeassert sc value
  | .itr => { sc with intr.escITR := value }
  | .ics => e82545IcrAssert { sc with intr.escICS := value } value
  | .ims => e82545ImsChange sc value
  | .imc => { sc with intr.escIMC := value, intr.escIMS := sc.intr.escIMS &&& ~~~value }
  | _ => sc

/-- `e82545_intr_read`. Reading ICR clears it. -/
def e82545IntrRead (sc : E82545Softc) (reg : E1000Reg) : E82545Softc × U32 :=
  match reg with
  | .icr => (e82545IcrDeassert { sc with intr.escICR := 0 } (BitVec.allOnes 32), sc.intr.escICR)
  | .itr => (sc, sc.intr.escITR)
  | .ims => (sc, sc.intr.escIMS)
  | _ => (sc, 0)

/-! ## What the interrupt functions leave alone

Each touches the line and the interrupt registers only. -/

theorem e82545NewCause_frame (sc : E82545Softc) (new : U32) :
    ∃ pi intr, e82545NewCause sc new = { sc with escPi := pi, intr := intr } := by
  unfold e82545NewCause
  split
  · exact ⟨_, _, rfl⟩
  · split
    · exact ⟨_, _, rfl⟩
    · split
      · unfold E82545Softc.throttle
        split <;> exact ⟨_, _, rfl⟩
      · exact ⟨_, _, rfl⟩

theorem e82545IcrAssert_frame (sc : E82545Softc) (bits : U32) :
    ∃ pi intr, e82545IcrAssert sc bits = { sc with escPi := pi, intr := intr } := by
  obtain ⟨pi, intr, hframe⟩ := e82545NewCause_frame
    { sc with intr.escICR := sc.intr.escICR ||| bits } (bits &&& ~~~sc.intr.escICR &&& sc.intr.escIMS)
  exact ⟨pi, intr, hframe⟩

theorem e82545DropLine_frame (sc : E82545Softc) :
    ∃ pi intr, e82545DropLine sc = { sc with escPi := pi, intr := intr } := by
  unfold e82545DropLine
  split <;> exact ⟨_, _, rfl⟩

theorem e82545IntrWrite_frame (sc : E82545Softc) (reg : E1000Reg) (value : U32) :
    ∃ pi intr, e82545IntrWrite sc reg value = { sc with escPi := pi, intr := intr } := by
  cases reg with
  | icr =>
    obtain ⟨pi, intr, hframe⟩ :=
      e82545DropLine_frame { sc with intr.escICR := sc.intr.escICR &&& ~~~value }
    exact ⟨pi, intr, hframe⟩
  | ics =>
    obtain ⟨pi, intr, hframe⟩ := e82545IcrAssert_frame { sc with intr.escICS := value } value
    exact ⟨pi, intr, hframe⟩
  | ims =>
    obtain ⟨pi, intr, hframe⟩ := e82545NewCause_frame
      { sc with intr.escIMS := sc.intr.escIMS ||| value } (value &&& sc.intr.escICR &&& ~~~sc.intr.escIMS)
    exact ⟨pi, intr, hframe⟩
  | _ => exact ⟨_, _, rfl⟩

theorem e82545IntrRead_icr_frame (sc : E82545Softc) :
    ∃ pi intr, (e82545IntrRead sc .icr).1 = { sc with escPi := pi, intr := intr } := by
  obtain ⟨pi, intr, hframe⟩ := e82545DropLine_frame
    { sc with intr.escICR := 0 &&& ~~~BitVec.allOnes 32 }
  exact ⟨pi, intr, hframe⟩

theorem e82545ItrCallback_frame (sc : E82545Softc) :
    ∃ mtx pi intr,
      e82545ItrCallback sc = { sc with escMtx := mtx, escPi := pi, intr := intr } := by
  unfold e82545ItrCallback e82545ItrCallbackBody
  split <;> exact ⟨_, _, _, rfl⟩

end DeviceModel
